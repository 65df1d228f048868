import ScriptCore.Host.Attribute
import ScriptCore.Number.Numeral

namespace ScriptCore

namespace Signature

def enumerate : List String → String
  | [] => ""
  | [a] => "'" ++ a ++ "'"
  | [a, b] => "'" ++ a ++ "' and '" ++ b ++ "'"
  | names =>
    ", ".intercalate (names.dropLast.map fun n => "'" ++ n ++ "'") ++ ", and '" ++ names.getLastD "" ++ "'"

def misfit? (s : Signature) (function : String) (given : Nat) : Option String :=
  let size := s.parameters.length
  if given < s.required then
    let missing := (s.parameters.take s.required).drop given
    some (function ++ "() missing " ++ toString missing.length ++ " required positional argument" ++
      (if missing.length = 1 then "" else "s") ++ ": " ++ enumerate missing)
  else if size < given && !s.variadic then
    let takes :=
      if s.required = size then toString size ++ " positional argument" ++ (if size = 1 then "" else "s")
      else "from " ++ toString s.required ++ " to " ++ toString size ++ " positional arguments"
    some (function ++ "() takes " ++ takes ++ " but " ++ toString given ++
      (if given = 1 then " was given" else " were given"))
  else none

end Signature

namespace Run

def typeError {α : Type} (message : String) : Plain α := raise ⟨.typeError, message⟩

def argumentsText (n : Nat) : String := toString n ++ " argument" ++ (if n = 1 then "" else "s")

def expectArgs (name : String) (low high given : Nat) : Plain Unit :=
  if low = high then
    if given = low then pure ()
    else typeError (name ++ " expected " ++ argumentsText low ++ ", got " ++ toString given)
  else if given < low then
    typeError (name ++ " expected at least " ++ argumentsText low ++ ", got " ++ toString given)
  else if given > high then
    typeError (name ++ " expected at most " ++ argumentsText high ++ ", got " ++ toString given)
  else pure ()

def takesArgs (name : String) (low high given : Nat) : Plain Unit :=
  let counted := " (" ++ toString given ++ " given)"
  if high = 0 && given > 0 then typeError (name ++ "() takes no arguments" ++ counted)
  else if low = high && given ≠ low then
    typeError (name ++ "() takes exactly " ++ (if low = 1 then "one argument" else argumentsText low) ++ counted)
  else if given < low then typeError (name ++ "() takes at least " ++ argumentsText low ++ counted)
  else if given > high then typeError (name ++ "() takes at most " ++ argumentsText high ++ counted)
  else pure ()

def computed (s : String) : Plain Value := if s.length ≤ 1 then pure (.ofString s) else freshText s

def ofIntegerPart (x : Float) : Plain Int := ofHost (Primitive.integerPart x)

end Run

end ScriptCore
