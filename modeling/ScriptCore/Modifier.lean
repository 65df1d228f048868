import ScriptCore.Trouble

namespace ScriptCore

structure Modifiers where
  names : List String := []
  deriving DecidableEq, Repr, Inhabited

namespace Modifiers

def allowed : DeclKind → List String
  | .cls => ["public", "protected", "private", "abstract", "final", "static", "strictfp"]
  | .method =>
    ["public", "protected", "private", "abstract", "final", "static", "native", "synchronized", "strictfp", "default"]
  | .field => ["public", "protected", "private", "final", "static", "transient", "volatile"]

def visibility : List String := ["public", "protected", "private"]

def has (m : Modifiers) (name : String) : Bool := m.names.contains name

def add (kind : DeclKind) (m : Modifiers) (name : String) : Except Cause Modifiers :=
  if m.has name then .error (.duplicateModifier name)
  else if !(allowed kind).contains name then .error (.modifierNotAllowed kind name)
  else if visibility.contains name && visibility.any m.has then .error .visibilityCombination
  else .ok ⟨m.names ++ [name]⟩

def addAll (kind : DeclKind) : Modifiers → List String → Except Cause Modifiers
  | m, [] => .ok m
  | m, n :: rest =>
    match add kind m n with
    | .ok m' => addAll kind m' rest
    | .error c => .error c

def ofNames (kind : DeclKind) (names : List String) : Except Cause Modifiers := addAll kind {} names

def sorted (m : Modifiers) : List String := m.names.mergeSort fun a b => a ≤ b

def text (m : Modifiers) : String := "Modifiers(" ++ ", ".intercalate m.sorted ++ ")"

end Modifiers

end ScriptCore
