import ScriptCore.Number.Word
import ScriptCore.Number.Decimal
import ScriptCore.Text.Quoted
import ScriptCore.Trouble

namespace ScriptCore

inductive PrimType where
  | boolean | byte | short | char | int | long | float | double | void
  deriving DecidableEq, Repr, Inhabited

namespace PrimType

def name : PrimType → String
  | boolean => "boolean" | byte => "byte" | short => "short" | char => "char" | int => "int" | long => "long"
  | float => "float" | double => "double" | void => "void"

def all : List PrimType := [boolean, byte, short, char, int, long, float, double, void]

def ofName? (s : String) : Option PrimType := all.find? fun t => t.name = s

def rank? : PrimType → Option Nat
  | byte => some 0 | short => some 1 | char => some 1 | int => some 2 | long => some 3 | float => some 4
  | double => some 5 | boolean => none | void => none

def isNumeric (t : PrimType) : Bool := t.rank?.isSome

def isIntegral : PrimType → Bool
  | byte | short | char | int | long => true
  | _ => false

def isFloating : PrimType → Bool
  | float | double => true
  | _ => false

def bits? : PrimType → Option Nat
  | byte => some 8 | short => some 16 | int => some 32 | long => some 64
  | _ => none

def boxClass? : PrimType → Option CoreClass
  | boolean => some .bool
  | byte | short | int | long => some .int
  | char => some .str
  | float | double => some .float
  | void => none

def widening? : PrimType → PrimType → Option Nat
  | byte, short => some 1 | byte, int => some 2 | byte, long => some 3 | byte, float => some 4
  | byte, double => some 5
  | short, int => some 1 | short, long => some 2 | short, float => some 3 | short, double => some 4
  | char, int => some 1 | char, long => some 2 | char, float => some 3 | char, double => some 4
  | int, long => some 1 | int, float => some 2 | int, double => some 3
  | long, float => some 1 | long, double => some 2
  | float, double => some 1
  | _, _ => none

/-- Operands narrower than `int` are computed with as `int`. -/
def promoted : PrimType → PrimType
  | byte | short | char => int
  | t => t

end PrimType

/-- A boxed primitive value. Integers are kept in the range of their type by the conversions below;
a `char` holds a code point. -/
inductive Primitive where
  | boolean (b : Bool)
  | byte (n : Int)
  | short (n : Int)
  | char (code : Nat)
  | int (n : Int)
  | long (n : Int)
  | float (x : Float)
  | double (x : Float)
  deriving Inhabited

inductive Number where
  | int (n : Int)
  | float (x : Float)
  deriving Inhabited

namespace Primitive

def type : Primitive → PrimType
  | boolean _ => .boolean | byte _ => .byte | short _ => .short | char _ => .char | int _ => .int
  | long _ => .long | float _ => .float | double _ => .double

def isNaN : Primitive → Bool
  | float x | double x => x.isNaN
  | _ => false

def isZero : Primitive → Bool
  | byte n | short n | int n | long n => n == 0
  | char c => c == 0
  | float x | double x => x == 0.0
  | boolean _ => false

variable (t : PrimType)

def notBoxable : HostError :=
  let n := t.name
  ⟨.valueError, s!"Cannot box a value of type {n}"⟩

def ofInt (n : Int) : Except HostError Primitive :=
  match t with
  | .boolean => .ok (boolean (n != 0))
  | .byte => .ok (byte (Word.wrap 8 n))
  | .short => .ok (short (Word.wrap 16 n))
  | .char => .ok (char (Word.unsigned 16 n))
  | .int => .ok (int (Word.wrap 32 n))
  | .long => .ok (long (Word.wrap 64 n))
  | .float | .double =>
    match Binary.ofInt? n with
    | none => .error ⟨.overflowError, "int too large to convert to float"⟩
    | some x => .ok (if t = .float then float (Binary.toSingle x) else double x)
  | .void => .error (notBoxable t)

def saturate (bits : Nat) (x : Float) : Int :=
  let hi : Int := 2 ^ (bits - 1) - 1
  let lo : Int := -(2 ^ (bits - 1))
  if x.isNaN then 0
  else if x.isInf then (if x < 0.0 then lo else hi)
  else max lo (min hi (Binary.truncate x))

def integerPart (x : Float) : Except HostError Int :=
  if x.isNaN then .error ⟨.valueError, "cannot convert float NaN to integer"⟩
  else if x.isInf then .error ⟨.overflowError, "cannot convert float infinity to integer"⟩
  else .ok (Binary.truncate x)

def ofFloat (x : Float) : Except HostError Primitive :=
  match t with
  | .boolean => .ok (boolean (x != 0.0))
  | .byte => .ok (byte (Word.wrap 8 (saturate 32 x)))
  | .short => .ok (short (Word.wrap 16 (saturate 32 x)))
  | .char => (integerPart x).map fun n => char (Word.unsigned 16 n)
  | .int => .ok (int (Word.wrap 32 (saturate 32 x)))
  | .long => .ok (long (Word.wrap 64 (saturate 64 x)))
  | .float => .ok (float (Binary.toSingle x))
  | .double => .ok (double x)
  | .void => .error (notBoxable t)

def ofCode (code : Nat) : Except HostError Primitive :=
  match t with
  | .boolean => .ok (boolean true)
  | .char => .ok (char code)
  | _ => ofInt t code

def ofBool (b : Bool) : Except HostError Primitive := ofInt t (if b then 1 else 0)

def ofText (s : String) : Except HostError Primitive :=
  match t, s.toList with
  | .void, _ => .error (notBoxable .void)
  | t, [c] => ofCode t c.toNat
  | .boolean, cs => .ok (boolean (!cs.isEmpty))
  | .char, _ => .error ⟨.valueError, "char value must be a single character, got " ++ Quoted.quote s⟩
  | _, cs =>
    let n := cs.length
    .error ⟨.typeError, s!"ord() expected a character, but string of length {n} found"⟩

def number (p : Primitive) : Except HostError Number :=
  match p with
  | boolean _ => .error ⟨.valueError, "boolean has no numeric value"⟩
  | byte n | short n | int n | long n => .ok (.int n)
  | char c => .ok (.int c)
  | float x | double x => .ok (.float x)

def ofNumber : Number → Except HostError Primitive
  | .int n => ofInt t n
  | .float x => ofFloat t x

def convert : Primitive → Except HostError Primitive
  | boolean b => ofBool t b
  | byte n | short n | int n | long n => ofInt t n
  | char c => ofCode t c
  | float x | double x => ofFloat t x

def default? : PrimType → Option Primitive
  | .boolean => some (boolean false)
  | .byte => some (byte 0)
  | .short => some (short 0)
  | .char => some (char 0)
  | .int => some (int 0)
  | .long => some (long 0)
  | .float => some (float 0.0)
  | .double => some (double 0.0)
  | .void => none

def equal : Primitive → Primitive → Bool
  | boolean a, boolean b => a == b
  | byte a, byte b => a == b
  | short a, short b => a == b
  | char a, char b => a == b
  | int a, int b => a == b
  | long a, long b => a == b
  | float a, float b => a == b
  | double a, double b => a == b
  | _, _ => false

def charText (code : Nat) : String := String.singleton (Char.ofNat code)

def floatText (x : Float) : String :=
  if x.isNaN then "NaN"
  else if x.isInf then (if x < 0.0 then "-Infinity" else "Infinity")
  else Decimal.showFinite x

def text : Primitive → String
  | boolean b => if b then "true" else "false"
  | byte n | short n | int n | long n => toString n
  | char c => charText c
  | float x | double x => floatText x

def shown : Primitive → String
  | boolean b => if b then "True" else "False"
  | byte n | short n | int n | long n => toString n
  | char c => Quoted.quote (charText c)
  | float x | double x => Decimal.show x

def describe (p : Primitive) : String :=
  let content := p.shown
  let type := p.type.name
  s!"Primitive({content}, {type})"

end Primitive

end ScriptCore
