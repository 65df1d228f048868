import ScriptCore.Host.Library
import ScriptCore.Primitive.Basic

namespace ScriptCore

inductive ClassRef where
  | core (c : CoreClass)
  | library (c : LibraryClass)
  | made (n : Nat)
  deriving DecidableEq, Repr, Inhabited

/-- The type of a variable, parameter or value. `untyped` is the type of a loosely typed variable,
and of null. A module can stand where a class is named. -/
inductive Ty where
  | untyped
  | prim (p : PrimType)
  | array (component : Ty)
  | cls (c : ClassRef)
  | module (m : Module)
  deriving DecidableEq, Repr, Inhabited

namespace Ty

def object : Ty := .cls (.core .object)

def nested (base : Ty) : Nat → Ty
  | 0 => base
  | n + 1 => .array (nested base n)

def dimensions : Ty → Nat
  | array c => c.dimensions + 1
  | _ => 0

def baseType : Ty → Ty
  | array c => c.baseType
  | t => t

def isVoid : Ty → Bool
  | prim .void => true
  | _ => false

end Ty

abbrev ScopeId := Nat

abbrev ObjectId := Nat

inductive Value where
  /-- The value of nothing in a script. -/
  | null
  /-- No value: an undefined name, or the result of a statement. -/
  | void
  /-- The value of nothing in the host. -/
  | none
  /-- A boxed primitive. The mark is that of the number inside. -/
  | boxed (p : Primitive) (mark : Nat)
  | bool (b : Bool)
  | int (n : Int)
  /-- A floating point number. Those that are no number differ even from themselves, so each has a
  mark by which it is recognised; one of them is shared and has the mark 0. The marks of all others
  mean nothing. -/
  | float (x : Float) (mark : Nat)
  /-- A text. Texts with the mark 0 are the same when they are equal; any other mark belongs to one
  computed text. -/
  | str (s : String) (mark : Nat)
  | object (id : ObjectId)
  | cls (c : ClassRef)
  | module (m : Module)
  | primType (t : PrimType)
  | function (f : HostFn)
  | staticFunction (f : HostFn)
  | property (p : HostProperty)
  | coreMethod (c : CoreClass) (name : String)
  | closure (s : ScopeId)
  | scope (s : ScopeId)
  | signal (n : Nat)
  | stack (n : Nat)
  | interpreter
  deriving Inhabited

namespace Value

def ofString (s : String) : Value := str s 0

def ofTruth (b : Bool) : Value := boxed (.boolean b) 0

def ofInt (n : Int) : Value := boxed (.int n) 0

def isPrimitive : Value → Bool
  | boxed .. => true
  | _ => false

def isMarkerOrPrimitive : Value → Bool
  | boxed .. | null | void => true
  | _ => false

def isVoid : Value → Bool
  | void => true
  | _ => false

def isNull : Value → Bool
  | null => true
  | _ => false

def isNone : Value → Bool
  | none => true
  | _ => false

def text? : Value → Option String
  | str s _ => some s
  | _ => Option.none

/-- Whether two values are one and the same, where that says more than equality: of equal numbers
only the small host integers count, and boxed values that carry a mark. -/
def same : Value → Value → Bool
  | null, null | void, void | none, none | interpreter, interpreter => true
  | bool a, bool b => a == b
  | boxed _ m, boxed _ n => m != 0 && m == n
  | int a, int b => a == b && decide (-5 ≤ a) && decide (a ≤ 256)
  | float x m, float y n => x.isNaN && y.isNaN && m == n
  | str s m, str t n => m == n && s == t
  | object a, object b => a == b
  | cls a, cls b => decide (a = b)
  | module a, module b => decide (a = b)
  | primType a, primType b => decide (a = b)
  | closure a, closure b => a == b
  | scope a, scope b => a == b
  | signal a, signal b => a == b
  | stack a, stack b => a == b
  | function f, function g | staticFunction f, staticFunction g => decide (f = g)
  | property p, property q => decide (p = q)
  | coreMethod c m, coreMethod d n => decide (c = d) && m == n
  | _, _ => false

def inferInt (n : Int) : PrimType := if -(2 ^ 31) ≤ n ∧ n < 2 ^ 31 then .int else .long

def wrap : Value → Value
  | none => null
  | bool b => boxed (.boolean b) 0
  | int n => boxed (if inferInt n = .int then .int n else .long (Word.wrap 64 n)) 0
  | float x m => boxed (.double x) m
  | v => v

def ofPrimitive (p : Primitive) (mark : Nat) : Value :=
  match p with
  | .boolean b => bool b
  | .byte n | .short n | .int n | .long n => int n
  | .char c => ofString (Primitive.charText c)
  | .float x | .double x => float x mark

def unwrap : Value → Value
  | null | void => none
  | boxed p m => ofPrimitive p m
  | v => v

def default : Ty → Value
  | .prim p =>
    match Primitive.default? p with
    | some q => boxed q 0
    | Option.none => void
  | _ => null

end Value

end ScriptCore
