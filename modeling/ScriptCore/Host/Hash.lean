import ScriptCore.Value

namespace ScriptCore

inductive Hash where
  | number (n : Int)
  | text (s : String)
  | tuple (parts : List Hash)
  | own (v : Value)
  deriving Inhabited

namespace Hash

mutual

def agrees : Hash → Hash → Bool
  | number m, number n => m == n
  | text s, text t => s == t
  | tuple xs, tuple ys => allAgree xs ys
  | own v, own w => v.same w
  | _, _ => false

def allAgree : List Hash → List Hash → Bool
  | [], [] => true
  | x :: xs, y :: ys => agrees x y && allAgree xs ys
  | _, _ => false

end

/-- The number behind a hash; what stands for no number has none that carries a meaning. -/
def number! : Hash → Int
  | number n => n
  | _ => 0

def isNumber : Hash → Bool
  | number _ => true
  | _ => false

def modulus : Nat := 2 ^ 61 - 1

def settled (n : Int) : Int := if n = -1 then -2 else n

def ofInt (n : Int) : Hash :=
  let m : Int := (n.natAbs % modulus : Nat)
  number (settled (if n < 0 then -m else m))

/-- Equal numbers have equal hashes, so a fraction is hashed modulo the same number. -/
def ofFloat (x : Float) (mark : Nat) : Hash :=
  if x.isNaN then own (.float x mark)
  else if x.isInf then number (if x < 0.0 then -314159 else 314159)
  else
    let p := Binary.parts x
    let exponent := (p.exponent % 61).toNat
    let m : Int := (p.mantissa * 2 ^ exponent % modulus : Nat)
    number (settled (if Binary.isNegative x then -m else m))

def given (n : Int) : Hash := if -(2 ^ 63) ≤ n ∧ n < 2 ^ 63 then number (settled n) else ofInt n

end Hash

end ScriptCore
