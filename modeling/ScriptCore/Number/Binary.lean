import ScriptCore.Number.Word

namespace ScriptCore.Binary

/-- A finite double is `mantissa * 2 ^ exponent` with a sign. -/
structure Parts where
  negative : Bool
  mantissa : Nat
  exponent : Int

def isNegative (x : Float) : Bool := x.toBits >>> 63 == 1

def parts (x : Float) : Parts :=
  let bits := x.toBits.toNat
  let e := (bits >>> 52) % 2048
  let f := bits % 2 ^ 52
  if e = 0 then ⟨isNegative x, f, -1074⟩ else ⟨isNegative x, f + 2 ^ 52, (e : Int) - 1075⟩

def infinity (negative : Bool) : Float :=
  Float.ofBits (if negative then 0xFFF0000000000000 else 0x7FF0000000000000)

def nan : Float := Float.ofBits 0x7FF8000000000000

def truncate (x : Float) : Int :=
  let p := parts x
  let m := if p.exponent < 0 then p.mantissa >>> p.exponent.natAbs else p.mantissa <<< p.exponent.toNat
  if p.negative then -(m : Int) else m

/-- `n / 2 ^ k` rounded to the nearest integer, a half to the even one. -/
def roundShift (n k : Nat) : Nat :=
  let q := n >>> k
  let r := n % 2 ^ k
  if 2 * r < 2 ^ k then q
  else if 2 * r = 2 ^ k then q + q % 2
  else q + 1

def ofScaled? (negative : Bool) (m : Nat) (q : Int) : Option Float :=
  let sign : Nat := if negative then 2 ^ 63 else 0
  if m = 0 then some (Float.ofBits sign.toUInt64)
  else
    let drop := max ((Nat.log2 m : Int) - 52) (-1074 - q)
    let n := if drop ≤ 0 then m <<< drop.natAbs else roundShift m drop.toNat
    let e := q + drop
    let f := if n = 2 ^ 53 then 2 ^ 52 else n
    let e := if n = 2 ^ 53 then e + 1 else e
    if f < 2 ^ 52 then some (Float.ofBits (sign + f).toUInt64)
    else if 971 < e then none
    else some (Float.ofBits (sign + (e + 1075).toNat * 2 ^ 52 + (f - 2 ^ 52)).toUInt64)

def ofInt? (n : Int) : Option Float := ofScaled? (n < 0) n.natAbs 0

/-- The remainder of a division that truncates toward zero; it has the sign of `x`. Both are finite
and `y` is not zero. -/
def remainder (x y : Float) : Float :=
  let a := parts x
  let b := parts y
  let e := min a.exponent b.exponent
  let m := (a.mantissa <<< (a.exponent - e).toNat) % (b.mantissa <<< (b.exponent - e).toNat)
  (ofScaled? a.negative m e).getD 0.0

def toSingle (x : Float) : Float := x.toFloat32.toFloat

end ScriptCore.Binary
