import ScriptCore.Number.Binary

namespace ScriptCore.Decimal

/-- Digits `d` and a point position `k` stand for `0.d * 10 ^ k`. -/
structure Digits where
  digits : Nat
  count : Nat
  point : Int

/-- A positive rational with the ends of the interval of numbers that round to it, over one
denominator. -/
structure Interval where
  value : Nat
  low : Nat
  high : Nat
  den : Nat
  closed : Bool

/-- The interval of numbers that round to `m * 2 ^ q`. The lower neighbour of a power of two is
twice as near. -/
def interval (m : Nat) (q : Int) : Interval :=
  let below := if m = 2 ^ 52 ∧ -1074 < q then 1 else 2
  let scale := if 2 ≤ q then 2 ^ (q - 2).toNat else 1
  let den := if 2 ≤ q then 1 else 2 ^ (2 - q).toNat
  ⟨4 * m * scale, (4 * m - below) * scale, (4 * m + 2) * scale, den, m % 2 = 0⟩

def decimalLength (n : Nat) : Nat := (Nat.toDigits 10 n).length

def pointOf (num den : Nat) : Int :=
  if den ≤ num then (decimalLength (num / den) : Int)
  else
    let l := decimalLength (den / num)
    if den = num * 10 ^ (l - 1) then 2 - (l : Int) else 1 - (l : Int)

def Interval.admits (i : Interval) (d : Nat) (p : Int) : Bool :=
  let num := if 0 ≤ p then d * 10 ^ p.toNat * i.den else d * i.den
  let up := if 0 ≤ p then 1 else 10 ^ p.natAbs
  if i.closed then i.low * up ≤ num && num ≤ i.high * up else i.low * up < num && num < i.high * up

/-- The candidate with `n` digits: of the two neighbours on the grid of that many digits the nearer
one that reads back, and the even one of two equally near. -/
def Interval.candidate? (i : Interval) (point : Int) (n : Nat) : Option Nat :=
  let p := point - n
  let num := if 0 ≤ p then i.value else i.value * 10 ^ p.natAbs
  let den := if 0 ≤ p then i.den * 10 ^ p.toNat else i.den
  let d := num / den
  let r := num % den
  match i.admits d p, i.admits (d + 1) p with
  | false, false => none
  | true, false => some d
  | false, true => some (d + 1)
  | true, true =>
    if 2 * r < den then some d
    else if den < 2 * r then some (d + 1)
    else if d % 2 = 0 then some d else some (d + 1)

def trimZeros : Nat → Nat → Nat → Nat × Nat
  | 0, d, n => (d, n)
  | fuel + 1, d, n => if d % 10 = 0 ∧ 1 < n then trimZeros fuel (d / 10) (n - 1) else (d, n)

/-- The fewest digits that read back as the positive finite double `m * 2 ^ q`. -/
def shortest (m : Nat) (q : Int) : Digits :=
  let i := interval m q
  let point := pointOf i.value i.den
  let hit := (List.range 17).findSome? fun k => (i.candidate? point (k + 1)).map fun d => (d, k + 1)
  match hit with
  | none => ⟨0, 1, 0⟩
  | some (d, n) =>
    let carry := d = 10 ^ n
    let t := trimZeros 20 (if carry then 1 else d) (if carry then 1 else n)
    ⟨t.1, t.2, if carry then point + 1 else point⟩

def zeros (n : Nat) : String := String.ofList (List.replicate n '0')

def padLeft (width : Nat) (s : String) : String := zeros (width - s.length) ++ s

/-- Positional notation for exponents from -4 to 15, with at least one digit on each side of the
point; beyond that a mantissa and an exponent of at least two digits. -/
def layout (d : Digits) : String :=
  let text := padLeft d.count (toString d.digits)
  if d.point ≤ -4 ∨ 16 < d.point then
    let e := d.point - 1
    let first := (text.take 1).toString
    let rest := (text.drop 1).toString
    let mantissa := if rest.isEmpty then first else first ++ "." ++ rest
    let sign := if e < 0 then "-" else "+"
    mantissa ++ "e" ++ sign ++ padLeft 2 (toString e.natAbs)
  else if d.point ≤ 0 then "0." ++ zeros d.point.natAbs ++ text
  else if (d.count : Int) ≤ d.point then text ++ zeros (d.point.toNat - d.count) ++ ".0"
  else (text.take d.point.toNat).toString ++ "." ++ (text.drop d.point.toNat).toString

def showFinite (x : Float) : String :=
  let p := Binary.parts x
  let body := if p.mantissa = 0 then "0.0" else layout (shortest p.mantissa p.exponent)
  if p.negative then "-" ++ body else body

def «show» (x : Float) : String :=
  if x.isNaN then "nan"
  else if x.isInf then (if x < 0.0 then "-inf" else "inf")
  else showFinite x

def digitsValue (cs : List Char) : Nat := cs.foldl (fun n c => n * 10 + (c.toNat - '0'.toNat)) 0

def takeDigits (cs : List Char) : List Char × List Char := (cs.takeWhile Char.isDigit, cs.dropWhile Char.isDigit)

def takeSign : List Char → Bool × List Char
  | '-' :: cs => (true, cs)
  | '+' :: cs => (false, cs)
  | cs => (false, cs)

def readExponent? : List Char → Option Int
  | [] => some 0
  | c :: cs =>
    if c = 'e' ∨ c = 'E' then
      let (neg, rest) := takeSign cs
      let (ds, rest) := takeDigits rest
      if ds.isEmpty ∨ !rest.isEmpty then none
      else some (if neg then -(digitsValue ds : Int) else digitsValue ds)
    else none

def ofDecimal (m : Nat) (e : Int) : Float :=
  if m = 0 then 0.0
  else if 400 < e + (decimalLength m : Int) then Binary.infinity false
  else if e + (decimalLength m : Int) < -400 then 0.0
  else Float.ofScientific m (e < 0) e.natAbs

def readUnsigned? (cs : List Char) : Option Float :=
  let (whole, rest) := takeDigits cs
  match rest with
  | '.' :: more =>
    let (frac, rest) := takeDigits more
    if whole.isEmpty ∧ frac.isEmpty then none
    else (readExponent? rest).map fun e => ofDecimal (digitsValue (whole ++ frac)) (e - frac.length)
  | _ => if whole.isEmpty then none else (readExponent? rest).map fun e => ofDecimal (digitsValue whole) e

def read? (s : String) : Option Float :=
  let (neg, cs) := takeSign s.toList
  let word := String.ofList (cs.map Char.toLower)
  let magnitude :=
    if word = "inf" ∨ word = "infinity" then some (Binary.infinity false)
    else if word = "nan" then some Binary.nan
    else readUnsigned? cs
  magnitude.map fun x => if neg then -x else x

def readInt? (s : String) : Option Int :=
  let (neg, cs) := takeSign s.toList
  if cs.isEmpty ∨ !cs.all Char.isDigit then none
  else some (if neg then -(digitsValue cs : Int) else digitsValue cs)

end ScriptCore.Decimal
