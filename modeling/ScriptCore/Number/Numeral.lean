import ScriptCore.Number.Decimal
import ScriptCore.Text.Lines

namespace ScriptCore.Numeral

def zeros : List Nat :=
  [
    0x30, 0x660, 0x6F0, 0x7C0, 0x966, 0x9E6, 0xA66, 0xAE6, 0xB66, 0xBE6, 0xC66, 0xCE6, 0xD66, 0xDE6, 0xE50, 0xED0,
    0xF20, 0x1040, 0x1090, 0x17E0, 0x1810, 0x1946, 0x19D0, 0x1A80, 0x1A90, 0x1B50, 0x1BB0, 0x1C40, 0x1C50, 0xA620,
    0xA8D0, 0xA900, 0xA9D0, 0xA9F0, 0xAA50, 0xABF0, 0xFF10, 0x104A0, 0x10D30, 0x11066, 0x110F0, 0x11136, 0x111D0,
    0x112F0, 0x11450, 0x114D0, 0x11650, 0x116C0, 0x11730, 0x118E0, 0x11950, 0x11C50, 0x11D50, 0x11DA0, 0x16A60,
    0x16AC0, 0x16B50, 0x1D7CE, 0x1D7D8, 0x1D7E2, 0x1D7EC, 0x1D7F6, 0x1E140, 0x1E2F0, 0x1E950, 0x1FBF0]

def digit? (c : Char) : Option Nat :=
  if c.toNat < 128 then (if c.isDigit then some (c.toNat - '0'.toNat) else none)
  else (zeros.find? fun z => decide (z ≤ c.toNat) && decide (c.toNat < z + 10)).map fun z => c.toNat - z

def isMargin (c : Char) : Bool := Lines.isBlank c && !(0x1c ≤ c.toNat && c.toNat ≤ 0x1f)

def plainDigit (c : Char) : Char :=
  match digit? c with
  | some d => Char.ofNat ('0'.toNat + d)
  | none => c

def plain (s : String) : List Char := (Lines.trimBy isMargin s.toList).map plainDigit

/-- Removes the underscores, each of which must stand between two digits; `before` tells whether a
digit came last. -/
def joinDigits? : Bool → List Char → Option (List Char)
  | _, [] => some []
  | before, '_' :: c :: cs => if before && c.isDigit then (joinDigits? true cs).map (c :: ·) else none
  | _, c :: cs => if c = '_' then none else (joinDigits? c.isDigit cs).map (c :: ·)

def real? (s : String) : Option Float := (joinDigits? false (plain s)).bind fun cs => Decimal.read? (String.ofList cs)

def digitIn? (base : Nat) (c : Char) : Option Nat :=
  let d :=
    if c.isDigit then c.toNat - '0'.toNat
    else if c.isAlpha then c.toLower.toNat - 'a'.toNat + 10 else base
  if d < base then some d else none

def digitsIn? (base : Nat) : Bool → Nat → List Char → Option Nat
  | before, n, [] => if before then some n else none
  | before, n, c :: cs =>
    if c = '_' then (if before then digitsIn? base false n cs else none)
    else (digitIn? base c).bind fun d => digitsIn? base true (n * base + d) cs

def announced? : List Char → Option Nat
  | '0' :: c :: _ =>
    if c = 'x' ∨ c = 'X' then some 16
    else if c = 'o' ∨ c = 'O' then some 8
    else if c = 'b' ∨ c = 'B' then some 2 else none
  | _ => none

def afterLead (cs : List Char) : List Char :=
  match cs.drop 2 with
  | '_' :: rest => rest
  | rest => rest

def natural? (base : Nat) (cs : List Char) : Option Nat :=
  match announced? cs with
  | some b =>
    if base = 0 ∨ base = b then digitsIn? b false 0 (afterLead cs) else digitsIn? base false 0 cs
  | none =>
    if base = 0 then
      (digitsIn? 10 false 0 cs).bind fun n => if n ≠ 0 ∧ cs.head? = some '0' then none else some n
    else digitsIn? base false 0 cs

def integer? (base : Nat) (s : String) : Option Int :=
  let (negative, cs) := Decimal.takeSign (plain s)
  (natural? base cs).map fun n => if negative then -(n : Int) else n

end ScriptCore.Numeral
