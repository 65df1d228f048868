import ScriptCore.Host.CoreClass

namespace ScriptCore.Yaml

inductive Fault where
  | malformed
  | raised (e : HostError)

def nul : Char := '\x00'

def isBreak (c : Char) : Bool :=
  c = '\r' || c = '\n' || c.toNat = 0x85 || c.toNat = 0x2028 || c.toNat = 0x2029

def endsLine (c : Char) : Bool := c = nul || isBreak c

def endsWord (c : Char) : Bool := c = ' ' || c = '\t' || endsLine c

def isPrintable (c : Char) : Bool :=
  let n := c.toNat
  n = 9 || n = 10 || n = 13 || (0x20 ≤ n && n ≤ 0x7E) || n = 0x85 || (0xA0 ≤ n && n ≤ 0xD7FF) ||
    (0xE000 ≤ n && n ≤ 0xFFFD) || 0x10000 ≤ n

def byteOrderMark : Char := Char.ofNat 0xFEFF

structure Spot where
  rest : List Char
  index : Nat := 0
  line : Nat := 0
  column : Nat := 0

namespace Spot

variable (s : Spot)

def peek : Char := s.rest.headD nul

def ahead (n : Nat) : Char := (s.rest.drop n).headD nul

def next : Spot :=
  match s.rest with
  | [] => s
  | c :: cs =>
    if isBreak c && (c ≠ '\r' || cs.head? ≠ some '\n') then ⟨cs, s.index + 1, s.line + 1, 0⟩
    else if c = byteOrderMark then ⟨cs, s.index + 1, s.line, s.column⟩
    else ⟨cs, s.index + 1, s.line, s.column + 1⟩

def forward : Nat → Spot → Spot
  | 0, s => s
  | n + 1, s => forward n s.next

def takeWhile (p : Char → Bool) (s : Spot) : List Char × Spot :=
  let cs := s.rest.takeWhile p
  (cs, s.forward cs.length)

def skipWhile (p : Char → Bool) (s : Spot) : Spot := (s.takeWhile p).2

def skipTo (column : Nat) (s : Spot) : Spot := s.forward ((s.rest.take (column - s.column)).takeWhile (· = ' ')).length

/-- Takes the end of a line. Separators of lines and paragraphs stay; every other end counts as a
line feed. -/
def lineBreak : List Char × Spot :=
  match s.rest with
  | '\r' :: '\n' :: _ => (['\n'], s.forward 2)
  | c :: _ =>
    if c.toNat = 0x2028 || c.toNat = 0x2029 then ([c], s.next)
    else if isBreak c then (['\n'], s.next) else ([], s)
  | [] => ([], s)

def atSeparator : Bool :=
  let three := s.rest.take 3
  (three = ['-', '-', '-'] || three = ['.', '.', '.']) && endsWord (s.ahead 3)

def skipComment : Spot := if s.peek = '#' then s.skipWhile (fun c => !endsLine c) else s

def restOfLine : Except Fault Spot :=
  let t := (s.skipWhile (· = ' ')).skipComment
  if endsLine t.peek then .ok t.lineBreak.2 else .error .malformed

end Spot

end ScriptCore.Yaml
