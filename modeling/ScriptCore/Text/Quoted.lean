import ScriptCore.Text.Printable

namespace ScriptCore.Quoted

/-- A double quote is used only when the text holds a single quote and no double one. -/
def quoteFor (s : List Char) : Char := if s.contains '\'' && !s.contains '"' then '"' else '\''

def hexDigits (width n : Nat) : List Char :=
  let ds := Nat.toDigits 16 n
  List.replicate (width - ds.length) '0' ++ ds

def hexEscape (n : Nat) : List Char :=
  if n < 0x100 then '\\' :: 'x' :: hexDigits 2 n
  else if n < 0x10000 then '\\' :: 'u' :: hexDigits 4 n
  else '\\' :: 'U' :: hexDigits 8 n

def escapeChar (quote : Char) (c : Char) : List Char :=
  if c = quote ∨ c = '\\' then ['\\', c]
  else if c = '\n' then ['\\', 'n']
  else if c = '\r' then ['\\', 'r']
  else if c = '\t' then ['\\', 't']
  else if Printable.isPrintable c.toNat then [c]
  else hexEscape c.toNat

def quote (s : String) : String :=
  let cs := s.toList
  let q := quoteFor cs
  String.ofList (q :: cs.flatMap (escapeChar q) ++ [q])

def quoteBytes (bytes : List Nat) : String :=
  let cs := bytes.map Char.ofNat
  let q := quoteFor cs
  let shown := cs.flatMap fun c => if 127 ≤ c.toNat then hexEscape c.toNat else escapeChar q c
  "b" ++ String.ofList (q :: shown ++ [q])

end ScriptCore.Quoted
