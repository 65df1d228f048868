import ScriptCore.Data

namespace ScriptCore.Data.Json

def hexDigit (n : Nat) : Char := "0123456789abcdef".toList.getD n '0'

def escapeChar (c : Char) : List Char :=
  if c = '"' then ['\\', '"']
  else if c = '\\' then ['\\', '\\']
  else if c.toNat < 32 || c.toNat = 127 then
    ['\\', 'u', '0', '0', hexDigit (c.toNat / 16), hexDigit (c.toNat % 16)]
  else [c]

def quote (s : String) : String := "\"" ++ String.ofList (s.toList.flatMap escapeChar) ++ "\""

mutual

def write : Data → String
  | null => "null"
  | bool b => if b then "true" else "false"
  | int n => toString n
  | float x => Decimal.show x
  | str s => quote s
  | list l => "[" ++ ",".intercalate (writeAll l) ++ "]"
  | object fields => "\x7b" ++ ",".intercalate (writeFields fields) ++ "\x7d"

def writeAll : List Data → List String
  | [] => []
  | d :: rest => write d :: writeAll rest

def writeFields : List (String × Data) → List String
  | [] => []
  | (k, v) :: rest => (quote k ++ ":" ++ write v) :: writeFields rest

end

def isBlank (c : Char) : Bool := c = ' ' || c = '\n' || c = '\t' || c = '\r'

def skip (cs : List Char) : List Char := cs.dropWhile isBlank

def hexValue? (c : Char) : Option Nat :=
  if '0' ≤ c ∧ c ≤ '9' then some (c.toNat - '0'.toNat)
  else if 'a' ≤ c ∧ c ≤ 'f' then some (c.toNat - 'a'.toNat + 10)
  else if 'A' ≤ c ∧ c ≤ 'F' then some (c.toNat - 'A'.toNat + 10)
  else none

def readUnit? : List Char → Option (Nat × List Char)
  | a :: b :: c :: d :: rest => do
    let a ← hexValue? a
    let b ← hexValue? b
    let c ← hexValue? c
    let d ← hexValue? d
    some (((a * 16 + b) * 16 + c) * 16 + d, rest)
  | _ => none

def readEscapedUnit? (cs : List Char) : Option (Char × List Char) := do
  let (hi, rest) ← readUnit? cs
  if 0xD800 ≤ hi ∧ hi < 0xDC00 then
    match rest with
    | '\\' :: 'u' :: more =>
      let (lo, rest') ← readUnit? more
      if 0xDC00 ≤ lo ∧ lo < 0xE000 then
        some (Char.ofNat (0x10000 + (hi - 0xD800) * 0x400 + (lo - 0xDC00)), rest')
      else some ('�', rest)
    | _ => some ('�', rest)
  else if 0xDC00 ≤ hi ∧ hi < 0xE000 then some ('�', rest)
  else some (Char.ofNat hi, rest)

def readText? : Nat → List Char → List Char → Option (String × List Char)
  | 0, _, _ => none
  | _ + 1, _, [] => none
  | fuel + 1, acc, c :: rest =>
    if c = '"' then some (String.ofList acc.reverse, rest)
    else if c = '\\' then
      match rest with
      | 'n' :: more => readText? fuel ('\n' :: acc) more
      | 't' :: more => readText? fuel ('\t' :: acc) more
      | 'r' :: more => readText? fuel ('\r' :: acc) more
      | 'b' :: more => readText? fuel ('\x08' :: acc) more
      | 'f' :: more => readText? fuel ('\x0c' :: acc) more
      | 'u' :: more =>
        match readEscapedUnit? more with
        | some (c, more') => readText? fuel (c :: acc) more'
        | none => none
      | e :: more => readText? fuel (e :: acc) more
      | [] => none
    else readText? fuel (c :: acc) rest

def isNumberChar (c : Char) : Bool := c.isDigit || c = '-' || c = '+' || c = '.' || c = 'e' || c = 'E'

def number? (s : String) : Option Data :=
  match Decimal.readInt? s with
  | some n => some (int n)
  | none => (Decimal.read? s).map float

def word? (cs : List Char) : Option (Data × List Char) :=
  match cs with
  | 't' :: 'r' :: 'u' :: 'e' :: rest => some (bool true, rest)
  | 'f' :: 'a' :: 'l' :: 's' :: 'e' :: rest => some (bool false, rest)
  | 'n' :: 'u' :: 'l' :: 'l' :: rest => some (null, rest)
  | 'N' :: 'a' :: 'N' :: rest => some (float Binary.nan, rest)
  | 'I' :: 'n' :: 'f' :: 'i' :: 'n' :: 'i' :: 't' :: 'y' :: rest => some (float (Binary.infinity false), rest)
  | '-' :: 'I' :: 'n' :: 'f' :: 'i' :: 'n' :: 'i' :: 't' :: 'y' :: rest => some (float (Binary.infinity true), rest)
  | cs =>
    let digits := cs.takeWhile isNumberChar
    (number? (String.ofList digits)).map fun d => (d, cs.drop digits.length)

def settle (done : List (String × Data)) : List (String × Data) → List (String × Data)
  | [] => done
  | (k, v) :: rest =>
    if done.any fun e => e.1 == k then settle (done.map fun e => if e.1 = k then (k, v) else e) rest
    else settle (done ++ [(k, v)]) rest

mutual

def value? : Nat → List Char → Option (Data × List Char)
  | 0, _ => none
  | fuel + 1, cs =>
    match skip cs with
    | '"' :: rest => (readText? (rest.length + 1) [] rest).map fun r => (str r.1, r.2)
    | '[' :: rest =>
      match skip rest with
      | ']' :: more => some (list [], more)
      | _ => (elements? fuel rest).map fun r => (list r.1, r.2)
    | '\x7b' :: rest =>
      match skip rest with
      | '\x7d' :: more => some (object [], more)
      | _ => (fields? fuel rest).map fun r => (object (settle [] r.1), r.2)
    | cs => word? cs

def elements? : Nat → List Char → Option (List Data × List Char)
  | 0, _ => none
  | fuel + 1, cs =>
    match value? fuel cs with
    | none => none
    | some (d, rest) =>
      match skip rest with
      | ',' :: more => (elements? fuel more).map fun r => (d :: r.1, r.2)
      | ']' :: more => some ([d], more)
      | _ => none

def fields? : Nat → List Char → Option (List (String × Data) × List Char)
  | 0, _ => none
  | fuel + 1, cs =>
    match skip cs with
    | '"' :: rest =>
      match readText? (rest.length + 1) [] rest with
      | none => none
      | some (k, rest) =>
        match skip rest with
        | ':' :: more =>
          match value? fuel more with
          | none => none
          | some (d, rest) =>
            match skip rest with
            | ',' :: more => (fields? fuel more).map fun r => ((k, d) :: r.1, r.2)
            | '\x7d' :: more => some ([(k, d)], more)
            | _ => none
        | _ => none
    | _ => none

end

def read? (s : String) : Option Data :=
  let cs := s.toList
  match value? (cs.length + 1) cs with
  | some (d, rest) => if (skip rest).isEmpty then some d else none
  | none => none

end ScriptCore.Data.Json
