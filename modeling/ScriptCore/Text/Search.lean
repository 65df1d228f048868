import ScriptCore.Text.Lines

namespace ScriptCore.Search

def position? (piece : List Char) : List Char → Option Nat
  | [] => if piece.isEmpty then some 0 else none
  | c :: cs => if piece.isPrefixOf (c :: cs) then some 0 else (position? piece cs).map (· + 1)

/-- The number of places, none within another, at which a piece of at least one character stands.
The next `skip` characters belong to the last place. -/
def countAux (piece : List Char) : Nat → List Char → Nat
  | _, [] => 0
  | skip + 1, _ :: cs => countAux piece skip cs
  | 0, c :: cs =>
    if piece.isPrefixOf (c :: cs) then countAux piece (piece.length - 1) cs + 1 else countAux piece 0 cs

def count (piece text : List Char) : Nat :=
  if piece.isEmpty then text.length + 1 else countAux piece 0 text

def replaceAux (piece new : List Char) : Nat → Nat → List Char → List Char
  | _, _, [] => []
  | limit, skip + 1, _ :: cs => replaceAux piece new limit skip cs
  | 0, 0, cs => cs
  | limit + 1, 0, c :: cs =>
    if piece.isPrefixOf (c :: cs) then new ++ replaceAux piece new limit (piece.length - 1) cs
    else c :: replaceAux piece new (limit + 1) 0 cs

/-- Puts `new` before each of the first `limit` characters, and at the end if the limit is not
reached. -/
def intersperse (new : List Char) : Nat → List Char → List Char
  | 0, cs => cs
  | _ + 1, [] => new
  | limit + 1, c :: cs => new ++ c :: intersperse new limit cs

def replace (piece new : List Char) (limit : Nat) (text : List Char) : List Char :=
  if piece.isEmpty then intersperse new limit text else replaceAux piece new limit 0 text

/-- The parts between the first `limit` places of a piece of at least one character; `part` is the
current one, last character first. -/
def splitAux (piece : List Char) : Nat → Nat → List Char → List Char → List (List Char)
  | _, _, part, [] => [part.reverse]
  | limit, skip + 1, part, _ :: cs => splitAux piece limit skip part cs
  | 0, 0, part, cs => [part.reverse ++ cs]
  | limit + 1, 0, part, c :: cs =>
    if piece.isPrefixOf (c :: cs) then part.reverse :: splitAux piece limit (piece.length - 1) [] cs
    else splitAux piece (limit + 1) 0 (c :: part) cs

def splitAt (piece : List Char) (limit : Nat) (text : List Char) : List (List Char) := splitAux piece limit 0 [] text

def words : Nat → List Char → List Char → List (List Char)
  | _, [], [] => []
  | _, part, [] => [part.reverse]
  | 0, [], c :: cs => if Lines.isBlank c then words 0 [] cs else [c :: cs]
  | limit + 1, [], c :: cs => if Lines.isBlank c then words (limit + 1) [] cs else words (limit + 1) [c] cs
  | limit, part, c :: cs =>
    if Lines.isBlank c then part.reverse :: words (limit - 1) [] cs else words limit (c :: part) cs

/-- The part of a text of `size` characters between two positions; negative ones count from the end.
There is none if it would end before it starts. -/
def bounds? (size : Nat) (start stop : Option Int) : Option (Nat × Nat) :=
  let low : Int :=
    match start with
    | none => 0
    | some n => if n < 0 then max 0 (n + size) else n
  let high : Int :=
    match stop with
    | none => size
    | some n => if n < 0 then max 0 (n + size) else min n size
  if low ≤ high then some (low.toNat, high.toNat) else none

def slice (b : Nat × Nat) (text : List Char) : List Char := (text.take b.2).drop b.1

end ScriptCore.Search
