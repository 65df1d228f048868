namespace ScriptCore.Path

variable (s : String)

def isCompound : Bool := s.toList.contains '.'

def split : List Char → List (List Char)
  | [] => [[]]
  | c :: cs =>
    if c = '.' then [] :: split cs
    else
      match split cs with
      | [] => [[c]]
      | part :: rest => (c :: part) :: rest

def segments : List String := (split s.toList).map String.ofList

def join (l : List String) : String := ".".intercalate l

def count : Nat := if s.isEmpty then 0 else (segments s).length

def leading? (n : Int) : Option String := if n < 1 then none else some (join ((segments s).take n.toNat))

def trailing? (n : Int) : Option String :=
  if n < 1 then none else some (join ((segments s).drop ((segments s).length - n.toNat)))

def owner? : Option String := if isCompound s then leading? s (count s - 1) else none

def last : String := (segments s).getLastD s

def isLetter (c : Char) : Bool := c.isAlpha || c = '_' || c.toNat ≥ 128

def isIdentifier : Bool :=
  match s.toList with
  | [] => false
  | c :: cs => isLetter c && cs.all fun d => isLetter d || d.isDigit

end ScriptCore.Path
