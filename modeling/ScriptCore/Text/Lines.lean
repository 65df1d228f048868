namespace ScriptCore.Lines

def isBreak (c : Char) : Bool :=
  c = '\n' || c = '\r' || c.toNat = 0x0b || c.toNat = 0x0c || (0x1c ≤ c.toNat && c.toNat ≤ 0x1e) ||
    c.toNat = 0x85 || c.toNat = 0x2028 || c.toNat = 0x2029

def splitAux : List Char → List Char → List String
  | [], [] => []
  | [], acc => [String.ofList acc.reverse]
  | '\r' :: '\n' :: rest, acc => String.ofList acc.reverse :: splitAux rest []
  | c :: rest, acc =>
    if isBreak c then String.ofList acc.reverse :: splitAux rest [] else splitAux rest (c :: acc)

def split (s : String) : List String := splitAux s.toList []

def isBlank (c : Char) : Bool :=
  let n := c.toNat
  n = 0x20 || (0x09 ≤ n && n ≤ 0x0d) || (0x1c ≤ n && n ≤ 0x1f) || n = 0x85 || n = 0xa0 || n = 0x1680 ||
    (0x2000 ≤ n && n ≤ 0x200a) || n = 0x2028 || n = 0x2029 || n = 0x202f || n = 0x205f || n = 0x3000

def trimBy (p : Char → Bool) (cs : List Char) : List Char :=
  ((cs.dropWhile p).reverse.dropWhile p).reverse

def wordsAux : List Char → List Char → List String
  | [], [] => []
  | [], acc => [String.ofList acc.reverse]
  | c :: rest, [] => if isBlank c then wordsAux rest [] else wordsAux rest [c]
  | c :: rest, acc => if isBlank c then String.ofList acc.reverse :: wordsAux rest [] else wordsAux rest (c :: acc)

def words (s : String) : List String := wordsAux s.toList []

end ScriptCore.Lines
