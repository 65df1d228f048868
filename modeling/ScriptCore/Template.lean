import ScriptCore.Data
import ScriptCore.Host.CoreClass
import ScriptCore.Text.Lines

namespace ScriptCore.Template

/-- What a template can be wrong in: the end of a section that is not the one open, or too few
delimiters. What is no text stands for a file that belongs to its class, and there are no files. -/
inductive Fault where
  | mismatch (closing : String) (opened : Option String)
  | delimiters
  | noFile (cls : String)

/-- The name of the file for a class: small letters, with a line before each that was a capital; the
first sign is left out. -/
def fileName (cls : String) : String :=
  let signs := cls.toList.flatMap fun c => if c.isUpper then ['_', c.toLower] else [c]
  String.ofList (signs.drop 1) ++ ".mustache"

def Fault.error : Fault → HostError
  | .mismatch closing opened =>
    ⟨.templateError, "Section end tag mismatch: " ++ closing ++ " != " ++ opened.getD "None"⟩
  | .delimiters => ⟨.indexError, "list index out of range"⟩
  | .noFile cls =>
    ⟨.templateNotFoundError, "File " ++ Quoted.quote (fileName cls) ++ " not found in dirs: ['.']"⟩

structure Tag where
  kind : Option Char
  key : List Char

inductive Piece where
  | text (s : String)
  | value (name : String)
  | block (name : String) (inverted : Bool) (body : List Piece)

def after? : List Char → List Char → Option (List Char)
  | [], cs => some cs
  | p :: ps, c :: cs => if p = c then after? ps cs else none
  | _ :: _, [] => none

variable {α : Type}

def most (p : Char → Bool) (go : List Char → Option α) : List Char → Option α
  | [] => go []
  | c :: cs =>
    match if p c then most p go cs else none with
    | some a => some a
    | none => go (c :: cs)

def fewest (p : Char → Bool) (go : List Char → List Char → Option α) (taken : List Char) : List Char → Option α
  | [] => none
  | c :: cs =>
    if p c then
      match go (c :: taken).reverse cs with
      | some a => some a
      | none => fewest p go (c :: taken) cs
    else none

def skipBlanks : (List Char → Option α) → List Char → Option α := most Lines.isBlank

def onLine (c : Char) : Bool := c ≠ '\n'

def keyed (p : Char → Bool) (kind : Option Char) (close : List Char → Option (List Char)) :
    List Char → Option (Tag × List Char) :=
  skipBlanks (fewest p (fun key rest => (skipBlanks close rest).map fun left => (⟨kind, key⟩, left)) [])

def signed (kind closing : Char) (close : List Char → Option (List Char)) :
    List Char → Option (Tag × List Char) :=
  keyed onLine (some kind) fun cs => (after? [closing] cs).bind (skipBlanks close)

def signs : List Char := ['!', '>', '&', '/', '#', '^']

/-- The tag that stands after an opening delimiter and blanks. The first reading that reaches the
closing delimiter is taken: new delimiters between equals signs, a name between braces on one line,
a sign and a key, or a key alone. -/
def readTag? (close : List Char → Option (List Char)) (cs : List Char) : Option (Tag × List Char) :=
  let own :=
    match cs with
    | [] => none
    | c :: rest =>
      if c = '=' then signed '=' '=' close rest
      else if c = '\x7b' then signed '&' '\x7d' close rest
      else if signs.contains c then keyed (fun _ => true) (some c) close rest
      else none
  match own with
  | some r => some r
  | none => keyed (fun _ => true) none close cs

/-- A tag found in a text: what stands before it, the blanks directly before it, the tag, and the
rest. -/
structure Found where
  before : List Char
  blanks : List Char
  tag : Tag
  rest : List Char

def isSpaceOrTab (c : Char) : Bool := c = ' ' || c = '\t'

def find? (opening closing : List Char) : List Char → List Char → Option Found
  | _, [] => none
  | acc, c :: cs =>
    match (after? opening (c :: cs)).bind (skipBlanks (readTag? (after? closing))) with
    | some (tag, rest) =>
      let blanks := acc.takeWhile isSpaceOrTab
      some { before := (acc.drop blanks.length).reverse, blanks := blanks.reverse, tag, rest }
    | none => find? opening closing (c :: acc) cs

def isLineEnd (c : Char) : Bool := c = '\r' || c = '\n'

def endsLine : List Char → Bool
  | [] => true
  | c :: _ => isLineEnd c

def dropLineEnd : List Char → List Char
  | '\r' :: '\n' :: cs => cs
  | '\r' :: cs => cs
  | '\n' :: cs => cs
  | cs => cs

def Tag.interpolates (t : Tag) : Bool := t.kind = none || t.kind = some '&'

structure Open where
  name : String
  inverted : Bool
  pieces : List Piece

def addText (s : List Char) (pieces : List Piece) : List Piece :=
  if s.isEmpty then pieces else .text (String.ofList s) :: pieces

/-- Where the reading of a template stands: the delimiters, whether a line starts here, the open
sections, innermost first, and the pieces of the innermost one, in reverse. -/
structure Reading where
  opening : List Char
  closing : List Char
  lineStart : Bool
  opened : List Open
  pieces : List Piece

def Reading.take (r : Reading) (t : Tag) : Except Fault Reading :=
  let key := String.ofList t.key
  match t.kind with
  | none | some '&' => .ok { r with pieces := .value key :: r.pieces }
  | some '#' => .ok { r with opened := ⟨key, false, r.pieces⟩ :: r.opened, pieces := [] }
  | some '^' => .ok { r with opened := ⟨key, true, r.pieces⟩ :: r.opened, pieces := [] }
  | some '/' =>
    match r.opened with
    | [] => .error (.mismatch key none)
    | o :: outer =>
      if o.name = key then
        .ok { r with opened := outer, pieces := .block key o.inverted r.pieces.reverse :: o.pieces }
      else .error (.mismatch key (some o.name))
  | some '=' =>
    match Lines.words key with
    | a :: b :: _ => .ok { r with opening := a.toList, closing := b.toList }
    | _ => .error .delimiters
  | some _ => .ok r

/-- Reads the pieces of a template. A tag other than a variable that stands alone on its line takes
the line with it. What follows the opening of a section that is never closed stands for the whole.
-/
def parse : Nat → Reading → List Char → Except Fault (List Piece)
  | 0, r, _ => .ok r.pieces.reverse
  | fuel + 1, r, cs =>
    match find? r.opening r.closing [] cs with
    | none => .ok (addText cs r.pieces).reverse
    | some f =>
      let begins :=
        match f.before.getLast? with
        | none => r.lineStart
        | some c => isLineEnd c
      let alone := begins && endsLine f.rest && !f.tag.interpolates
      let pieces := addText (if alone then f.before else f.before ++ f.blanks) r.pieces
      let rest := if alone then dropLineEnd f.rest else f.rest
      match { r with pieces, lineStart := alone && rest.length < f.rest.length }.take f.tag with
      | .error e => .error e
      | .ok next => parse fuel next rest

def lookupSimple (stack : List Data) (name : String) : Option Data := stack.findSome? fun d => d.field? name

def lookupRest : Data → List String → Option Data
  | d, [] => some d
  | d, p :: ps => (d.field? p).bind fun e => lookupRest e ps

/-- The value of a dotted name; a single dot is the innermost value. A missing name is the empty
text. -/
def lookup (stack : List Data) (name : String) : Data :=
  if name = "." then stack.headD (.str "")
  else
    match name.splitOn "." with
    | [] => .str ""
    | p :: ps => ((lookupSimple stack p).bind fun d => lookupRest d ps).getD (.str "")

def sectionItems (d : Data) : List Data :=
  if !d.truth then []
  else
    match d with
    | .list l => l
    | d => [d]

mutual

def renderPiece (stack : List Data) : Piece → String
  | .text s => s
  | .value n => (lookup stack n).text
  | .block n inverted body =>
    let d := lookup stack n
    if inverted then (if d.truth then "" else renderPieces stack body)
    else String.join ((sectionItems d).map fun item => renderPieces (item :: stack) body)

def renderPieces (stack : List Data) : List Piece → String
  | [] => ""
  | p :: ps => renderPiece stack p ++ renderPieces stack ps

end

def render (template : String) (context : Data) : Except Fault String :=
  let cs := template.toList
  (parse (cs.length + 1) ⟨['\x7b', '\x7b'], ['\x7d', '\x7d'], true, [], []⟩ cs).map (renderPieces [context])

def renderData (template context : Data) : Except Fault String :=
  match template with
  | .str s => render s context
  | d => .error (.noFile d.className)

end ScriptCore.Template
