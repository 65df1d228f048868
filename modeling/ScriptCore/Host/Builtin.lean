import ScriptCore.Host.Access
import ScriptCore.Host.Equality
import ScriptCore.Host.Iteration
import ScriptCore.Text.Case
import ScriptCore.Text.Search

namespace ScriptCore.Evaluator

def textExpected {α : Type} (message : String) (v : Value) : Plain α := Run.refuse message v ""

def textArgument (message : String) (v : Value) : Plain String := do
  let w ← Run.get
  match w.text? v, v with
  | some s, _ => pure s
  | none, .none => Run.typeError (message ++ "None")
  | none, v => textExpected message v

variable (ev : Evaluator) (text : List Char)

def searchBounds (rest : List Value) : ev.Host (Option (Nat × Nat)) := do
  let start ← ev.sliceIndex rest[0]?
  let stop ← ev.sliceIndex rest[1]?
  pure (Search.bounds? text.length start stop)

def searchArguments (name : String) (text : List Char) (args : List Value) :
    ev.Host (List Char × Option (Nat × Nat)) := do
  Run.takesArgs name 1 3 args.length
  let bounds ← ev.searchBounds text args.tail
  let w ← Run.get
  let v := args.headD .none
  match w.text? v with
  | some piece => pure (piece.toList, bounds)
  | none => textExpected "must be str, not " v

def findText (name : String) (text : List Char) (args : List Value) : ev.Host (Option Nat) := do
  let (piece, bounds) ← ev.searchArguments name text args
  pure (bounds.bind fun b => (Search.position? piece (Search.slice b text)).map (· + b.1))

def startsWithAny (starts : String → Bool) : List Value → Plain Bool
  | [] => pure false
  | v :: rest => do
    let w ← Run.get
    match w.text? v with
    | some piece => if starts piece then pure true else startsWithAny starts rest
    | none => textExpected "tuple for startswith must only contain str, not " v

def startsWith (args : List Value) : ev.Host Value := do
  Run.takesArgs "startswith" 1 3 args.length
  let bounds ← ev.searchBounds text args.tail
  let w ← Run.get
  let starts := fun (piece : String) =>
    match bounds with
    | none => false
    | some b => piece.toList.isPrefixOf (Search.slice b text)
  let v := args.headD .none
  match w.text? v, w.payload? v with
  | some piece, _ => pure (.bool (starts piece))
  | none, some (.tuple items) => Value.bool <$> startsWithAny starts items
  | none, _ => textExpected "startswith first arg must be str or a tuple of str, not " v

def joinWith (glue : String) (args : List Value) : ev.Host Value := do
  Run.takesArgs "str.join" 1 1 args.length
  let v := args.headD .none
  let c ← Action.catching (ev.cursorOf v) fun w e =>
    if Run.isFailureOf w e .typeError then some (Run.typeError "can only join an iterable") else none
  let drained ← ev.drain ev.fuel c
  let items ← Run.read fun w => if w.isArray v then drained.map Value.unwrap else drained
  let w ← Run.get
  let parts ← collect ((List.range items.length).zip items) fun e =>
    match w.text? e.2 with
    | some s => pure s
    | none => Run.refuse ("sequence item " ++ toString e.1 ++ ": expected str instance, ") e.2 " found"
  match items with
  | [.str s m] => pure (.str s m)
  | _ => Run.computed (glue.intercalate parts)

def limitOf (size : Nat) (v : Option Value) : ev.Host Nat :=
  match v with
  | none => pure (size + 1)
  | some v => do
    let n ← ev.sizeIndex v
    pure (if n < 0 then size + 1 else n.toNat)

def replaceText (args : List Value) : ev.Host Value := do
  Run.expectArgs "replace" 2 3 args.length
  let piece ← textArgument "replace() argument 1 must be str, not " (args.headD .none)
  let new ← textArgument "replace() argument 2 must be str, not " (args[1]?.getD .none)
  let limit ← ev.limitOf text.length args[2]?
  Run.computed (String.ofList (Search.replace piece.toList new.toList limit text))

def textList (parts : List (List Char)) : Plain Value := do
  let items ← collect parts fun p => Run.computed (String.ofList p)
  Run.newList items

def splitText (args : List Value) : ev.Host Value := do
  Run.takesArgs "split" 0 2 args.length
  let limit ← ev.limitOf text.length args[1]?
  let w ← Run.get
  match args.headD .none with
  | .none => textList (Search.words limit [] text)
  | v =>
    match w.text? v with
    | some piece =>
      if piece.isEmpty then Run.raise ⟨.valueError, "empty separator"⟩
      else textList (Search.splitAt piece.toList limit text)
    | none => textExpected "must be str or None, not " v

def stripText (args : List Value) : Plain Value := do
  Run.expectArgs "strip" 0 1 args.length
  let w ← Run.get
  match args.headD .none with
  | .none => Run.computed (String.ofList (Lines.trimBy Lines.isBlank text))
  | v =>
    match w.text? v with
    | some chars => Run.computed (String.ofList (Lines.trimBy (fun c => chars.toList.contains c) text))
    | none => Run.typeError "strip arg must be None or str"

def textMethod (s name : String) (args : List Value) : ev.Host Value := do
  let text := s.toList
  match name with
  | "find" => do
    let p ← ev.findText name text args
    pure (.int ((p.map Int.ofNat).getD (-1)))
  | "index" => do
    match ← ev.findText name text args with
    | some n => pure (.int n)
    | none => Run.raise ⟨.valueError, "substring not found"⟩
  | "count" => do
    let (piece, bounds) ← ev.searchArguments name text args
    pure (.int ((bounds.map fun b => Search.count piece (Search.slice b text)).getD 0 : Nat))
  | "startswith" => ev.startsWith text args
  | "join" => ev.joinWith s args
  | "replace" => ev.replaceText text args
  | "split" => ev.splitText text args
  | "strip" => stripText text args
  | name => do
    Run.takesArgs ("str." ++ name) 0 0 args.length
    match name with
    | "isdigit" => pure (.bool (!text.isEmpty && text.all Case.isDigit))
    | "lower" => Run.computed (Case.lower s)
    | _ => Run.computed (Case.upper s)

def clamped (size : Nat) (n : Int) : Nat := (if n < 0 then max 0 (n + size) else min n size).toNat

def extendBy (ev : Evaluator) (i : ObjectId) (host : Value → Value) : Nat → Cursor → ev.Host Unit
  | 0, _ => Action.exhausted
  | fuel + 1, c => do
    match ← ev.advance c with
    | none => pure ()
    | some (v, c') => do
      let items ← Run.read fun w => (w.itemsOf? (.object i)).getD []
      Run.setItems i (items ++ [host v])
      ev.extendBy i host fuel c'

variable (i : ObjectId)

def extendList (items : List Value) (v : Value) : ev.Host Unit := do
  let w ← Run.get
  match w.payload? v, w.answer v "__iter__" with
  | some (.list more), .core _ | some (.tuple more), .core _ => Run.setItems i (items ++ more)
  | _, _ => do
    let c ← ev.cursorOf v
    let arr ← Run.read fun w => w.isArray v
    ev.extendBy i (if arr then Value.unwrap else id) ev.fuel c

def popList (items : List Value) (args : List Value) : ev.Host Value := do
  Run.expectArgs "pop" 0 1 args.length
  let n ← match args.head? with | none => pure (-1) | some v => ev.sizeIndex v
  let position : Int := if n < 0 then n + items.length else n
  if items.isEmpty then Run.raise ⟨.indexError, "pop from empty list"⟩
  else
    match if position < 0 then none else items[position.toNat]? with
    | none => Run.raise ⟨.indexError, "pop index out of range"⟩
    | some v => do
      Run.setItems i (items.eraseIdx position.toNat)
      pure v

def listMethod (items : List Value) (name : String) (args : List Value) :
    ev.Host Value := do
  match name with
  | "append" => do
    Run.takesArgs "list.append" 1 1 args.length
    Run.setItems i (items ++ args)
    pure .none
  | "extend" => do
    Run.takesArgs "list.extend" 1 1 args.length
    ev.extendList i items (args.headD .none)
    pure .none
  | "count" => do
    Run.takesArgs "list.count" 1 1 args.length
    let hits ← collect items fun x => ev.sameOrEqual x (args.headD .none)
    pure (.int (hits.filter id).length)
  | "index" => do
    Run.expectArgs name 1 3 args.length
    let v := args.headD .none
    let bound := fun (x : Option Value) =>
      match x with
      | none => pure none
      | some x => some <$> ev.boundIndex "slice indices must be integers or have an __index__ method" x
    let start ← bound args[1]?
    let stop ← bound args[2]?
    let bounds := Search.bounds? items.length start stop
    let first := (bounds.map Prod.fst).getD 0
    let part := (bounds.map fun b => (items.take b.2).drop b.1).getD []
    match ← ev.indexOf? v part with
    | some n => pure (.int (first + n : Nat))
    | none => do
      let shown ← ev.describe v
      Run.raise ⟨.valueError, shown ++ " is not in list"⟩
  | "insert" => do
    Run.expectArgs name 2 2 args.length
    let n ← ev.sizeIndex (args.headD .none)
    let k := clamped items.length n
    Run.setItems i (items.take k ++ args.drop 1 ++ items.drop k)
    pure .none
  | _ => ev.popList i items args

def dictMethod (entries : List Entry) (name : String)
    (args : List Value) : ev.Host Value := do
  Run.expectArgs name 1 2 args.length
  let key := args.headD .none
  let found ← if name = "pop" && entries.isEmpty then pure none else ev.keyIndex? entries key
  match found.bind fun n => entries[n]?.map fun e => (n, e.value) with
  | some (n, v) => do
    if name = "pop" then
      Run.refill i (.dict (entries.eraseIdx n))
    pure v
  | none =>
    match args[1]?, name with
    | some v, _ => pure v
    | none, "get" => pure .none
    | none, _ => Run.raiseNew .keyError [key]

end ScriptCore.Evaluator
