import ScriptCore.Host.Mapping
import ScriptCore.Text.Case
import ScriptCore.Yaml.Node

namespace ScriptCore.Yaml

structure Building where
  nodes : Array Node
  built : List (NodeId × Value) := []
  waiting : List (NodeId × ObjectId) := []

abbrev Build (α : Type) := StateT Building (ExceptT Fault Run) α

namespace Build

def malformed {α : Type} : Build α := fun _ => ExceptT.mk (pure (.error .malformed))

def raised {α : Type} (e : HostError) : Build α := fun _ => ExceptT.mk (pure (.error (.raised e)))

def ofExcept {α : Type} : Except Fault α → Build α
  | .ok a => pure a
  | .error .malformed => malformed
  | .error (.raised e) => raised e

def lift {α : Type} (x : Run α) : Build α := fun s => ExceptT.mk (do let a ← x; pure (.ok (a, s)))

def nodeAt (id : NodeId) : Build Node := do
  let s ← get
  pure (s.nodes[id]?.getD default)

def setNode (id : NodeId) (n : Node) : Build Unit :=
  modify fun s => { s with nodes := s.nodes.setIfInBounds id n }

def scalarText (fuel : Nat) (id : NodeId) : Build String :=
  match fuel with
  | 0 => malformed
  | fuel + 1 => do
    let n ← nodeAt id
    match n.content with
    | .scalar text => pure text
    | .sequence _ => malformed
    | .mapping entries => do
      let tags ← entries.mapM fun e => do
        let k ← nodeAt e.1
        pure (k.tag, e.2)
      match tags.find? fun e => e.1 = Tag.value with
      | some (_, v) => scalarText fuel v
      | none => malformed

def entriesAt (id : NodeId) : Build (List (NodeId × NodeId)) := do
  match (← nodeAt id).content with
  | .mapping entries => pure entries
  | _ => malformed

/-- Replaces the merge keys of a mapping by the entries of the mappings they refer to, which come
before its own. `i` is the position of the entry that is looked at and `merged` are the entries
found so far. -/
def flatten (fuel : Nat) (id : NodeId) (i : Nat) (merged : List (NodeId × NodeId)) : Build Unit :=
  match fuel with
  | 0 => malformed
  | fuel + 1 => do
    let n ← nodeAt id
    let entries ← entriesAt id
    match entries[i]? with
    | none => if merged.isEmpty then pure () else setNode id { n with content := .mapping (merged ++ entries) }
    | some (k, v) => do
      let key ← nodeAt k
      if key.tag = Tag.merge then do
        setNode id { n with content := .mapping (entries.eraseIdx i) }
        match (← nodeAt v).content with
        | .mapping _ => do
          flatten fuel v 0 []
          let more ← entriesAt v
          flatten fuel id i (merged ++ more)
        | .sequence items => do
          let parts ← items.mapM fun m => do
            let _ ← entriesAt m
            flatten fuel m 0 []
            entriesAt m
          flatten fuel id i (merged ++ parts.reverse.flatten)
        | .scalar _ => malformed
      else do
        if key.tag = Tag.value then setNode k { key with tag := Tag.str }
        flatten fuel id (i + 1) merged

def newCollection (id : NodeId) (cls : CoreClass) (payload : Payload) : Build Value := do
  let v ← lift (Run.alloc { cls := .core cls, payload })
  match v with
  | .object i => modify fun s => { s with waiting := s.waiting ++ [(id, i)] }
  | _ => pure ()
  pure v

def moment (id : NodeId) (text : String) : Build Value := do
  match (← nodeAt id).content, Word.moment? text with
  | .scalar _, some m => do
    let (timed, shown) ← ofExcept (Word.momentText m)
    lift (Run.alloc { cls := .core (if timed then .datetime else .date), payload := .constant shown })
  | .scalar _, none => raised ⟨.attributeError, "'NoneType' object has no attribute 'groupdict'"⟩
  | _, _ => raised ⟨.typeError, "expected string or bytes-like object, got 'list'"⟩

def bytes (text : String) : Build Value :=
  if text.toList.any fun c => 128 ≤ c.toNat then malformed
  else
    match Word.decodeBytes text.toList 0 0 0 with
    | some values => lift (Run.alloc { cls := .core .bytes, payload := .bytes values })
    | none => malformed

def truth (text : String) : Build Value :=
  let word := Case.lower text
  match Word.truths.lookup word with
  | some b => pure (.bool b)
  | none => raised ⟨.keyError, word⟩

def make (fuel : Nat) (id : NodeId) (tag : String) : Build Value :=
  if tag = Tag.seq || tag = Tag.omap || tag = Tag.pairs then newCollection id .list (.list [])
  else if tag = Tag.map then newCollection id .dict (.dict [])
  else if tag = Tag.set then newCollection id .set (.set [])
  else do
    let reading := do
      let text ← scalarText fuel id
      pure text
    if tag = Tag.null then do
      let _ ← reading
      pure .none
    else if tag = Tag.bool then reading >>= truth
    else if tag = Tag.int then do
      let text ← reading
      let n ← ofExcept (Word.int text)
      pure (.int n)
    else if tag = Tag.float then do
      let text ← reading
      let x ← ofExcept (Word.float text)
      lift (Run.computedReal x)
    else if tag = Tag.str then Value.ofString <$> reading
    else if tag = Tag.timestamp then reading >>= moment id
    else if tag = Tag.binary then reading >>= bytes
    else malformed

def value (fuel : Nat) (id : NodeId) : Build Value := do
  match (← get).built.lookup id with
  | some v => pure v
  | none => do
    let n ← nodeAt id
    let v ← make fuel id n.tag
    modify fun s => { s with built := (id, v) :: s.built }
    pure v

def isKey (w : World) (v : Value) : Bool :=
  match w.payload? v with
  | some (.list _) | some (.dict _) | some (.set _) => false
  | _ => true

def entries (ev : Evaluator) (fuel : Nat) (id : NodeId) : Build (List Entry) := do
  let _ ← entriesAt id
  flatten fuel id 0 []
  let pairs ← entriesAt id
  pairs.foldlM (fun held e => do
    let k ← value fuel e.1
    let w ← lift Run.get
    if isKey w k then do
      let v ← value fuel e.2
      lift (ev.putKey held k v)
    else malformed) []

def pairs (fuel : Nat) (id : NodeId) : Build (List Value) := do
  match (← nodeAt id).content with
  | .sequence items =>
    items.mapM fun m => do
      match ← entriesAt m with
      | [(k, v)] => do
        let key ← value fuel k
        let x ← value fuel v
        lift (Run.newTuple [key, x])
      | _ => malformed
  | _ => malformed

def fill (ev : Evaluator) (fuel : Nat) (id : NodeId) (i : ObjectId) : Build Unit := do
  let n ← nodeAt id
  let put := fun (p : Payload) => lift (Run.modify fun w => w.modifyObj i fun o => { o with payload := p })
  if n.tag = Tag.seq then
    match n.content with
    | .sequence items => do
      let vs ← items.mapM (value fuel)
      put (.list vs)
    | _ => malformed
  else if n.tag = Tag.omap || n.tag = Tag.pairs then do
    let vs ← pairs fuel id
    put (.list vs)
  else do
    let all ← entries ev fuel id
    put (if n.tag = Tag.set then .set (Element.arranged (Evaluator.keysOf all)) else .dict all)

def fillAll (ev : Evaluator) (size : Nat) : Nat → Build Unit
  | 0 => malformed
  | fuel + 1 => do
    match (← get).waiting with
    | [] => pure ()
    | (id, i) :: rest => do
      modify fun s => { s with waiting := rest }
      fill ev size id i
      fillAll ev size fuel

def document (ev : Evaluator) (fuel : Nat) (root : Option NodeId) : Build Value :=
  match root with
  | none => pure .none
  | some id => do
    let v ← value fuel id
    fillAll ev fuel (fuel + 1)
    pure v

end Build

def settled {α : Type} : Except Fault α → Run (Option α)
  | .ok a => pure (some a)
  | .error .malformed => pure none
  | .error (.raised e) => Run.raise e

def Document.value? (ev : Evaluator) (source : String) : Run (Option Value) := do
  match ← settled (Document.read source) with
  | none => pure none
  | some d => do
    let size := d.nodes.size
    let r ← (Build.document ev ((size + 2) * (size + 2)) d.root).run { nodes := d.nodes }
    let v ← settled r
    pure (v.map Prod.fst)

end ScriptCore.Yaml
