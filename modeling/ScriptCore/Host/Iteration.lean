import ScriptCore.Host.Special

namespace ScriptCore.Evaluator

def notIterable {α : Type} (v : Value) : Plain α := Run.refuse "'" v "' object is not iterable"

def iteratorCursor (v : Value) : Plain Cursor := do
  let w ← Run.get
  match v, w.payload? v, w.answer v "__next__" with
  | .object i, some (.cursor _), _ => pure (.stored i)
  | v, _, .given _ => pure (.successive v)
  | v, _, _ => Run.refuse "iter() returned non-iterator of type '" v "'"

def coreCursor (w : World) (v : Value) : Plain Cursor :=
  match v, w.payload? v with
  | .object i, some (.list _) | .object i, some (.tuple _) => pure (.positions i 0)
  | _, some (.array _ (.object i)) => pure (.positions i 0)
  | .object i, some (.dict entries) => pure (.keys i 0 entries.length)
  | .object i, some (.cursor _) => pure (.stored i)
  | v, _ =>
    match w.heldItems? v with
    | some items => pure (.items items)
    | none => notIterable v

variable (ev : Evaluator)

def cursorOf (v : Value) : ev.Host Cursor := do
  let w ← Run.get
  match w.answer v "__iter__", w.answer v "__getitem__" with
  | .given .none, _ => notIterable v
  | .given f, _ => do
    let r ← ev.ask f v []
    iteratorCursor r
  | .core _, _ => coreCursor w v
  | .nobody, .given _ => pure (.indexed v 0)
  | .nobody, _ => notIterable v

def unlessFailing {α : Type} {may : May} {t : Tier} (c : CoreClass) (x : Action may t (Option α)) :
    Action may t (Option α) :=
  Action.catching x fun w e => if Run.isFailureOf w e c then some (pure none) else none

def advancePlain (c : Cursor) : ev.Host (Option (Value × Cursor)) := do
  let w ← Run.get
  match c with
  | .positions i n =>
    let items := (w.itemsOf? (.object i)).getD []
    pure (items[n]?.map fun v => (v, .positions i (n + 1)))
  | .items [] => pure none
  | .items (v :: rest) => pure (some (v, .items rest))
  | .keys i n size =>
    let keys := (w.heldItems? (.object i)).getD []
    if keys.length ≠ size then Run.raise ⟨.runtimeError, "dictionary changed size during iteration"⟩
    else pure (keys[n]?.map fun v => (v, .keys i (n + 1) size))
  | .calls receiver n bound =>
    if n ≥ bound then pure none
    else do
      let v ← ev.callMethod receiver "item" [.int n]
      pure (some (v, .calls receiver (n + 1) bound))
  | .breaking [] e => Run.raise e
  | .breaking (v :: rest) e => pure (some (v, .breaking rest e))
  | .indexed receiver n =>
    match w.answer receiver "__getitem__" with
    | .given f =>
      unlessFailing .indexError do
        let v ← ev.ask f receiver [.int n]
        pure (some (v, .indexed receiver (n + 1)))
    | _ => pure none
  | .successive receiver =>
    match w.answer receiver "__next__" with
    | .given f =>
      let taken := do
        let v ← ev.ask f receiver []
        pure (some (v, Cursor.successive receiver))
      unlessFailing .stopIteration taken
    | _ => pure none
  | .stored _ => pure none

/-- The next element of a walk. A walk that is an object goes on from where it was left, and is over
after a failure. -/
def advance (c : Cursor) : ev.Host (Option (Value × Cursor)) :=
  match c with
  | .stored i => do
    let w ← Run.get
    match (w.obj i).payload with
    | .cursor inner => do
      let next ← Action.afterFailure (ev.advancePlain inner) (·.refill i (.cursor (.items [])))
        (World.tidying_refill i _)
      match next with
      | none => do
        Run.refill i (.cursor (.items []))
        pure none
      | some (v, inner') => do
        Run.refill i (.cursor inner')
        pure (some (v, .stored i))
    | _ => pure none
  | c => ev.advancePlain c

def drain (ev : Evaluator) : Nat → Cursor → ev.Host (List Value)
  | 0, _ => Action.exhausted
  | fuel + 1, c => do
    match ← ev.advance c with
    | none => pure []
    | some (v, c') => do
      let rest ← ev.drain fuel c'
      pure (v :: rest)

def elementsOf (v : Value) : ev.Host (List Value) := do
  let c ← ev.cursorOf v
  let items ← ev.drain ev.fuel c
  let arr ← Run.read fun w => w.isArray v
  pure (if arr then items.map Value.unwrap else items)

end ScriptCore.Evaluator
