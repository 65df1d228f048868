import ScriptCore.Host.Construction

namespace ScriptCore.Evaluator

def inferredType (ev : Evaluator) (v : Value) : ev.Host PrimType := do
  let w ← Run.get
  match v, w.number? v with
  | .bool _, _ => pure .boolean
  | _, some (.inl n) => pure (Value.inferInt n)
  | _, some (.inr _) => pure .double
  | v, none => do
    let shown ← ev.describe v
    raiseText .valueError ("No primitive type for host value " ++ shown)

/-- Boxes a host value. A text stands for its only character; anything can be a truth value. A value
that is no number stays the one it is. -/
def box (ev : Evaluator) (v : Value) (type : Option PrimType) : ev.Host Value := do
  let t ← match type with | some t => pure t | none => ev.inferredType v
  let w ← Run.get
  match t, v, w.text? v with
  | .boolean, v, _ => do
    let b ← ev.truth v
    pure (.ofTruth b)
  | t, _, some s => do
    let p ← Run.ofHost (Primitive.ofText t s)
    Run.computedPrimitive p
  | .float, v, none | .double, v, none => do
    match ← ev.floatOf v with
    | .float x m => do
      let p ← Run.ofHost (Primitive.ofFloat t x)
      if t = .float then Run.computedPrimitive p else pure (.boxed p m)
    | _ => do
      let p ← Run.ofHost (Primitive.ofInt t 0)
      pure (.boxed p 0)
  | t, .float x _, none => do
    let p ← Run.ofHost (Primitive.ofFloat t x)
    pure (.boxed p 0)
  | .void, _, none => do
    let p ← Run.ofHost (Primitive.ofInt .void 0)
    pure (.boxed p 0)
  | t, v, none => do
    let n ← ev.intOf v
    let p ← Run.ofHost (Primitive.ofInt t n)
    pure (.boxed p 0)

end ScriptCore.Evaluator
