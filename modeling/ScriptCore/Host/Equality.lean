import ScriptCore.Host.Conversion
import ScriptCore.Host.Mapping

namespace ScriptCore.Evaluator

def equalNumbers : Int ⊕ Float → Int ⊕ Float → Bool
  | .inl m, .inl n => m == n
  | .inr x, .inr y => x == y
  | .inl n, .inr x | .inr x, .inl n =>
    x.isFinite && Binary.truncate x == n && ((Binary.ofInt? n).map (· == x)).getD false

def entriesIn (ev : Evaluator) (others : List Entry) : List Entry → ev.Host Bool
  | [] => pure true
  | e :: rest => do
    match ← ev.hashedIndex? e.hash e.key (keysOf others) with
    | none => pure false
    | some n => do
      let other := (others[n]?.map Entry.value).getD .none
      if ← ev.sameOrEqual e.value other then ev.entriesIn others rest else pure false

def allIn (ev : Evaluator) (others : List Element) : List Element → ev.Host Bool
  | [] => pure true
  | e :: rest => do
    match ← ev.hashedIndex? e.hash e.value others with
    | none => pure false
    | some _ => ev.allIn others rest

variable (ev : Evaluator)

def equalPayloads (w : World) (a b : Value) : ev.Host (Option Bool) :=
  match w.payload? a, w.payload? b with
  | some (.list xs), some (.list ys) | some (.tuple xs), some (.tuple ys) => some <$> ev.allEqual xs ys
  | some (.dict xs), some (.dict ys) =>
    if xs.length = ys.length then some <$> ev.entriesIn ys xs else pure (some false)
  | some (.set xs), some (.set ys) =>
    if xs.length = ys.length then some <$> ev.allIn ys xs else pure (some false)
  | some (.range p q r), some (.range s t u) =>
    some <$> ev.allEqual (World.rangeItems p q r) (World.rangeItems s t u)
  | some (.bytes xs), some (.bytes ys) => pure (some (xs == ys))
  | some (.constant s), some (.constant t) => pure (some (s == t))
  | some (.classId s), other => pure (some (match other with | some (.classId t) => s.same t | _ => false))
  | some (.arrayType s), other => pure (some (match other with | some (.arrayType t) => decide (s = t) | _ => false))
  | some (.bound s f), some (.bound t g) => pure (some (s.same t && decide (f = g)))
  | some (.builtin s m), some (.builtin t n) => pure (some (s.same t && m == n))
  | _, _ => pure none

def coreEqual (a b : Value) : ev.Host (Option Bool) := do
  let w ← Run.get
  match a, b, w.number? a, w.number? b, w.text? a, w.text? b with
  | .boxed p _, .boxed q _, _, _, _, _ => pure (some (p.equal q))
  | _, _, some m, some n, _, _ => pure (some (equalNumbers m n))
  | _, _, _, _, some s, some t => pure (some (s == t))
  | a, b, _, _, _, _ =>
    if a.isMarkerOrPrimitive && b.isMarkerOrPrimitive then pure (some (a.same b)) else ev.equalPayloads w a b

def equalBy (a b : Value) : ev.Host (Option Value) := do
  let w ← Run.get
  match w.answer a "__eq__" with
  | .given .none => pure none
  | .given f => some <$> ev.ask f a [b]
  | .core .object | .nobody => pure none
  | .core _ => do
    let r ← ev.coreEqual a b
    pure (r.map Value.bool)

/-- What the comparison of two host values gives. The value whose class extends that of the other is
asked first. -/
def comparison (a b : Value) : ev.Host Value := do
  let w ← Run.get
  let c := w.classOf a
  let d := w.classOf b
  let (x, y) := if c ≠ d && (w.mro d).contains c then (b, a) else (a, b)
  match ← ev.equalBy x y with
  | some r => pure r
  | none => do
    match ← ev.equalBy y x with
    | some r => pure r
    | none => pure (.bool (a.same b))

def equalTo (a b : Value) : ev.Host Bool := do
  let r ← ev.comparison a b
  ev.truth r

def coreHash (v : Value) : ev.Host Hash := do
  let w ← Run.get
  match v, w.number? v, w.text? v, w.payload? v with
  | .boxed p m, _, _, _ => do
    let inner ← ev.hashed (.ofPrimitive p m)
    pure (.tuple [.text p.type.name, inner])
  | .float x m, _, _, _ => pure (.ofFloat x m)
  | _, some (.inl n), _, _ => pure (.ofInt n)
  | _, some (.inr x), _, _ => pure (.ofFloat x 0)
  | _, _, some s, _ => pure (.text s)
  | _, _, _, some (.tuple items) => do
    let parts ← collect items ev.hashed
    pure (.tuple parts)
  | _, _, _, some (.range a b c) => do
    let parts ← collect (World.rangeItems a b c) ev.hashed
    pure (.tuple parts)
  | _, _, _, some (.bytes values) => pure (.tuple (values.map fun (n : Nat) => .number n))
  | _, _, _, some (.constant s) => pure (.text s)
  | _, _, _, some (.classId t) => pure (.tuple [.own t])
  | _, _, _, some (.arrayType c) => pure (.tuple [.text "array", .text (w.typeName c)])
  | _, _, _, some (.bound self f) => pure (.tuple [.own self, .own (.function f)])
  | _, _, _, some (.builtin self n) => pure (.tuple [.own self, .text n])
  | v, _, _, _ => pure (.own v)

def hashOf (v : Value) : ev.Host Hash := do
  let w ← Run.get
  match w.answer v "__hash__" with
  | .given .none => Run.refuse "unhashable type: '" v "'"
  | .given f => do
    let r ← ev.ask f v []
    let w ← Run.get
    match w.integer? r with
    | some n => pure (Hash.given n)
    | none => Run.typeError "__hash__ method should return an integer"
  | .core .object | .nobody => pure (.own v)
  | .core _ => ev.coreHash v

end ScriptCore.Evaluator
