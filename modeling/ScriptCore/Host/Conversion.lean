import ScriptCore.Host.Special

namespace ScriptCore.Evaluator

def toReal : Int ⊕ Float → Plain Float
  | .inr x => pure x
  | .inl n =>
    match Binary.ofInt? n with
    | some x => pure x
    | none => Run.raise ⟨.overflowError, "int too large to convert to float"⟩

def intOf (ev : Evaluator) (v : Value) : ev.Host Int := do
  let w ← Run.get
  match w.number? v, w.text? v, w.answer v "__int__" with
  | some (.inl n), _, _ => pure n
  | some (.inr x), _, _ => Run.ofIntegerPart x
  | none, some s, _ =>
    match Numeral.integer? 10 s with
    | some n => pure n
    | none => Run.raise ⟨.valueError, "invalid literal for int() with base 10: " ++ Quoted.quote s⟩
  | none, none, .given f => do
    let r ← ev.ask f v []
    let w ← Run.get
    match w.integer? r with
    | some n => pure n
    | none => Run.refuse "__int__ returned non-int (type " r ")"
  | none, none, _ =>
    if isIndex w v then ev.index v
    else Run.refuse "int() argument must be a string, a bytes-like object or a real number, not '" v "'"

/-- The floating point number that a host value converts to. One that is no number stays the one it
is. -/
def floatOf (ev : Evaluator) (v : Value) : ev.Host Value := do
  let w ← Run.get
  match v, w.number? v, w.text? v, w.answer v "__float__" with
  | .float x m, _, _, _ => pure (.float x m)
  | _, some n, _, _ => do
    let x ← toReal n
    Run.computedReal x
  | _, none, some s, _ =>
    match Numeral.real? s with
    | some x => Run.computedReal x
    | none => Run.raise ⟨.valueError, "could not convert string to float: " ++ Quoted.quote s⟩
  | _, none, none, .given f => do
    match ← ev.ask f v [] with
    | .float x m => pure (.float x m)
    | r => do
      let shown ← Run.read fun w => w.valueClassName r
      Run.refuse "" v (".__float__ returned non-float (type " ++ shown ++ ")")
  | _, none, none, _ =>
    if isIndex w v then do
      let n ← ev.index v
      let x ← toReal (.inl n)
      pure (.float x 0)
    else Run.refuse "float() argument must be a string or a real number, not '" v "'"

end ScriptCore.Evaluator
