import ScriptCore.Host.Conversion

namespace ScriptCore.Evaluator

def combine (onInt : Int → Int → Int) (onFloat : Float → Float → Float) (a b : Int ⊕ Float) : Plain Value :=
  match a, b with
  | .inl m, .inl n => pure (.int (onInt m n))
  | a, b => do
    let x ← toReal a
    let y ← toReal b
    Run.computedReal (onFloat x y)

def unsupported {α : Type} (symbol : String) (a b : Value) : Plain α := do
  let y ← Run.read fun w => w.valueClassName b
  Run.refuse ("unsupported operand type(s) for " ++ symbol ++ ": '") a ("' and '" ++ y ++ "'")

def onlyConcatenate {α : Type} (kind : String) (b : Value) : Plain α :=
  Run.refuse ("can only concatenate " ++ kind ++ " (not \"") b ("\") to " ++ kind)

variable (ev : Evaluator)

/-- The result of an operator by the classes of its operands, if one of them says what it does. The
right operand is asked first if its class extends that of the left one, and else only where the core
classes know no result. -/
def byOperands (name mirrored : String) (a b : Value) (core : ev.Host (Option Value)) :
    ev.Host (Option Value) := do
  let w ← Run.get
  let extended := decide (w.classOf a ≠ w.classOf b) && (w.mro (w.classOf b)).contains (w.classOf a)
  match w.answer a name, w.answer b mirrored with
  | .given f, .given g => some <$> if extended then ev.ask g b [a] else ev.ask f a [b]
  | .given f, _ => some <$> ev.ask f a [b]
  | _, .given g =>
    if extended then some <$> ev.ask g b [a]
    else do
      match ← core with
      | some v => pure (some v)
      | none => some <$> ev.ask g b [a]
  | _, _ => core

def coreSum (w : World) (a b : Value) : Plain (Option Value) :=
  match w.number? a, w.number? b, w.text? a, w.text? b with
  | some m, some n, _, _ => some <$> combine (· + ·) (· + ·) m n
  | _, _, some s, some t =>
    if s.isEmpty && b.text?.isSome then pure (some b)
    else if t.isEmpty && a.text?.isSome then pure (some a)
    else some <$> Run.freshText (s ++ t)
  | _, _, _, _ =>
    match w.payload? a, w.payload? b with
    | some (.list xs), some (.list ys) => some <$> Run.newList (xs ++ ys)
    | some (.tuple xs), some (.tuple ys) => some <$> Run.newTuple (xs ++ ys)
    | _, _ => pure none

def hostAdd (a b : Value) : ev.Host Value := do
  let w ← Run.get
  match ← ev.byOperands "__add__" "__radd__" a b (coreSum w a b) with
  | some v => pure v
  | none =>
    match w.text? a, w.payload? a with
    | some _, _ => onlyConcatenate "str" b
    | _, some (.list _) => onlyConcatenate "list" b
    | _, some (.tuple _) => onlyConcatenate "tuple" b
    | _, _ => unsupported "+" a b

def repeated? (w : World) (v : Value) : Option (Nat → Plain Value) :=
  match w.text? v, w.payload? v with
  | some s, _ => some fun n => Run.computed (String.join (List.replicate n s))
  | _, some (.list xs) => some fun n => Run.newList (List.replicate n xs).flatten
  | _, some (.tuple xs) => some fun n => Run.newTuple (List.replicate n xs).flatten
  | _, _ => none

def repeatBy (times : Nat → ev.Host Value) (count : Value) : ev.Host (Option Value) := do
  let w ← Run.get
  if isIndex w count then do
    let n ← ev.index count
    if n > largestSize || n < -(largestSize + 1) then
      Run.raise ⟨.overflowError, "cannot fit 'int' into an index-sized integer"⟩
    else some <$> times n.toNat
  else Run.refuse "can't multiply sequence by non-int of type '" count "'"

def coreProduct (w : World) (a b : Value) : ev.Host (Option Value) :=
  match w.number? a, w.number? b, repeated? w a, repeated? w b with
  | some m, some n, _, _ => some <$> combine (· * ·) (· * ·) m n
  | _, _, some times, _ => ev.repeatBy times b
  | _, _, none, some times => ev.repeatBy times a
  | _, _, none, none => pure none

def hostMul (a b : Value) : ev.Host Value := do
  let w ← Run.get
  match ← ev.byOperands "__mul__" "__rmul__" a b (ev.coreProduct w a b) with
  | some v => pure v
  | none => unsupported "*" a b

def hostSum (ev : Evaluator) (start : Value) : List Value → ev.Host Value
  | [] => pure start
  | v :: rest => do
    let s ← ev.hostAdd start v
    ev.hostSum s rest

end ScriptCore.Evaluator
