import ScriptCore.Evaluator
import ScriptCore.Host.Argument
import ScriptCore.Report

namespace ScriptCore

namespace World

inductive Answer where
  | core (c : CoreClass)
  | given (f : Value)
  | nobody

def answer (w : World) (v : Value) (name : String) : Answer :=
  match w.member (w.classOf v) name with
  | some (.coreMethod c _) => .core c
  | some f => .given f
  | none => .nobody

def isSized (w : World) (v : Value) : Bool :=
  match w.answer v "__len__" with
  | .nobody | .given .none => false
  | _ => true

def rangeSize (start stop step : Int) : Nat :=
  if step > 0 then ((stop - start + step - 1) / step).toNat
  else if step < 0 then ((start - stop - step - 1) / (-step)).toNat
  else 0

def rangeItems (start stop step : Int) : List Value :=
  (List.range (rangeSize start stop step)).map fun (k : Nat) => Value.int (start + step * k)

def heldItems? (w : World) (v : Value) : Option (List Value) :=
  match w.payload? v with
  | some (.list items) | some (.tuple items) => some items
  | some (.set items) => some (items.map Element.value)
  | some (.dict entries) => some (entries.map Entry.key)
  | some (.range a b c) => some (rangeItems a b c)
  | some (.bytes values) => some (values.map fun (n : Nat) => .int n)
  | some (.array _ elements) => w.itemsOf? elements
  | _ => (w.text? v).map fun s => s.toList.map fun c => Value.ofString (String.singleton c)

end World

namespace Run

/-- The exception that a failure of host code is for the script that called it. Errors of scripts
and of the interpreter are none: they go on as they are. -/
def hostException? (w : World) (f : Failure) : Option (Plain Value) :=
  if isFailureOf w f .evalError || isFailureOf w f .interpreterError then none else some (exceptionOf f)

def refuse {α : Type} (before : String) (v : Value) (after : String) : Plain α := do
  let shown ← read fun w => w.classLabel v
  typeError (before ++ shown ++ after)

end Run

namespace Evaluator

variable (ev : Evaluator)

def ask (f self : Value) (args : List Value) : ev.Host Value :=
  match f with
  | .function g => ev.call (.function g) (self :: args)
  | .staticFunction g => ev.call (.function g) args
  | f => ev.call f args

def lookUp (target : Value) (name : String) : ev.Host Attribute := do
  let a ← Run.read fun w => w.attributeOf target name
  match a with
  | .asked f self name =>
    Action.catching (Attribute.value <$> ev.ask f self [.ofString name]) fun w e =>
      match Run.hostException? w e with
      | some toException =>
        if Run.isFailureOf w e .attributeError then some do
          let v ← toException
          let shown ← Run.read fun w => w.plainText v
          pure (.missing shown)
        else none
      | none => none
  | a => pure a

variable (v : Value)

def getAttr (name : String) : ev.Host Value := do
  let a ← ev.lookUp v name
  Run.ofAttribute a

def callAttribute (a : Attribute) (args : List Value) : ev.Host Value :=
  match a with
  | .bound self f => ev.call (.function f) (self :: args)
  | .builtin self n => do
    let home ← Run.read fun w => w.coreHome self n
    ev.call (.coreMethod home n) (self :: args)
  | a => do
    let v ← Run.ofAttribute a
    ev.call v args

def callMethod (target : Value) (name : String) (args : List Value) : ev.Host Value := do
  let a ← ev.lookUp target name
  ev.callAttribute a args

def guarded {α : Type} (ev : Evaluator) (x : ev.Host α) : Action ev.may .call α :=
  Action.catching x fun w e =>
    match Run.hostException? w e with
    | none => none
    | some toException => some do
      let v ← toException
      let shown ← ev.text v
      Action.fail (.hostCall shown v) trivial

def invokeMember (m : Member) (args : List Value) : Action ev.may .call Value := do
  let v ← ev.guarded (ev.callAttribute m.content (args.map Value.unwrap))
  Run.read fun w => w.wrap v

def index : ev.Host Int := do
  let w ← Run.get
  match w.integer? v, w.answer v "__index__" with
  | some n, _ => pure n
  | none, .given f => do
    let r ← ev.ask f v []
    let w' ← Run.get
    match w'.integer? r with
    | some n => pure n
    | none => Run.refuse "__index__ returned non-int (type " r ")"
  | none, _ => Run.refuse "'" v "' object cannot be interpreted as an integer"

def isIndex (w : World) (v : Value) : Bool :=
  (w.integer? v).isSome || match w.answer v "__index__" with | .given _ => true | _ => false

def largestSize : Int := 2 ^ 63 - 1

def sizeIndex : ev.Host Int := do
  let n ← ev.index v
  if -(largestSize + 1) ≤ n && n ≤ largestSize then pure n
  else Run.raise ⟨.overflowError, "Python int too large to convert to C ssize_t"⟩

def boundIndex (refusal : String) (v : Value) : ev.Host Int := do
  let w ← Run.get
  if isIndex w v then do
    let n ← ev.index v
    pure (max (-(largestSize + 1)) (min largestSize n))
  else Run.typeError refusal

def sliceIndex (v : Option Value) : ev.Host (Option Int) :=
  match v with
  | none | some .none => pure none
  | some v => do
    let n ← ev.boundIndex "slice indices must be integers or None or have an __index__ method" v
    pure (some n)

def reportedSize : ev.Host Nat := do
  let n ← ev.index v
  if n < 0 then Run.raise ⟨.valueError, "__len__() should return >= 0"⟩
  else if n ≤ largestSize then pure n.toNat
  else Run.raise ⟨.overflowError, "cannot fit 'int' into an index-sized integer"⟩

def coreSize (w : World) (v : Value) : Plain Nat :=
  match v, w.payload? v with
  | .stack n, _ => pure (w.stack n).frames.length
  | v, some (.array ..) =>
    match w.arraySize v with
    | .value (.int n) => pure n.toNat
    | a => do
      let _ ← Run.ofAttribute a
      pure 0
  | _, some (.range a b c) => pure (World.rangeSize a b c)
  | v, _ => pure ((w.heldItems? v).getD []).length

def size : ev.Host Nat := do
  let w ← Run.get
  match w.answer v "__len__" with
  | .given .none | .nobody => Run.refuse "object of type '" v "' has no len()"
  | .given f => do
    let r ← ev.ask f v []
    ev.reportedSize r
  | .core _ => coreSize w v

def truth : ev.Host Bool := do
  let w ← Run.get
  match w.answer v "__bool__" with
  | .given f => do
    match ← ev.ask f v [] with
    | .bool b => pure b
    | r => Run.refuse "__bool__ should return bool, returned " r ""
  | .core .noneType => pure false
  | .core .range => return (← ev.size v) ≠ 0
  | .core _ =>
    match w.number? v with
    | some (.inl n) => pure (decide (n ≠ 0))
    | some (.inr x) => pure (!(x == 0.0))
    | none => pure true
  | .nobody => if w.isSized v then return (← ev.size v) ≠ 0 else pure true

def sizeOf? : ev.Host (Option Nat) := do
  let w ← Run.get
  if w.isSized v && !w.isInstance v (.core .dict) then do
    let n ← ev.size v
    pure (some n)
  else pure none

end Evaluator

end ScriptCore
