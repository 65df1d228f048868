import ScriptCore.Host.Property

namespace ScriptCore

inductive Place where
  | named (s : ScopeId) (name : String) (isLocal : Bool)
  /-- A field, property or element of a value. Names are texts and positions are integers; the host
  may try others. -/
  | field (target key : Value)
  | property (target key : Value)
  | index (target key : Value)
  | result (v : Value)
  deriving Inhabited

namespace Place

def fieldName (key : Value) : Plain String := do
  let w ← Run.get
  match w.text? key with
  | some name => pure name
  | none => Run.raise ⟨.attributeError, w.missingOn key "startswith"⟩

def assignedName (ev : Evaluator) (key : Value) : Action ev.may .bridge String := do
  let w ← Run.get
  match w.text? key with
  | some name => pure name
  | none => do
    let shown ← ev.text key
    Action.fail (.reflect
      ("Can't set field: " ++ shown ++ " : attribute name must be string, not '" ++ w.valueClassName key ++ "'")) trivial

def position (w : World) (target key : Value) (hasElements : Bool) (refusal : String) : Action .nothing .bridge Int :=
  match w.integer? key with
  | some n => pure n
  | none =>
    if w.isArray target then Run.refuse "'<=' not supported between instances of 'int' and '" key "'"
    else if hasElements then Run.refuse "'<' not supported between instances of '" key "' and 'int'"
    else Action.fail (.reflect refusal) trivial

def isMutable (w : World) (v : Value) : Bool :=
  match w.sequence? v with
  | some (.list ..) => true
  | _ => false

def read (ev : Evaluator) : Place → Action ev.may .fault Value
  | named s name isLocal => Run.getVariable s name (!isLocal)
  | field target key =>
    Run.reflected do
      let name ← fieldName key
      ev.getField target name
  | property target key => Run.reflected (ev.getProperty target key)
  | index target key =>
    Run.reflected do
      let w ← Run.get
      let n ← position w target key (w.sequence? target).isSome "Not an array or sequence"
      ev.getIndex target n
  | result v => pure v

def assign (ev : Evaluator) (p : Place) (value : Value) (strict : Bool) : Action ev.may .fault Value := do
  match p with
  | named s name isLocal => Run.setVariable s name value strict (!isLocal)
  | field target key =>
    if target.isNull || target.isVoid then do
      let shown ← ev.text key
      Run.fault (.assignFieldOfNothing shown)
    else
      Run.reflected do
        let name ← assignedName ev key
        ev.setField target name value
  | property target key => Run.reflected (ev.setProperty target key value)
  | index target key =>
    Run.reflected do
      let w ← Run.get
      let n ← position w target key (isMutable w target) "Not a mutable array or sequence"
      ev.setIndex target n value
  | result _ => Run.fault .resultNotAssignable
  pure value

def isLocal : Place → Bool
  | named _ _ l => l
  | _ => false

def text (w : World) (p : Place) : String :=
  let targetText := fun (v : Value) => if w.isArray v then "array" else w.valueClassName v
  let line := fun (kind target key : String) => "<LeftValue " ++ kind ++ " " ++ target ++ "[" ++ key ++ "]>"
  match p with
  | named s name _ => line "variable" (targetText (.scope s)) (Quoted.quote name)
  | field t key => line "field" (targetText t) (w.show key)
  | property t key => line "property" (targetText t) (w.show key)
  | index t key => line "index" (targetText t) (w.show key)
  | result _ => line "method_result" "NoneType" "None"

end Place

end ScriptCore
