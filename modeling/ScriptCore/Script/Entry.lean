import ScriptCore.Host.Mapping
import ScriptCore.Script.Invocation

namespace ScriptCore.Evaluator

variable (ev : Evaluator) (s : ScopeId)

def lookup (name : String) : Action ev.may .fault Value := do
  let view ← View.fresh s name
  let _ ← Run.resolverFor s name
  ev.nameIn view s name

def fromHost {α : Type} (ev : Evaluator) (s : ScopeId) (intro : String)
    (x : Action ev.answering .fault α) : ev.Answer α :=
  Action.converting x
    (fun w e =>
      match w.seen e with
      | .fault c t => some (Action.stop (Run.locate (some intro) .hostCall (some [s]) c t) rfl fun _ => trivial)
      | _ => none)
    fun _ e _ hn => by cases e <;> simp_all [World.seen, Tier.Allows]

def get (ev : Evaluator) (s : ScopeId) (name : String) : ev.Answer Value := do
  let v ← ev.fromHost s ("get(" ++ name ++ ")") (ev.lookup s name)
  Run.read fun w => w.hostView v

def set (ev : Evaluator) (s : ScopeId) (name : String) (v : Value) : ev.Answer Unit :=
  ev.fromHost s ("set(" ++ name ++ ")") do
    let given ← Run.read fun w => w.wrap v
    if Path.isCompound name then do
      let view ← View.fresh s name
      let _ ← Run.resolverFor s name
      let place ← ev.placeIn view s name
      let strict ← Run.read fun w => w.settings.strict
      let _ ← place.assign ev given strict
      pure ()
    else Run.setVariable s name given false true

def unset (name : String) : Action .editing .proper Unit :=
  if Path.isCompound name then
    Action.stop (.report { message := (Cause.unsetDotted name).message, node := .hostCall }) rfl fun _ => trivial
  else Run.unsetVariable s name

/-- Makes the fields and methods of a value known by their names alone. The latest import comes
last, in the place of an equal one. -/
def importObject (v : Value) : ev.Host Unit := do
  let held ← Run.read fun w => (w.scope s).importedObjects
  let found ← ev.indexOf? v held
  let kept := match found with | some n => held.eraseIdx n | none => held
  Run.importObjects s (kept ++ [v])

def callIn (name : String) (args : List Value) : ev.Host Value :=
  ev.request (.enter s name args false)

def invokeClosure (target : Value) (name : String) (args : List Value) : ev.Host Value := do
  match target with
  | .closure s => do
    let given ← Run.read fun w => args.map w.wrap
    let v ← ev.callIn s name given
    pure v.unwrap
  | v => Run.refuse "invoke_method() needs a This, got " v ""

end ScriptCore.Evaluator
