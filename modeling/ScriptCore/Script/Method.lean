import ScriptCore.Script.Block

namespace ScriptCore.Evaluator

def bindParameter (s : ScopeId) (method : String) (caller : Node) (p : MethodParam) (arg : Value) : Eval Unit :=
  if p.type = .untyped then
    match arg with
    | .void => Eval.stop caller (.undefinedParameter p.name method)
    | arg => do
      let strict ← Run.read fun w => w.settings.strict
      Eval.located (some "Local method parameter assignment") caller (Run.setVariable s p.name arg strict false)
  else do
    let v ← Eval.catching (Run.cast arg p.type .assignment) fun _ e =>
      match e with
      | .fault c _ => some (Eval.stop caller (.invalidArgument p.name method c.message))
      | _ => none
    Eval.located (some "Typed method parameter assignment") caller
      (Run.setTypedVariable s p.name p.type (Run.given v) p.modifiers)

def bindArguments (s : ScopeId) (m : Method) (args : List Value) (caller : Node) : Eval Unit :=
  if args.length ≠ m.params.length then Eval.stop caller (.wrongArgumentCount m.name)
  else forEach (m.params.zip args) fun e => bindParameter s m.name caller e.1 e.2

def returned (result : Ending) (stack : List ScopeId) : Eval Value :=
  match result with
  | .value _ => pure .void
  | .signal sig _ =>
    if sig.kind = .return then pure sig.value
    else Comp.fail (.report { message := Cause.jumpInMethod.message, node := sig.node, stack := some stack })

def convertReturned (m : Method) (result : Ending) (value : Value) : Eval Value :=
  match m.returnType with
  | .prim .void => pure .void
  | .untyped => pure value
  | t =>
    let node := (result.signal?.map Signal.node).getD m.node
    Eval.located (some ("Incorrect type returned from method: " ++ m.name)) node (Run.cast value t .assignment)

def methodFrame (m : Method) (caller : Node) : Plain ScopeId :=
  Run.newScope
    { name := if m.name.isEmpty then "anonymous" else m.name, parent := some m.home, isMethod := true
      caller := some caller, executing := m.declaringClass, running := some m }

/-- A scope for a call of a method, with the arguments in it. -/
def openMethod (m : Method) (args : List Value) (caller : Node) : Eval ScopeId := do
  let s ← methodFrame m caller
  bindArguments s m args caller
  pure s

def noteCall (m : Method) (s : ScopeId) : Plain Unit :=
  Run.debug fun w => ["invoke method:", m.name, "in", w.scopeText s]

def runBody (ev : Evaluator) (m : Method) (args : List Value) (caller : Node) : Eval Value := do
  let s ← openMethod m args caller
  let (result, stack) ← Eval.withFrame s do
    noteCall m s
    let r ← ev.execHere m.body
    let frames ← Eval.frames
    pure (r, frames)
  let value ← returned result stack
  convertReturned m result value

def invoke (ev : Evaluator) (m : Method) (args : List Value) (caller : Node) : Eval Value :=
  match m.member with
  | some member =>
    Eval.catching (ev.invokeMember member args) fun w e =>
      match w.seen e with
      | .hostCall _ v => some (Eval.stopWith caller "Exception invoking imported object method." v true)
      | _ => none
  | none => ev.runBody m args caller

end ScriptCore.Evaluator
