import ScriptCore.Script.Method

namespace ScriptCore.Evaluator

def hideNone : Value → Value
  | .none => .null
  | v => v

def copyVariables (s c : ScopeId) (names : List String) : Eval Unit :=
  forEach names fun name => do
    let v ← Run.getVariable s name false
    Run.setVariable c name v false false

def cloneScope (s : ScopeId) : Eval Value := do
  let x ← Run.read fun w => w.scope s
  let c ← Run.newChild s (some (x.name ++ " clone"))
  Eval.located none .hostCall (copyVariables s c x.vars.keys)
  let methods ← Run.read fun w => (w.scope s).methods.values.flatten
  forEach methods fun m => Run.setMethod c m
  pure (.closure c)

def objectProtocol? (s : ScopeId) (name : String) (args : List Value) : Option (Eval Value) :=
  match name, args with
  | "toString", [] => some do
    let w ← Run.get
    Run.freshText (w.plainText (.closure s))
  | "hashCode", [] => some (pure (.ofInt s))
  | "equals", [v] => some (pure (.ofTruth (Value.same (.closure s) v)))
  | "clone", [] => some (cloneScope s)
  | _, _ => none

def catchAll (s : ScopeId) : Plain (Option Method) :=
  Action.converting (Run.findMethod s "invoke" [.cls (.core .str), .array Ty.object])
    (fun _ e =>
      match e with
      | .fault .. => some (pure none)
      | _ => none)
    fun _ e _ hn => by cases e <;> simp_all [Tier.Allows]

variable (ev : Evaluator)

/-- Calls a method of a scope by name: a scripted one, one that every closure has, or the handler
for all others. A private method can only be called from inside the scope that declares it. -/
def invokeIn (s : ScopeId) (name : String) (arguments : List Value) (caller : Node)
    (declaredOnly : Bool) (origin : Option ScopeId) : Eval Value := do
  let args := arguments.map hideNone
  let types ← Run.read fun w => w.typesOf args
  let found ← Eval.located (some ("Method " ++ name)) caller
    (if declaredOnly then Run.declaredMethod s name types else Run.findMethod s name types)
  match found with
  | some m => do
    let hidden ← Run.read fun w =>
      match origin with
      | some o => m.modifiers.has "private" && !w.isWithin o m.home
      | none => false
    if hidden then do
      let shown ← Run.read fun w => w.methodText m
      Eval.stop caller (.privateMethod shown)
    else ev.invoke m args caller
  | none =>
    match objectProtocol? s name args with
    | some run => run
    | none => do
      match ← catchAll s with
      | some handler => do
        let packed ← Run.newArray Ty.object args
        ev.invoke handler [.ofString name, packed] caller
      | none => do
        let shown ← Run.read fun w => types.map w.argTypeName
        let object ← Run.read fun w => (w.scope s).name
        Eval.stop caller (.methodNotFound name shown object)

def rebuilt (exception : Value) : ev.Host Value := do
  let w ← Run.get
  let args := (w.exceptionArgs? exception).getD []
  Action.catching (ev.call (.cls (w.classOf exception)) args) fun w e =>
    if Run.isFailureOf w e .typeError then some (pure exception) else none

def unpacked {α : Type} (ev : Evaluator) (x : ev.Host α) : ev.Answer α :=
  Action.catching x.weaken fun _ e =>
    match e with
    | .report { target := some t, .. } => some do
      let v ← ev.rebuilt t.exception
      Run.raiseValue v
    | _ => none

def invokeFromHost (s : ScopeId) (name : String) (args : List Value) (declaredOnly : Bool) :
    ev.Host Value := do
  let given ← Run.read fun w => args.map w.wrap
  let v ← ev.request (.enter s name given declaredOnly)
  pure v.unwrap

/-- Answers a call of a proxy's method. Equality and text have an answer even if the script declares
none. -/
def proxyCall (proxy : Value) (s : ScopeId) (name : String) (args : List Value) : ev.Answer Value := do
  Run.debug fun w => ["proxy call:", name, "on", w.scopeText s]
  ev.unpacked do
    let w ← Run.get
    if name = "equals" && !w.declaresMethod s "equals" 1 then
      match args with
      | v :: _ => pure (.bool (v.same proxy))
      | [] => Run.raise ⟨.indexError, "tuple index out of range"⟩
    else if name = "toString" && !w.declaresMethod s "toString" 0 then do
      let names := (w.bases (w.classOf proxy)).map w.className
      Run.freshText (w.plainText (.closure s) ++ "\nimplements: " ++ ", ".intercalate names)
    else ev.invokeFromHost s name args false

end ScriptCore.Evaluator
