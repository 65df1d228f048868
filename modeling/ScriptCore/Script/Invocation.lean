import ScriptCore.Resolve
import ScriptCore.Script.Closure

namespace ScriptCore.Evaluator

variable (ev : Evaluator)

def callHost (b : Bridge) (target : Value) (name : String) (args : List Value) (caller : Node) :
    Eval Value :=
  Eval.catching (ev.invokeHostMethod b target name args) fun w e =>
    match w.seen e with
    | .hostCall _ v => some (Eval.stopWith caller ("Method Invocation " ++ name) v true)
    | .reflect m => some (Eval.stop caller (.text ("Error in method invocation: " ++ m)))
    | _ => none

def invokeStatic (s : ScopeId) (target : Value) (name : String) (args : List Value)
    (caller : Node) : Eval Value := do
  let w ← Run.get
  let found ←
    match w.staticScope? target with
    | none => pure none
    | some t => Run.declaredMethod t name (w.typesOf args)
  match found with
  | some m => ev.invoke m args caller
  | none => ev.callHost (w.bridge s) target name args caller

def invokeOnInstance (s inst : ScopeId) (obj : Value) (name : String) (args : List Value)
    (caller : Node) : Eval Value := do
  let w ← Run.get
  let found ← Run.findMethod inst name (w.typesOf args)
  let onHost ←
    if found.isSome then pure false
    else do
      let m ← ev.resolveMember (w.bridge s) obj name
      pure m.isSome
  if onHost then ev.callHost (w.bridge s) obj name args caller
  else ev.invokeIn inst name args caller false (some s)

def invokeOn (s : ScopeId) (obj : Value) (name : String) (args : List Value) (caller : Node) :
    Eval Value :=
  match obj with
  | .null => Run.throwInto ⟨.attributeError, Cause.nullInvocation.message⟩ .nullInvocation
  | .void => Run.fault (.invokeOnUndefined name)
  | .boxed .. => Run.fault (.invokeOnPrimitive name)
  | .closure b => ev.invokeIn b name args caller false (some s)
  | obj => do
    let w ← Run.get
    match w.classId? obj, w.instanceScope? obj with
    | some target, _ => ev.invokeStatic s target name args caller
    | none, some inst => ev.invokeOnInstance s inst obj name args caller
    | none, none => ev.callHost (w.bridge s) obj name args caller

def invokeLocal (s : ScopeId) (name : String) (args : List Value) (caller : Node) : Eval Value := do
  let types ← Run.read fun w => w.typesOf args
  match ← Eval.located (some "Local method invocation") caller (Run.findMethod s name types) with
  | none => do
    let shown ← Run.read fun w => types.map w.argTypeName
    Eval.stop caller (.commandNotFound name shown)
  | some m => do
    let w ← Run.get
    if m.modifiers.has "private" && !w.isWithin s m.home then Eval.stop caller (.privateMethod (w.methodText m))
    else ev.invoke m args caller

variable (w : World)

def executingClass (s : ScopeId) (self : Value) : ClassRef :=
  ((w.ancestry s).findSome? fun t => (w.scope t).executing).getD (w.classOf self)

def classesAfter (c : ClassRef) (v : Value) : List ClassRef :=
  ((w.mro (w.classOf v)).dropWhile fun k => decide (k ≠ c)).drop 1

def memberOf (self : Value) : Value → Attribute
  | .property p => w.propertyAttribute self p
  | v => World.boundView self v

/-- What the classes after a given one hold under a name. Nothing comes after a class that the
object is no instance of, and that is an error of its own. -/
def superAttribute (c : ClassRef) (self : Value) (name : String) : Attribute :=
  match w.memberIn (classesAfter w c self) name with
  | some v => memberOf w self v
  | none =>
    if (w.mro (w.classOf self)).contains c then
      .broken ⟨.attributeError, "'super' object has no attribute '" ++ name ++ "'"⟩
    else .broken ⟨.typeError, "super(type, obj): obj must be an instance or subtype of type"⟩

def keptMethods (k : ClassRef) : Value → List Method
  | .object i => (((w.obj i).classMethods.find? fun e => decide (e.1 = k)).map Prod.snd).getD []
  | _ => []

def callInherited (self : Value) (name : String) (content : Attribute) (args : List Value)
    (caller : Node) : Eval Value :=
  match content with
  | .broken e => Run.raise e
  | a =>
    Eval.catching (ev.invokeMember { isMethod := true, owner := self, name, content := a } args) fun w e =>
      match w.seen e with
      | .hostCall _ v => some (Eval.stopWith caller ("Superclass method " ++ name) v true)
      | _ => none

def invokeInChain (ev : Evaluator) (c : ClassRef) (self : Value) (name : String) (args : List Value)
    (caller : Node) : List ClassRef → Eval Value
  | [] => do
    let shown ← Run.read fun w => w.qualname c
    Run.fault (.superMethodNotFound name shown)
  | base :: rest => do
    let w ← Run.get
    if (w.script? base).isSome then
      let candidates := (keptMethods w base self).filter fun m => m.name = name
      match w.mostSpecific (w.typesOf args) (candidates.map Method.paramTypes) with
      | .error cause => Run.fault cause
      | .ok best =>
        match best.bind fun i => candidates[i]? with
        | some m => ev.invoke m args caller
        | none => ev.invokeInChain c self name args caller rest
    else if (w.ownMember base name).isSome then
      ev.callInherited self name (superAttribute w c self name) args caller
    else ev.invokeInChain c self name args caller rest

def invokeSuper (ev : Evaluator) (s : ScopeId) (self : Value) (name : String) (args : List Value)
    (caller : Node) : Eval Value := do
  let w ← Run.get
  let c := executingClass w s self
  ev.invokeInChain c self name args caller (w.mro c).tail

def superInstance? (s : ScopeId) : Option Value :=
  (w.classScope? (w.enclosing s)).bind w.classInstance?

/-- Calls a method by a dotted name that nothing is remembered of. A class found in front of it is
remembered. -/
def invokeAfresh (ev : Evaluator) (s : ScopeId) (name : String) (r : Resolver) (args : List Value)
    (caller : Node) : Eval Value :=
  let method := Path.last name
  if !Path.isCompound name then ev.invokeLocal s name args caller
  else do
    let owner := (Path.owner? name).getD ""
    let above ← Run.read fun w => if owner = "super" then superInstance? w s else none
    match above with
    | some self => ev.invokeSuper s self method args caller
    | none => do
      let _ ← Run.resolverFor s owner
      let view ← Eval.view name
      match ← ev.nameIn view s owner with
      | .void => Run.fault (.methodOnUndefined method owner)
      | obj => do
        let id ← Run.read fun w => w.classId? obj
        match id with
        | some target => Run.remember s name r fun r => { r with staticClass := some target }
        | none => pure ()
        ev.invokeOn s obj method args caller

def invokeName (s : ScopeId) (name : String) (args : List Value) (caller : Node) : Eval Value := do
  let r ← Run.resolverFor s name
  match r.staticClass with
  | some target => ev.invokeStatic s target (Path.last name) args caller
  | none => ev.invokeAfresh s name r args caller

end ScriptCore.Evaluator
