import ScriptCore.Place
import ScriptCore.Scope.Import

namespace ScriptCore

structure View where
  frames : List ScopeId := []
  handle : Option Nat := none

namespace View

def mentions (name : String) : Bool := (Path.segments name).contains "callStack"

def fresh (s : ScopeId) (name : String) : Plain View :=
  if mentions name then do
    let n ← Run.newStack ⟨[s]⟩
    pure { frames := [s], handle := some n }
  else pure { frames := [s] }

end View

def Eval.view (name : String) : Eval View := do
  let k ← frames
  if View.mentions name then do
    let n ← share
    pure { frames := k, handle := some n }
  else pure { frames := k }

structure Walk where
  rest : List String
  last : Option String := none
  base : Option Value := none
  depth : Nat := 0

namespace Run

def newClassId (target : Value) : Plain Value := alloc { cls := .core .classIdentifier, payload := .classId target }

variable (w : World) (s : ScopeId)

def thisOf : Value := .closure (w.enclosing s)

def outerScope : ScopeId :=
  let inner := w.enclosing s
  w.enclosing ((w.scope inner).parent.getD inner)

def superScope : ScopeId :=
  let outer := outerScope w s
  match (w.scope outer).parent with
  | some p => if (w.scope p).isClass then p else outer
  | none => outer

def thisValue (compound : Bool) : Value :=
  let inner := w.enclosing s
  match w.classScope? inner with
  | none => .closure inner
  | some c => if compound then .closure c else (w.classInstance? c).getD (.closure c)

def nameList (names : List String) : Plain Value := newList (names.map Value.ofString)

/-- What one segment stands for in a scope. Some names are only special after a closure. -/
def segmentValue (view : View) (k : Walk) (s : ScopeId) (name : String) (special : Bool) : Faulty (Value × Nat) := do
  let w ← get
  let plain : Faulty (Value × Nat) := do
    let v ← getVariable s name true
    pure (v, k.depth)
  match name with
  | "this" =>
    if special then fault .redundantThis else pure (thisValue w s (k.rest.length > 1), k.depth)
  | "super" => pure (.closure (superScope w s), k.depth)
  | "global" => pure (.closure (w.root s), k.depth)
  | _ =>
    if !special then plain
    else
      match name with
      | "nameSpace" => pure (.scope s, k.depth)
      | "variables" => do
        let v ← nameList (w.scope s).vars.keys
        pure (v, k.depth)
      | "methods" => do
        let v ← nameList (w.scope s).methods.keys
        pure (v, k.depth)
      | "interpreter" =>
        if k.last ≠ some "this" then fault (.onlyOnThis name)
        else if w.settings.interpreter then pure (.interpreter, k.depth) else plain
      | "caller" =>
        if k.last ≠ some "this" && k.last ≠ some "caller" then fault .callerOnlyOnThis
        else
          match view.frames[k.depth + 1]? with
          | none => fault .noCaller
          | some f => pure (thisOf w f, k.depth + 1)
      | "callStack" =>
        if k.last ≠ some "this" then fault (.onlyOnThis name)
        else
          match view.handle with
          | some n => pure (.stack n, k.depth)
          | none => plain
      | _ => plain

def stepTo (k : Walk) (name : String) (rest : List String) (v : Value) : Action .lapsing .proper (Value × Walk) :=
  match v with
  | .none => lapse (.resolution name)
  | v => pure (v, { k with rest, last := some name, base := some v })

/-- The class that the shortest possible group of leading segments names, and how many there are. -/
def leadingClass (segments : List String) : Plain (Option (Nat × Value)) :=
  let counts := if segments = [""] then [] else (List.range segments.length).map (· + 1)
  firstSome counts fun i => do
    match ← getClass s (Path.join (segments.take i)) with
    | some c => pure (some (i, c))
    | none => pure none

def enclosingInstance? (target : Value) : Option Value :=
  (w.ancestry s).findSome? fun t =>
    match (w.scope t).classInstance with
    | some v => if Value.same (.cls (w.classOf v)) target then some v else none
    | none => none

def nameOfClass : Value → String
  | .cls c => w.className c
  | .module m => m.name
  | v => w.show v

/-- A member named through a class or module: the instance of the class around, a static variable,
an inner class or an attribute. -/
def staticMember (target : Value) (name : String) : Faulty Value := do
  let w ← get
  if name = "this" then
    match enclosingInstance? w s target with
    | some v => pure v
    | none => fault (.noEnclosingInstance (nameOfClass w target))
  else do
    let static ←
      match w.staticScope? target with
      | none => pure none
      | some t => findBinding t name false
    match static with
    | some b => readBinding b
    | none =>
      match w.attributeOf target name with
      | .missing _ => fault (.noStaticMember name (w.show target))
      | .broken e => do
        let v ← newHostError e
        Action.fail (.fault (.text e.message) (some ⟨v, true⟩)) trivial
      | .value (.cls c) => newClassId (.cls c)
      | .value (.module m) => newClassId (.module m)
      | _ => reflected (getField target name)

def autoAllocate (name : String) : Action .retype .fault Value := do
  let c ← newChild s (some ("auto: " ++ name))
  setVariable s name (.closure c) false true
  pure (.closure c)

section Steps

-- `field` is the way in which a field of a host value is read.
variable {may : May} [May.Within .retype may]

def stepFrom (field : Value → String → Action may .fault Value) (s : ScopeId) (full : String) (classOnly : Bool)
    (k : Walk) (base : Value) (name : String) : Action may .fault (Value × Walk) := do
  match base with
  | .null => throwInto ⟨.attributeError, (Cause.nullPointer full).message⟩ (.nullPointer full)
  | .void => fault (.undefinedWhile full)
  | .boxed .. => fault (.primitiveAsObject full)
  | base => do
    let id ← read fun w => w.classId? base
    match id with
    | some target => do
      let v ← staticMember s target name
      stepTo k name k.rest.tail v
    | none =>
      if classOnly then fault (.notAClassName full)
      else
        match base with
        | .closure b => do
          let v ← getVariable b name false
          stepTo k name k.rest.tail v
        | base => do
          let v ← field base name
          stepTo k name k.rest.tail v

variable (view : View)

def firstStep (s : ScopeId) (classOnly allocating : Bool) (k : Walk) (name : String) :
    Action .retype .fault (Value × Walk) := do
  let (v, depth) ← if classOnly then pure (.void, k.depth) else segmentValue view k s name false
  if !v.isVoid then stepTo { k with depth } name k.rest.tail v
  else do
    match ← leadingClass s k.rest with
    | some (i, c) => do
      let id ← newClassId c
      stepTo k (Path.join (k.rest.take i)) (k.rest.drop i) id
    | none =>
      if allocating && !classOnly then do
        let c ← autoAllocate s name
        stepTo k name k.rest.tail c
      else if k.rest.length ≤ 1 then stepTo k name [] .void
      else fault (.notFound (Path.join k.rest))

def closureStep (field : Value → String → Action may .fault Value) (s b : ScopeId) (full : String)
    (classOnly allocating : Bool) (k : Walk) (name : String) : Action may .fault (Value × Walk) := do
  let (v, depth) ← if classOnly then pure (.void, k.depth) else segmentValue view k b name true
  if !v.isVoid then stepTo { k with depth } name k.rest.tail v
  else if allocating && !classOnly then do
    let c ← autoAllocate b name
    stepTo k name k.rest.tail c
  else stepFrom field s full classOnly k (.closure b) name

def step (field : Value → String → Action may .fault Value) (s : ScopeId) (full : String)
    (classOnly allocating : Bool) (k : Walk) : Action may .fault (Value × Walk) :=
  let name := k.rest.headD ""
  match k.base with
  | none => firstStep view s classOnly allocating k name
  | some (.closure b) => closureStep view field s b full classOnly allocating k name
  | some base => stepFrom field s full classOnly k base name

def walk (view : View) (field : Value → String → Action may .fault Value) (s : ScopeId)
    (full : String) (classOnly : Bool) : Nat → Walk → Action may .fault Value
  | 0, _ => Action.exhausted
  | fuel + 1, k => do
    let (v, k') ← step view field s full classOnly false k
    if k'.rest.isEmpty then pure v else walk view field s full classOnly fuel k'

def resolveName (field : Value → String → Action may .fault Value) (s : ScopeId) (name : String)
    (classOnly : Bool) : Action may .fault Value :=
  let segments := Path.segments name
  walk view field s name classOnly (segments.length + 1) { rest := segments }

end Steps

def resolverFor (name : String) : Plain Resolver := do
  let w ← get
  match (w.memory s).resolvers.get? name with
  | some r => pure r
  | none => do
    let r : Resolver := { id := w.resolverCount }
    updateRest (fun w => { w with resolverCount := w.resolverCount + 1 }) fun _ => ⟨rfl, rfl, rfl, rfl, rfl, rfl, rfl⟩
    updateMemory s (fun m => { m with resolvers := m.resolvers.put name r, listening := true })
      fun _ => .put rfl fun _ h => absurd h Bool.false_ne_true
    pure r

def noted (name : String) (r : Resolver) (f : Resolver → Resolver) (m : Memory) : Memory :=
  { m with
    resolvers :=
      match m.resolvers.get? name with
      | some held => if held.id = r.id then m.resolvers.put name (f held) else m.resolvers
      | none => m.resolvers }

theorem sparesSuper_noted {name : String} {r : Resolver} {f : Resolver → Resolver}
    (h : Path.owner? name = some "super" → ∀ held, (f held).staticClass = held.staticClass) (m : Memory) :
    m.SparesSuper (noted name r f m) := by
  unfold noted
  split
  · next held found =>
    split
    · exact .put rfl fun owner static => ⟨held, found, by rwa [← h owner held]⟩
    · exact .refl m
  · exact .refl m

def remember (name : String) (r : Resolver) (f : Resolver → Resolver) : Action .anything .proper Unit :=
  Action.perform (·.modifyMemory s (noted name r f)) fun _ => trivial

def rememberClass (name : String) (r : Resolver) (c : Value) : Plain Unit :=
  updateMemory s (noted name r fun r => { r with asClass := some c }) (sparesSuper_noted fun _ _ => rfl)

def memberClass (name : String) : Action .retype .fault (Option Value) := do
  let v ← Action.catching (resolveName {} (fun _ _ => fault (.notAClassName name)) s name true) fun _ e =>
    match e with
    | .fault .. => some (pure .void)
    | _ => none
  read fun w => w.classId? v

def findClass (name : String) : Action .retype .fault (Option Value) := do
  match ← getClass s name with
  | some c => pure (some c)
  | none => memberClass s name

def resolveClass (name : String) : Action .retype .fault (Option Value) := do
  let r ← resolverFor s name
  match r.asClass with
  | some c => pure (some c)
  | none =>
    if name = "var" then pure none
    else do
      match ← findClass s name with
      | none => fault (.classNotFound name)
      | some c => do
        rememberClass s name r c
        pure (some c)

def specialFields : List String := ["nameSpace", "variables", "methods", "caller", "interpreter", "callStack"]

def walkToOwner {may : May} [May.Within .retype may] (view : View) (field : Value → String → Action may .fault Value)
    (s : ScopeId) (full : String) : Nat → Value → Walk → Action may .fault (Value × Walk)
  | 0, _, _ => Action.exhausted
  | fuel + 1, v, k =>
    if k.rest.length ≤ 1 then pure (v, k)
    else do
      let (v', k') ← step view field s full false true k
      walkToOwner view field s full fuel v' k'

def fieldPlace (full : String) (k : Walk) (owner : Value) (name : String) : Faulty Place := do
  let w ← get
  match owner with
  | .closure b =>
    if specialFields.contains name then fault (.assignToSpecial name)
    else pure (.named b name (k.last ≠ some "super"))
  | .null => throwInto ⟨.attributeError, (Cause.nullPointer full).message⟩ (.nullPointer full)
  | .void | .boxed .. => fault (.assignFieldOfNonObject full)
  | owner => do
    let target := (w.classId? owner).getD owner
    let static ←
      match w.staticScope? target with
      | none => pure none
      | some t => do
        let b ← findBinding t name false
        pure (b.map fun _ => t)
    match static, w.instanceScope? target with
    | some t, _ => pure (.named t name true)
    | none, some t => pure (.named t name true)
    | none, none => pure (.field target (.ofString name))

/-- The place that a dotted name stands for; `may'` allows a check of the interpreter itself to
fail. -/
def resolvePlace {may may' : May} [May.Within .retype may] [May.Within .retype may'] [May.Within .halting may']
    [May.Within may may'] (view : View) (field : Value → String → Action may .fault Value) (s : ScopeId) (name : String) :
    Action may' .fault Place :=
  if !Path.isCompound name then
    if name = "this" then fault .assignToThis else pure (.named s name false)
  else do
    let segments := Path.segments name
    let found : Action may .fault (Value × Walk) :=
      Action.catching (walkToOwner view field s name (segments.length + 1) .void { rest := segments }) fun w e =>
        match w.seen e with
        | .fault c none => some (fault (.placeEvaluation c.message))
        | _ => none
    let (owner, k) ← found
    match k.rest with
    | [] => do
      let id ← read fun w => w.classId? owner
      if id.isSome then fault (.assignToClass name) else internal "Internal error in lhs..."
    | last :: _ => fieldPlace name k owner last

end Run

namespace Evaluator

variable (ev : Evaluator)

def hostField (base : Value) (name : String) : Action ev.may .fault Value := do
  let w ← Run.get
  let size ←
    if name = "length" && !w.isArray base then do
      match ← ev.sizeOf? base with
      | none => pure none
      | some n => do
        let own ← ev.hasField base "length"
        pure (if own then none else some n)
    else pure none
  match size with
  | some n => pure (Value.wrap (.int n))
  | none =>
    Action.converting (s := .bridge) (ev.getField base name)
      (fun w e =>
        match w.seen e with
        | .reflect _ => some do
          let shown ← ev.describe base
          Run.fault (.fieldNotAccessible name shown)
        | .hostCall m v => some (Action.fail (.fault (.text m) (some ⟨v, true⟩)) trivial)
        | _ => none)
      fun _ e _ hn => by cases e <;> simp_all [World.seen, Tier.Allows]

def nameIn (view : View) (s : ScopeId) (name : String) : Action ev.may .fault Value :=
  Run.resolveName view ev.hostField s name false

def placeIn (view : View) (s : ScopeId) (name : String) : Action ev.placing .fault Place :=
  Run.resolvePlace view ev.hostField s name

def resolveName (s : ScopeId) (name : String) : Eval Value := do
  let view ← Eval.view name
  ev.nameIn view s name

def resolvePlace (s : ScopeId) (name : String) : Eval Place := do
  let view ← Eval.view name
  ev.placeIn view s name

end Evaluator

end ScriptCore
