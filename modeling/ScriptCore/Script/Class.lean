import ScriptCore.Host.Proxy
import ScriptCore.Script.Declaration

namespace ScriptCore

def Run.setScript (c : ClassRef) (part : ScriptPart) : Run Unit :=
  match c with
  | .made n => Run.modify fun w => w.modifyMade n fun m => { m with script := some part }
  | _ => pure ()

namespace Evaluator

variable (w : World)

def scriptedChain (c : ClassRef) : List (ClassRef × ScriptPart) :=
  (w.mro c).reverse.filterMap fun k => (w.script? k).map fun s => (k, s)

def scriptedSuperclass? (c : ClassRef) : Option ClassRef :=
  (w.mro c).tail.find? fun k => ((w.script? k).map fun s => !s.isInterface).getD false

def resolveBase (n : Node) : Eval ClassRef := do
  match ← resolveType n with
  | .cls c => pure c
  | ty => do
    let shown ← Run.read fun w => w.typeName ty
    Eval.stop n (.cannotExtend shown)

def resolveSuperclass (n : Node) : Eval (Option ClassRef) :=
  if n.isAbsent then pure none
  else do
    let c ← resolveBase n
    pure (some c)

structure ClassPlan where
  name : String
  modifiers : Modifiers := {}
  superclass : Option ClassRef := none
  interfaces : List ClassRef := []
  body : Node := .absent
  isInterface : Bool := false
  anonymous : Bool := false
  node : Node

def addMembers (g : String → Generated) (members : Table Value) : List String → Plain (Table Value)
  | [] => pure members
  | name :: rest => do
    let more ← Run.addMember members name (g name)
    addMembers g more rest

def addStatics (s : ScopeId) (members : Table Value) : List String → Plain (Table Value)
  | [] => pure members
  | name :: rest => do
    let f ← Run.newFunction (.staticMember s name)
    addStatics s (members.put name (.staticFunction f)) rest

def addInstanceParts (s : ScopeId) (members : Table Value) : Plain (Table Value) := do
  let members ← Run.addMember members "__init__" (.setUp s)
  let members ← Run.addMember members "__getattr__" .readVariable
  Run.addMember members "__setattr__" .writeVariable

/-- Adds the functions by which instances answer for themselves in the host, if the script declares
what they need. -/
def addProtocol (declared : List String) (members : Table Value) : Plain (Table Value) := do
  let members ← if declared.contains "toString" then Run.addMember members "__str__" .text else pure members
  let members ←
    if declared.contains "equals" then do
      let more ← Run.addMember members "__eq__" .equal
      pure (more.put "__hash__" (.coreMethod .object "__hash__"))
    else pure members
  if declared.contains "hashCode" then Run.addMember members "__hash__" .hash else pure members

def classMembers (plan : ClassPlan) (body : ClassBody) (s : ScopeId) (nested : Table Value) : Plain (Table Value) := do
  let own : Table Value := .ofList
    [("_jive_static_this", .closure s), ("_jive_is_interface", .bool plan.isInterface),
      ("_jive_anonymous", .bool plan.anonymous), ("_jive_final", .bool (plan.modifiers.has "final"))]
  let members := nested.entries.foldl (fun t e => t.put e.1 e.2) own
  let members ← if plan.isInterface then pure members else addInstanceParts s members
  let declared := ClassBody.methodNames body.methods
  let abstracts := (ClassBody.methodNames body.abstracts).filter fun n => !declared.contains n
  let members ← addMembers (.instanceMember · false) members declared
  let members ← addMembers (.instanceMember · true) members abstracts
  let members ← addStatics s members (ClassBody.methodNames body.statics)
  addProtocol declared members

def replaceDollar (s : String) : String := String.ofList (s.toList.map fun c => if c = '$' then '.' else c)

variable (ev : Evaluator)

def evalNested (nested : List Node) : Eval (Table Value) := do
  let entries ← collect nested fun n => do
    let v ← ev.eval n
    let name := match n with | .classDecl _ c _ _ _ _ _ => c | _ => ""
    pure (name, v)
  pure (.ofList entries)

def evalStatics (c : ClassRef) (s : ScopeId) (statics : List Node) : Eval Unit :=
  forEach statics fun part =>
    match part with
    | .methodDecl .. => do
      let m ← buildMethod part s
      Run.setMethod s { m with declaringClass := some c }
    | part => ev.perform part

/-- Makes a new class known: to the registry under its full name, to its own static scope, and to
the enclosing scope unless it is anonymous. -/
def publish (enclosing : ScopeId) (plan : ClassPlan) (fullName : String) (c : ClassRef) (s : ScopeId) : Plain Unit := do
  let r ← Run.read fun w => w.registryId enclosing
  Run.register r fullName (.cls c)
  if !plan.anonymous then
    if fullName.toList.contains '$' then Run.register r (replaceDollar fullName) (.cls c)
    Run.importClass enclosing fullName (some plan.name)
  Run.setClassStatic s (.cls c)
  Run.debug fun w =>
    ["generated class:", fullName, "bases:",
      "[" ++ ", ".intercalate ((w.bases c).map fun b => Quoted.quote (w.className b)) ++ "]"]

def generate (ev : Evaluator) (plan : ClassPlan) : Eval ClassRef := do
  let w ← Run.get
  let enclosing ← Eval.top
  let outer := w.scope enclosing
  let package := (w.packageOf enclosing).filter fun p => !p.isEmpty
  let className := if outer.isClass then outer.name ++ "$" ++ plan.name else plan.name
  let fullName := match package with | some p => p ++ "." ++ className | none => className
  let sealed := plan.superclass.filter fun c => ((w.inheritedScript? c).map ScriptPart.final).getD false
  match sealed with
  | some c => Eval.stop plan.node (.finalSuperclass (w.qualname c))
  | none => do
    let statements ← Run.part plan.body "statements" plan.body.statements?
    let body := ClassBody.ofStatements plan.name plan.isInterface statements
    let s ← Run.newScope { name := className, parent := some enclosing, isClass := true }
    Eval.withFrame s do
      let nested ← ev.evalNested body.nested
      let isAbstract := plan.isInterface || plan.modifiers.has "abstract"
      let bases := plan.superclass.toList ++ plan.interfaces
      let members ← classMembers plan body s nested
      let spec : ClassSpec :=
        { name := plan.name, qualname := className, module := package.getD "jive.scripted"
          bases := if bases.isEmpty then [.core .object] else bases
          metaclass := .core (if isAbstract then .abstractMeta else .type)
          members }
      match ← spec.make with
      | .error m => Comp.fail (.classGeneration ("Can't generate class " ++ className ++ ": " ++ m))
      | .ok c => do
        Run.setScript c
          { staticScope := s, isInterface := plan.isInterface, anonymous := plan.anonymous
            final := plan.modifiers.has "final", body }
        publish enclosing plan fullName c s
        ev.evalStatics c s body.statics
        pure c

def generateClass (decl : Node) : Eval Value :=
  match decl with
  | .classDecl _ name body superclass interfaces modifierNames isInterface => do
    let above ← resolveSuperclass superclass
    let others ← collect interfaces resolveBase
    let modifiers ← modifiersOf .cls modifierNames decl
    let plan : ClassPlan :=
      if isInterface then
        { name, modifiers, interfaces := above.toList ++ others, body, isInterface, node := decl }
      else { name, modifiers, superclass := above, interfaces := others, body, node := decl }
    let c ← ev.generate plan
    pure (.cls c)
  | _ => pure .void

/-- Makes the class of an instance with a body of its own. It implements an interface of a script,
or extends a class. -/
def generateAnonymous (base : ClassRef) (body node : Node) : Eval ClassRef := do
  let w ← Run.get
  Run.countAnonymous
  let name := w.className base ++ "$" ++ toString (w.anonymousCount + 1)
  let implements := ((w.inheritedScript? base).map ScriptPart.isInterface).getD false
  ev.generate
    (if implements then { name, interfaces := [base], body, anonymous := true, node }
    else { name, superclass := some base, body, anonymous := true, node })

def buildConstructors (c : ClassRef) (inst : ScopeId) (body : ClassBody) : Eval (List Method) :=
  collect body.constructors fun decl => do
    let m ← buildMethod decl inst
    pure { m with declaringClass := some c }

/-- The constructor for the given arguments and its position, if the class declares any. The
constructor that is running cannot call itself. -/
def chooseConstructor (c : ClassRef) (anonymous : Bool) (ms : List Method) (args : List Value)
    (caller : Node) (calling : Option Nat) : Eval (Option (Nat × Method)) := do
  if ms.isEmpty then
    if !args.isEmpty && !anonymous then Eval.stop caller (.constructorTakesNothing (w.className c)) else pure none
  else do
    let types := w.typesOf args
    let best ← Eval.located (some "Constructor") caller
      (Run.ofCause (w.mostSpecific types (ms.map Method.paramTypes)))
    match best.bind fun i => ms[i]?.map fun m => (i, m) with
    | none => Eval.stop caller (.constructorNotFound (w.className c) (types.map w.typeName))
    | some (i, m) =>
      if calling = some i then Eval.stop caller .recursiveConstructor else pure (some (i, m))

def explicitCall? (statements : List Node) : Option (Node × String × List Node) :=
  match statements with
  | .invocation l name args :: _ =>
    if name = "super" || name = "this" then some (.invocation l name args, name, args) else none
  | _ => none

/-- Whether the statements start with a call of another constructor of the same class. -/
def delegates (statements : List Node) : Bool := ((explicitCall? statements).map fun e => decide (e.2.1 = "this")).getD false

/-- What is left of the statements after a call of another constructor in front of them. -/
def remaining (statements : List Node) : List Node :=
  if (explicitCall? statements).isSome then statements.tail else statements

def setUpHost (chain : List ClassRef) (v : Value) (args : List Value) : ev.Host Unit := do
  let w ← Run.get
  let _ ←
    match w.memberIn chain "__init__" with
    | some (.coreMethod c n) => ev.call (.coreMethod c n) (v :: args)
    | some f => ev.ask f v args
    | none => pure .none
  pure ()

def constructHostPart (v : Value) (c : ClassRef) (args : List Value) (caller : Node) :
    Eval Unit := do
  let w ← Run.get
  let owner := (w.mro c).tail.find? w.setsUp
  if owner = some (.core .object) && args.isEmpty then pure ()
  else
    Eval.catching (ev.setUpHost (classesAfter w c v) v (args.map Value.unwrap)) fun w' e => some do
      let exception ← Run.exceptionOf e
      if Run.isFailureOf w' e .typeError then do
        let shown ← ev.text exception
        Eval.stop caller (.superConstructorNotFound (w.className c) shown)
      else Eval.stopWith caller "Superclass constructor" exception true

def debugValues (parts : List String) (values : List Value) : ev.Host Unit := do
  let wanted ← Run.read fun w => w.settings.debug
  if wanted then do
    let shown ← collect values ev.describe
    Run.debug fun _ => parts ++ ["[" ++ ", ".intercalate shown ++ "]"]
  else pure ()

def constructorStatements (chosen : Option (Nat × Method)) : Plain (List Node) :=
  match chosen with
  | some (_, m) => Run.part m.body "statements" m.body.statements?
  | none => pure []

def bindChosen (frame : ScopeId) (chosen : Option (Nat × Method)) (args : List Value) (caller : Node) : Eval Unit :=
  match chosen with
  | some (_, m) => bindArguments frame m args caller
  | none => pure ()

def passedOn (explicit : Option (Node × String × List Node)) (implicit : List Value) :
    Eval (List Value) :=
  match explicit with
  | some (_, _, nodes) => ev.evalArgs nodes
  | none => pure implicit

def evalFields (inst : ScopeId) (fields : List Node) : Eval Unit :=
  Eval.withFrame inst (forEach fields ev.perform)

/-- What comes right before the statements of a constructor: a note in the log, and the lock of the
body. -/
def prepareStatements (name : String) (chosen : Option (Nat × Method)) (args : List Value)
    (remaining : List Node) : Eval Unit :=
  match chosen with
  | some (_, m) =>
    if remaining.isEmpty then pure ()
    else do
      ev.debugValues ["constructor:", name, "args:"] args
      match m.body with
      | .block _ _ lock => ev.checkLock m.body lock
      | _ => pure ()
  | none => pure ()

def constructorFrame (c : ClassRef) (name : String) (inst : ScopeId) (caller : Node)
    (chosen : Option (Nat × Method)) : Plain ScopeId :=
  Run.newScope
    { name, parent := some inst, isMethod := true, caller := some caller
      executing := if chosen.isSome then some c else none, running := chosen.map Prod.snd }

/-- A constructor about to run, if the class declares any, with a scope for it. -/
structure ConstructorCall where
  body : ClassBody
  anonymous : Bool
  chosen : Option (Nat × Method)
  statements : List Node
  frame : ScopeId

def openConstructor (c : ClassRef) (inst : ScopeId) (args : List Value) (caller : Node)
    (calling : Option Nat) : Eval ConstructorCall := do
  let part := (w.inheritedScript? c).getD default
  let ms ← buildConstructors c inst part.body
  let chosen ← chooseConstructor w c part.anonymous ms args caller calling
  let statements ← constructorStatements chosen
  let frame ← constructorFrame c (w.className c) inst caller chosen
  pure { body := part.body, anonymous := part.anonymous, chosen, statements, frame }

/-- What a constructor does before its own statements: another constructor or that of the
superclass, then the fields. The parts of other classes and constructors are left to `level`. -/
def beginConstructor (level : ClassRef → List Value → Node → Option Nat → Eval Unit) (w : World)
    (v : Value) (c : ClassRef) (inst : ScopeId) (args : List Value) (caller : Node) (k : ConstructorCall) :
    Eval Unit := do
  let explicit := explicitCall? k.statements
  bindChosen k.frame k.chosen args caller
  let passed ← ev.passedOn explicit (if k.chosen.isNone && k.anonymous then args else [])
  let site := (explicit.map Prod.fst).getD caller
  (if delegates k.statements then level c passed site (k.chosen.map Prod.fst)
  else do
    (match scriptedSuperclass? w c with
    | some parent => level parent passed site none
    | none => ev.constructHostPart v c passed site)
    ev.evalFields inst k.body.fields)
  ev.prepareStatements (w.className c) k.chosen args (remaining k.statements)

/-- One class's part in the construction of an instance. -/
def constructLevel (ev : Evaluator) (fuel : Nat) (v : Value) (c : ClassRef) (inst : ScopeId)
    (args : List Value) (caller : Node) (calling : Option Nat) : Eval Unit :=
  match fuel with
  | 0 => Comp.exhausted
  | fuel + 1 => do
    let w ← Run.get
    let k ← openConstructor w c inst args caller calling
    Eval.withFrame k.frame do
      ev.beginConstructor (fun c args caller calling => ev.constructLevel fuel v c inst args caller calling) w v c inst args
        caller k
      let _ ← ev.runStatements (remaining k.statements)
      pure ()

def declareMethods (i : ObjectId) (inst : ScopeId) (k : ClassRef) (body : ClassBody) : Eval Unit := do
  let ms ← collect body.methods fun decl => do
    let m ← buildMethod decl inst
    let m := { m with declaringClass := some k }
    Run.setMethod inst m
    pure m
  Run.modify fun w => w.modifyObj i fun o => { o with classMethods := o.classMethods ++ [(k, ms)] }

def instanceScope (c : ClassRef) : Plain ScopeId := do
  let w ← Run.get
  let home := ((w.inheritedScript? c).map ScriptPart.staticScope).getD 0
  Run.newScope { name := w.className c, parent := some home, isClass := true }

def setUpScripted (v : Value) (c : ClassRef) (args : List Value) (caller : Node) : Eval Unit := do
  let w ← Run.get
  let inst ← instanceScope c
  Run.setClassInstance inst v
  match v with
  | .object i => do
    Run.updateObj i (fun o => { o with scope := some inst }) fun _ => ⟨rfl, rfl, rfl⟩
    Eval.withFrame inst do
      forEach (scriptedChain w c) fun e => declareMethods i inst e.1 e.2.body
      ev.constructLevel ev.fuel v c inst args caller none
  | _ => pure ()

def constructScripted (c : ClassRef) (args : List Value) (node : Node) : Eval Value := do
  let w ← Run.get
  let interface := ((w.inheritedScript? c).map ScriptPart.isInterface).getD false
  if interface || w.isInterface c then Eval.stop node (.abstractInstance (w.qualname c))
  else do
    let v ← Eval.catching (Run.newInstance c) fun _ e => some do
      let exception ← Run.exceptionOf e
      Eval.stopWith node "Object constructor" exception true
    ev.setUpScripted v c args node
    pure v

end Evaluator

end ScriptCore
