import ScriptCore.Registry

namespace ScriptCore

namespace World

variable (w : World) (s : ScopeId)

def importedClass? (name : String) : Option String :=
  (w.ancestry s).findSome? fun t => (w.scope t).importedClasses.get? name

def importedPackages (w : World) (s : ScopeId) : List String :=
  (w.ancestry s).flatMap fun t => (w.scope t).importedPackages.reverse

/-- The full names that a class name may stand for in a scope, in the order they are tried: the
imported name, the one in the package, the name itself, and those in the imported packages. -/
def candidates (name : String) : List String :=
  let imported := (w.importedClass? s name).toList
  let packaged :=
    match w.packageOf s with
    | some p => if p.isEmpty then [] else [p ++ "." ++ name]
    | none => []
  let wild := if Path.isCompound name then [] else (w.importedPackages s).map fun p => p ++ "." ++ name
  imported ++ packaged ++ [name] ++ wild

def classInstance? : Option Value :=
  ((w.ancestry s).findSome? fun t =>
    let x := w.scope t
    match x.classInstance with
    | some v => some (some v)
    | none => if x.classStatic.isSome then some none else none).join

def classScope? : Option ScopeId :=
  (w.ancestry s).findSome? fun t =>
    let x := w.scope t
    if x.isClass then some t
    else
      match x.parent with
      | some p => if x.isMethod && (w.scope p).isClass then some p else none
      | none => none

end World

namespace Run

variable (s : ScopeId)

def declaringScope : Plain ScopeId := read fun w => w.enclosing s

def importClass (name : String) (short : Option String) : Plain Unit := do
  let t ← declaringScope s
  let key := match short with | some a => if a.isEmpty then Path.last name else a | none => Path.last name
  updateScope t (fun x => { x with importedClasses := x.importedClasses.put key name }) fun _ => .of_eq rfl rfl
  forgetNames t

def importPackage (name : String) : Plain Unit := do
  let t ← declaringScope s
  updateScope t (fun x => { x with importedPackages := x.importedPackages.erase name ++ [name] }) fun _ => .of_eq rfl rfl
  forgetNames t

def importStatic (c : Value) : Plain Unit := do
  updateScope s (fun x => { x with importedStatic := (x.importedStatic.eraseP fun v => v.same c) ++
    [c] }) fun _ => .of_eq rfl rfl
  forgetNames s

def importObjects (values : List Value) : Plain Unit := do
  updateScope s (fun x => { x with importedObjects := values }) fun _ => .of_eq rfl rfl
  forgetNames s

def newRoot (name : Option String) (registry : Registry) (imports : List String) : Plain ScopeId := do
  let r ← newRegistry registry
  let shown := match name with | some n => if n.isEmpty then "anonymous" else n | none => "anonymous"
  let s ← newScope { name := shown, registry := some r, defaultImports := imports }
  forEach imports fun p => importPackage s p
  pure s

def newChild (parent : ScopeId) (name : Option String) : Plain ScopeId :=
  let shown := match name with | some n => if n.isEmpty then "anonymous" else n | none => "anonymous"
  newScope { name := shown, parent := some parent }

def newBlock (parent : ScopeId) (name : Option String) : Plain ScopeId := do
  let base ← read fun w => (w.scope parent).name
  let own := base ++ "/BlockNameSpace"
  let shown := match name with | some n => if n.isEmpty then own else n | none => own
  newScope { name := shown, parent := some parent, isBlock := true }

def clearScope : Action .storing .proper Unit := do
  updateVars s fun _ => {}
  updateScope s
    (fun x =>
      { x with methods := {}, importedClasses := {}, importedPackages := [], importedObjects := [],
               importedStatic := [] })
    fun _ => .of_subset (List.nil_subset _) rfl
  let x ← read fun w => w.scope s
  if x.parent.isNone then forEach x.defaultImports fun p => importPackage s p else pure ()
  forgetNames s

def setClassInstance (v : Value) : Plain Unit := do
  updateScope s (fun x => { x with classInstance := some v }) fun _ => .of_eq rfl rfl
  forgetNames s

def setClassStatic (c : Value) : Plain Unit := do
  updateScope s (fun x => { x with classStatic := some c }) fun _ => .of_eq rfl rfl
  forgetNames s

def searchClass (name : String) : Plain (Option Value) := do
  let w ← get
  firstSome (w.candidates s name) fun full => classForName (w.registryId s) full

def getClass (name : String) : Plain (Option Value) := do
  let hit ← read fun w => (w.memory s).classes.get? name
  match hit with
  | some c => pure (some c)
  | none => do
    match ← searchClass s name with
    | none => pure none
    | some c => do
      updateMemory s (fun m => { m with classes := m.classes.put name c }) fun _ _ _ h => h
      pure (some c)

def addOverload (ms : List Method) (m : Method) : List Method :=
  match ms with
  | [] => [m]
  | x :: rest => if x.paramTypes = m.paramTypes then m :: rest else x :: addOverload rest m

def setMethod (m : Method) : Run Unit := do
  let t ← declaringScope s
  modify fun w => w.modifyScope t fun x =>
    { x with methods := x.methods.put m.name (addOverload ((x.methods.get? m.name).getD []) m) }
  forgetNames t

def unsetMethod (name : String) : Plain Unit := do
  let held ← read fun w => (w.scope s).methods.contains name
  if held then do
    updateScope s (fun x => { x with methods := x.methods.erase name }) fun x =>
      .of_subset (x.methods.values_erase_subset name) rfl
    forgetNames s
  else pure ()

def declaredMethod (name : String) (types : List Ty) : Faulty (Option Method) := do
  let ms ← read fun w => ((w.scope s).methods.get? name).getD []
  let best ← read fun w => w.mostSpecific types (ms.map Method.paramTypes)
  match best with
  | .error c => fault c
  | .ok none => pure none
  | .ok (some i) => pure ms[i]?

def importedMethod (name : String) (types : List Ty) : Faulty (Option Method) := do
  let w ← get
  firstSome (w.importTargets s) fun target =>
    match target with
    | .closure t => declaredMethod t name types
    | target => do
      match ← resolveMember (w.bridge s) target name with
      | none => pure none
      | some m =>
        let takes := ((Arity.ofAttribute? w m.content).map fun a => a.contains types.length).getD true
        if m.isMethod && takes then
          pure (some { name, home := s, member := some m
                       params := (List.range types.length).map fun i =>
                         { name := "arg" ++ toString i, type := .untyped } })
        else pure none

def localMethod (name : String) (types : List Ty) : Faulty (Option Method) := do
  let isClass ← read fun w => (w.scope s).isClass
  let sources := if isClass then [importedMethod, declaredMethod] else [declaredMethod, importedMethod]
  firstSome sources fun find => find s name types

def findMethod (name : String) (types : List Ty) : Faulty (Option Method) := do
  let scopes ← read fun w => w.ancestry s
  firstSome scopes fun t => localMethod t name types

end Run

namespace World

def isWithin (w : World) (s home : ScopeId) : Bool := (w.ancestry s).contains home

def declaresMethod (w : World) (s : ScopeId) (name : String) (count : Nat) : Bool :=
  (w.ancestry s).any fun t => (((w.scope t).methods.get? name).getD []).any fun m => m.params.length == count

end World

end ScriptCore
