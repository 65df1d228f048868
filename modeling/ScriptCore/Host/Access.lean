import ScriptCore.Host.Special
import ScriptCore.Scope.Variable

namespace ScriptCore

namespace World

inductive Sequence where
  | text (s : String)
  | list (id : ObjectId) (items : List Value)
  | tuple (items : List Value)
  | range (items : List Value)
  | bytes (items : List Value)

def sequence? (w : World) (v : Value) : Option Sequence :=
  match v, w.payload? v with
  | .object i, some (.list items) => some (.list i items)
  | _, some (.tuple items) => some (.tuple items)
  | _, some (.range a b c) => some (.range (rangeItems a b c))
  | _, some (.bytes values) => some (.bytes (values.map fun (n : Nat) => .int n))
  | v, _ => (w.text? v).map .text

def Sequence.element? : Sequence → Nat → Except String Value
  | .text s, n =>
    match s.toList[n]? with
    | some c => .ok (.ofString (String.singleton c))
    | none => .error "string index out of range"
  | .list _ items, n => (items[n]?).elim (.error "list index out of range") .ok
  | .tuple items, n => (items[n]?).elim (.error "tuple index out of range") .ok
  | .range items, n => (items[n]?).elim (.error "range object index out of range") .ok
  | .bytes items, n => (items[n]?).elim (.error "index out of range") .ok

def tyOf (w : World) (v : Value) : Ty :=
  match w.payload? v with
  | some (.arrayType c) => .array c
  | _ => tyOfValue v

end World

namespace Run

def hostFailure {α : Type} (exception : Value) : Action .nothing .call α :=
  Action.failing (fun w => .hostCall (w.plainText exception) exception) fun _ => .of_makes trivial

section Lookup

-- `look` is the way in which an attribute is looked up.
variable {may : May} {t : Tier}

def heldAttribute (target : Value) (name : String) : Plain Attribute := read fun w => w.attributeOf target name

def memberBy (look : Value → String → Action may t Attribute) (b : Bridge) (target : Value)
    (name : String) : Action may t (Option Member) :=
  if b = .restricted && name.startsWith "hidden" then pure none
  else if name.startsWith "__" then pure none
  else do
    let a ← look target name
    match a with
    | .missing _ => pure none
    | .broken e => raise e
    | .value v => do
      let callable ← read fun w => w.isCallable v
      let isClass := match v with | .cls _ => true | _ => false
      pure (some { isMethod := callable && !isClass, owner := target, name, content := a })
    | .bound .. | .builtin .. => pure (some { isMethod := true, owner := target, name, content := a })
    | .type _ | .part .. | .asked .. => pure (some { isMethod := false, owner := target, name, content := a })

def hasFieldBy (look : Value → String → Action may t Attribute) (target : Value) (name : String) : Action may t Bool :=
  if name.startsWith "__" then pure false
  else do
    match ← look target name with
    | .missing _ => pure false
    | .broken e => raise e
    | _ => pure true

def noSuchField {α : Type} (name : String) : Action .nothing .bridge α :=
  Action.fail (.reflect ("No such field: " ++ name)) trivial

def fieldBy (look : Value → String → Action may .bridge Attribute) (target : Value)
    (name : String) : Action may .bridge Value :=
  if name.startsWith "__" then noSuchField name
  else do
    match ← look target name with
    | .missing _ => noSuchField name
    | .broken e => do
      let v ← newHostError e
      hostFailure v
    | a => do
      let v ← ofAttribute a
      read fun w => w.wrap v

end Lookup

def resolveMember : Bridge → Value → String → Plain (Option Member) := memberBy heldAttribute

def getField : Value → String → Action .nothing .bridge Value := fieldBy fun v name => heldAttribute v name

def takesAttributes (o : Obj) : Bool :=
  match o.payload, o.cls with
  | .list _, .core .list | .tuple _, .core .tuple | .dict _, .core .dict | .set _, .core .set => false
  | .range .., _ | .bound .., _ | .builtin .., _ | .classId _, _ | .arrayType _, _ | .cursor _, _ => false
  | .constant _, _ | .bytes _, .core _ | .plain, .core .object => false
  | _, _ => true

def refuseAttribute {α : Type} (v : Value) (name : String) : Plain α := do
  let c ← read fun w => w.classOf v
  let known ← read fun w => (w.member c name).isSome
  let shown ← read fun w => w.className c
  if known then raise ⟨.attributeError, "'" ++ shown ++ "' object attribute '" ++ name ++ "' is read-only"⟩
  else raise ⟨.attributeError, "'" ++ shown ++ "' object has no attribute '" ++ name ++ "'"⟩

def noSetter {α : Type} (v : Value) (name : String) : Plain α := do
  let shown ← read fun w => w.qualname (w.classOf v)
  raise ⟨.attributeError, "property '" ++ name ++ "' of '" ++ shown ++ "' object has no setter"⟩

variable (i : ObjectId)

def setArguments (x : Value) : Action .retype .proper Unit := do
  let w ← get
  match w.heldItems? x with
  | none => refuse "'" x "' object is not iterable"
  | some items => do
    let held ← newTuple items
    match (w.obj i).payload with
    | .failure f _ => retype i (.failure f held)
    | _ => retype i (.exception held)

def setInitial (name : String) (x : Value) : Action .retype .proper Bool := do
  let w ← get
  let done := fun (set : Action .retype .proper Unit) => do
    set
    pure true
  match (w.obj i).payload, name with
  | .array c _, "elements" => done (retype i (.array c x))
  | .array _ elements, "component_type" => done (retype i (.array (w.tyOf x) elements))
  | .classId _, "target" => done (retype i (.classId x))
  | .arrayType _, "component" => done (retype i (.arrayType (w.tyOf x)))
  | .exception _, "args" | .failure .., "args" => done (setArguments i x)
  | _, _ => pure false

def countsAsTrue (w : World) (v : Value) : Bool :=
  match w.number? v, w.sequence? v, w.payload? v with
  | some (.inl n), _, _ => decide (n ≠ 0)
  | some (.inr x), _, _ => !(x == 0.0)
  | none, some _, _ => ((w.heldItems? v).getD []).length ≠ 0
  | none, none, some (.dict entries) => !entries.isEmpty
  | none, none, some (.set items) => !items.isEmpty
  | none, none, _ => !v.isNone

def reconfigure (name : String) (x : Value) : Plain Unit :=
  updateRest
    (fun w =>
      let on := countsAsTrue w x
      let settings :=
        match name with
        | "strict" => { w.settings with strict := on, strictness := x, strictText := w.plainText x }
        | "debug" => { w.settings with debug := on }
        | "trace" => { w.settings with trace := on }
        | _ => w.settings
      { w with settings })
    fun _ => ⟨rfl, rfl, rfl, rfl, rfl, rfl, rfl⟩

def setOwnAttr (name : String) (x : Value) : Action .retype .proper Unit := do
  let o ← read fun w => w.obj i
  let found ← read fun w => w.member o.cls name
  match found with
  | some (.property .faultyBad) => raise ⟨.valueError, "bad assignment"⟩
  | some (.property _) => noSetter (.object i) name
  | _ => do
    if ← setInitial i name x then pure ()
    else if takesAttributes o then do
      updateObj i (fun o => { o with attrs := o.attrs.put name x }) fun _ => ⟨rfl, rfl, rfl⟩
      if o.cls = .core .configuration then reconfigure name x
    else refuseAttribute (.object i) name

/-- The attributes of a scope that say what it was made for and what it holds. A script that assigns
one of them reads back what it has assigned, but here the scope goes on as it was; statements about
later states ask that no script has. -/
def makings : List String :=
  ["parent", "executing_method", "caller_info", "class_instance", "class_static", "variables", "methods"]

/-- Assigns an attribute of a value that is no object of the store. The name, the package and the
marks of a scope take effect; what else is assigned is kept and can be read back. -/
def setPartAttr (owner : AttributeOwner) (name : String) (x : Value) : Plain Unit :=
  match owner, name, x with
  | .scope s, "name", .str n _ => updateScope s (fun y => { y with name := n }) fun _ => .of_eq rfl rfl
  | .scope s, "package", .str p _ => setPackage s (some p)
  | .scope s, "package", .none => setPackage s none
  | .scope s, "is_class", .bool b => updateScope s (fun y => { y with isClass := b }) fun _ => .of_eq rfl rfl
  | .scope s, "is_method", .bool b => updateScope s (fun y => { y with isMethod := b }) fun _ => .of_eq rfl rfl
  | owner, name, x =>
    Action.update (fun w => { w with assigned := (owner, name, x) :: w.assigned }) fun _ =>
      World.calm_assign owner name x

def scriptedVariable? (w : World) (i : ObjectId) (name : String) : Option ScopeId :=
  let o := w.obj i
  if name.startsWith "_" then none else o.scope.bind fun s => w.classVariable? s o.cls name

def setScriptedAttr (name : String) (x : Value) : Action .retype .proper Unit := do
  let scripted ← read fun w => scriptedVariable? w i name
  match scripted with
  | none => setOwnAttr i name x
  | some t => do
    let given ← read fun w => w.wrap x
    Action.converting (s := .fault) (assignVariable t name given false)
      (fun _ e =>
        match e with
        | .fault c _ => some (raise ⟨.typeError, c.message⟩)
        | _ => none)
      fun _ e _ hn => by cases e <;> simp_all [Tier.Allows]

def setMember (n : Nat) (name : String) (x : Value) : Plain Unit :=
  Action.update (·.modifyMade n fun m => { m with members := m.members.put name x }) fun _ =>
    World.calm_modifyMade n fun m => ⟨rfl, rfl, rfl, rfl, rfl, m.members.contains_put name x⟩

def setAttr (v : Value) (name : String) (x : Value) : Action .retype .proper Unit :=
  match v with
  | .cls c => do
    let computed ← read fun w => w.member (w.metaclass c) name
    match computed, c with
    | some (.property _), _ => noSetter v name
    | _, .core k =>
      raise ⟨.typeError, "cannot set '" ++ name ++ "' attribute of immutable type '" ++ k.name ++ "'"⟩
    | _, .library k => setPartAttr (.cls k) name x
    | _, .made n => setMember n name x
  | .module m => setPartAttr (.module m) name x
  | .object i => do
    let keeper ← read fun w => w.keeper (w.obj i).cls "__setattr__"
    match keeper with
    | .variables => setScriptedAttr i name x
    | _ => setOwnAttr i name x
  | .boxed .. | .null | .void => raise ⟨.attributeError, "Primitive values are immutable"⟩
  | v => do
    let computed ← read fun w => w.member (w.classOf v) name
    match computed, World.owner? v with
    | some (.property _), _ => noSetter v name
    | _, some owner => setPartAttr owner name x
    | _, none => refuseAttribute v name

def setFieldBy {may : May} (set : Value → String → Value → Action may .proper Unit) (target : Value)
    (name : String) (value : Value) : Action may .bridge Unit :=
  Action.catching (set target name value.unwrap) fun w e =>
    match hostException? w e with
    | none => none
    | some toException =>
      if isFailureOf w e .attributeError || isFailureOf w e .typeError then some do
        let v ← toException
        let shown ← read fun w => w.plainText v
        Action.fail (.reflect ("Can't set field: " ++ name ++ " : " ++ shown)) trivial
      else some do
        let v ← toException
        hostFailure v

def setField : Value → String → Value → Action .retype .bridge Unit := setFieldBy setAttr

def throwIndex {α : Type} (message shown : String) : Faulty α := throwInto ⟨.indexError, message⟩ (.text shown)

def arrayBounds (n : Int) : String := "Array index out of bounds: " ++ toString n

def setItems (items : List Value) : Plain Unit :=
  updateObj i
    (fun o =>
      match o.payload with
      | .list _ => { o with payload := .list items }
      | _ => o)
    fun o => by
      split
      · next h => exact ⟨rfl, rfl, by simp [h, Payload.component?]⟩
      · exact .refl o

def arraySet (n : Int) (value : Value) : Faulty Unit := do
  let w ← get
  match (w.obj i).payload with
  | .array c elements => do
    let items := (w.itemsOf? elements).getD []
    if n < 0 || n ≥ items.length then raise ⟨.indexError, arrayBounds n⟩
    else do
      let v ← cast value c .assignment
      match elements with
      | .object held => setItems held (items.set n.toNat v)
      | _ => pure ()
  | _ => pure ()

def outsideSequence {α : Type} {may : May} (n : Int) (x : Action may .any α) : Action may .any α :=
  Action.catching x fun w e =>
    match hostException? w e with
    | none => none
    | some toException =>
      if isFailureOf w e .indexError then some do
        let v ← toException
        Action.fail (.fault (.text ("Index out of bounds: " ++ toString n)) (some ⟨v, false⟩)) trivial
      else none

def checkPosition (n : Int) : Plain Unit :=
  if n < 0 then raise ⟨.indexError, "index " ++ toString n ++ " out of range"⟩ else pure ()

end Run

namespace Evaluator

variable (ev : Evaluator)

def resolveMember : Bridge → Value → String → ev.Host (Option Member) := Run.memberBy ev.lookUp

def hasField : Value → String → ev.Host Bool := Run.hasFieldBy ev.lookUp

def getField : Value → String → Action ev.may .bridge Value :=
  Run.fieldBy fun target name =>
    Action.catching (ev.lookUp target name) fun _ e => some do
      let v ← Run.exceptionOf e
      let shown ← ev.text v
      Action.fail (.hostCall shown v) trivial

def setAttr (ev : Evaluator) (v : Value) (name : String) (x : Value) : ev.Host Unit := do
  let w ← Run.get
  let keeper := match v with | .object i => w.keeper (w.obj i).cls "__setattr__" | _ => .itself
  match keeper with
  | .given f => do
    let _ ← ev.ask f v [.ofString name, x]
    pure ()
  | _ => Run.setAttr v name x

def setField : Value → String → Value → Action ev.may .bridge Unit := Run.setFieldBy ev.setAttr

def getIndex (target : Value) (n : Int) : Action ev.may .any Value := do
  let w ← Run.get
  match w.array? target with
  | some (_, items) =>
    if n < 0 then Run.throwIndex (Run.arrayBounds n) (Run.arrayBounds n)
    else
      match items[n.toNat]? with
      | some v => pure v
      | none => Run.throwIndex (Run.arrayBounds n) (Run.arrayBounds n)
  | none =>
    match w.sequence? target with
    | none => Action.fail (.reflect "Not an array or sequence") trivial
    | some seq =>
      Run.outsideSequence n do
        Run.checkPosition n
        let v ←
          match w.answer target "__getitem__" with
          | .given f => ev.ask f target [.int n]
          | _ =>
            match seq.element? n.toNat with
            | .ok v => pure v
            | .error m => Run.raise ⟨.indexError, m⟩
        Run.read fun w => w.wrap v

def setIndex (target : Value) (n : Int) (value : Value) : Action ev.may .any Unit := do
  let w ← Run.get
  match w.array? target, target with
  | some (_, items), .object i =>
    if n < 0 || n ≥ items.length then Run.throwIndex (Run.arrayBounds n) (Run.arrayBounds n)
    else Run.arraySet i n value
  | _, _ =>
    match w.sequence? target with
    | some (.list i items) =>
      Run.outsideSequence n do
        Run.checkPosition n
        match w.answer target "__setitem__" with
        | .given f => do
          let _ ← ev.ask f target [.int n, value.unwrap]
          pure ()
        | _ =>
          if n ≥ items.length then Run.raise ⟨.indexError, "list assignment index out of range"⟩
          else Run.setItems i (items.set n.toNat value.unwrap)
    | _ => Action.fail (.reflect "Not a mutable array or sequence") trivial

end Evaluator

end ScriptCore
