import ScriptCore.Host.Catalogue

namespace ScriptCore.World

def mro (w : World) : ClassRef → List ClassRef
  | .core c => c.mro.map .core
  | .library c => c.mro
  | .made n => .made n :: (w.made n).ancestors

variable (w : World) (c : ClassRef)

theorem self_mem_mro : c ∈ w.mro c := by
  cases c with
  | core k => cases k <;> simp [mro, CoreClass.mro, CoreClass.ancestry, CoreClass.base]
  | library k => exact List.mem_cons_self
  | made n => exact List.mem_cons_self

theorem object_mem_mro : .core .object ∈ w.mro c := by
  have core (k : CoreClass) : .object ∈ k.mro := by
    cases k <;> simp [CoreClass.mro, CoreClass.ancestry, CoreClass.base]
  cases c with
  | core k => exact List.mem_map_of_mem (core k)
  | library k =>
    refine List.mem_cons_of_mem _ ?_
    split
    · exact List.mem_cons_of_mem _ List.mem_cons_self
    · next k _ => exact List.mem_map_of_mem (core k)
  | made n => exact List.mem_cons_of_mem _ (w.made n).object_mem

def bases (w : World) : ClassRef → List ClassRef
  | .core c => (c.base.map ClassRef.core).toList
  | .library c =>
    match c.parent with
    | .inl p => [.library p]
    | .inr k => [.core k]
  | .made n => (w.made n).bases

def className : ClassRef → String
  | .core c => c.name
  | .library c => c.name
  | .made n => (w.made n).name

def qualname (w : World) : ClassRef → String
  | .core c => c.name
  | .library c => c.qualname
  | .made n => (w.made n).qualname

def moduleName : ClassRef → String
  | .core c => c.home
  | .library c => c.home.name
  | .made n => (w.made n).module

def metaclass (w : World) : ClassRef → ClassRef
  | .core .abstractBase | .core .iterable => .core .abstractMeta
  | .core _ => .core .type
  | .library .greeter | .library .labelled => .core .abstractMeta
  | .library .weird => .library .metaClass
  | .library _ => .core .type
  | .made n => (w.made n).metaclass

def abstracts (w : World) : ClassRef → List String
  | .core .iterable => ["__iter__"]
  | .core _ => []
  | .library c => c.abstracts
  | .made n => (w.made n).abstracts

def isInterface : Bool := !(w.abstracts c).isEmpty

def script? : ClassRef → Option ScriptPart
  | .made n => (w.made n).script
  | _ => none

def inheritedScript? : Option ScriptPart := (w.mro c).findSome? w.script?

def assigned? (owner : AttributeOwner) (name : String) : Option Value :=
  (w.assigned.find? fun e => decide (e.1 = owner) && e.2.1 == name).map fun e => e.2.2

/-- No script has assigned one of these attributes of a scope. -/
def Unassigned (names : List String) : Prop :=
  ∀ s : ScopeId, ∀ name ∈ names, w.assigned? (.scope s) name = none

theorem unassigned_of_nil {w : World} (h : w.assigned = []) (names : List String) : w.Unassigned names := by
  intro s name _
  rw [assigned?, h]
  rfl

def ownMember (name : String) : Option Value :=
  match c with
  | .core k => k.member name
  | .library k =>
    match w.assigned? (.cls k) name with
    | some v => some v
    | none => (k.members.find? fun e => e.1 = name).map Prod.snd
  | .made n => (w.made n).members.get? name

def memberIn (chain : List ClassRef) (name : String) : Option Value :=
  chain.findSome? fun k => w.ownMember k name

def member (name : String) : Option Value := w.memberIn (w.mro c) name

def ownMembers : ClassRef → List (String × Value)
  | .core k => (k.methodNames ++ k.specials).map fun n => (n, .coreMethod k n)
  | .library k => k.members.map fun e => (e.1, (w.assigned? (.cls k) e.1).getD e.2)
  | .made n => (w.made n).members.entries

def iterates (w : World) : ClassRef → Bool
  | .core k => k.iterates
  | c => (w.ownMember c "__iter__").isSome

def isSubclass (c d : ClassRef) : Bool :=
  (w.mro c).contains d || (decide (d = .core .iterable) && (w.mro c).any w.iterates)

def setsUp : Bool := (w.ownMember c "__init__").isSome

def classOf : Value → ClassRef
  | .null | .void | .boxed .. => .core .primitive
  | .none => .core .noneType
  | .bool _ => .core .bool
  | .int _ => .core .int
  | .float .. => .core .float
  | .str _ _ => .core .str
  | .object i => (w.obj i).cls
  | .cls c => w.metaclass c
  | .module _ => .core .module
  | .primType _ => .core .primitiveType
  | .function _ | .staticFunction _ => .core .function
  | .property _ => .core .property
  | .coreMethod c n =>
    .core (if c.hasFunctions then .function else if c.isSlot n then .slotWrapper else .methodDescriptor)
  | .closure _ => .core .closure
  | .scope s => .core (if (w.scope s).isBlock then .blockScope else .scope)
  | .signal _ => .core .signal
  | .stack _ => .core .callStack
  | .interpreter => .core .interpreter

variable (v : Value)

def isInstance (c : ClassRef) : Bool := w.isSubclass (w.classOf v) c

def isException : Bool := w.isInstance v (.core .baseException)

def payload? : Value → Option Payload
  | .object i => some (w.obj i).payload
  | _ => none

def itemsOf? : Option (List Value) :=
  match w.payload? v with
  | some (.list items) | some (.tuple items) => some items
  | _ => none

def array? : Option (Ty × List Value) :=
  match w.payload? v with
  | some (.array c elements) =>
    if w.isInstance v (.core .array) then some (c, (w.itemsOf? elements).getD []) else none
  | _ => none

def text? : Value → Option String
  | .str s _ => some s
  | .object i =>
    match (w.obj i).payload with
    | .text s => some s
    | _ => none
  | _ => none

def number? : Value → Option (Int ⊕ Float)
  | .int n => some (.inl n)
  | .bool b => some (.inl (if b then 1 else 0))
  | .float x _ => some (.inr x)
  | .object i =>
    match (w.obj i).payload with
    | .integer n => some (.inl n)
    | .real x _ => some (.inr x)
    | _ => none
  | _ => none

def integer? : Option Int :=
  match w.number? v with
  | some (.inl n) => some n
  | _ => none

/-- A host value as a script sees it. Objects of classes that extend numbers are boxed like the
numbers they hold. -/
def wrap (w : World) : Value → Value
  | .object i =>
    match (w.obj i).payload with
    | .integer n => Value.wrap (.int n)
    | .real x m => Value.wrap (.float x m)
    | _ => .object i
  | v => v.wrap

def exceptionArgs? : Option (List Value) :=
  match w.payload? v with
  | some (.exception args) | some (.failure _ args) => w.itemsOf? args
  | _ => none

def isArray : Bool := (w.array? v).isSome

def classId? : Value → Option Value
  | .object i =>
    match (w.obj i).payload with
    | .classId t => some t
    | _ => none
  | _ => none

def instanceScope? : Value → Option ScopeId
  | .object i => (w.obj i).scope
  | _ => none

def staticScope? : Value → Option ScopeId
  | .cls c => (w.inheritedScript? c).map ScriptPart.staticScope
  | _ => none

def hostView : Value := (w.classId? v).getD v.unwrap

def typeOf : Ty :=
  match v with
  | .null => .untyped
  | .void => .prim .void
  | .boxed p _ => .prim p.type
  | v =>
    match w.array? v with
    | some (c, _) => .array c
    | none => .cls (w.classOf v)

def typesOf (vs : List Value) : List Ty := vs.map w.typeOf

def typeName (w : World) : Ty → String
  | .untyped => "loose"
  | .prim p => p.name
  | .array c => w.typeName c ++ "[]"
  | .cls c => w.qualname c
  | .module m => m.name

def argTypeName : Ty → String
  | .untyped => "null"
  | t => w.typeName t

def valueClassName : String := w.className (w.classOf v)

def classLabel : String :=
  match w.classOf v with
  | .core .date | .core .datetime => "datetime." ++ w.valueClassName v
  | _ => w.valueClassName v

def tyOfValue : Value → Ty
  | .cls c => .cls c
  | .module m => .module m
  | .primType p => .prim p
  | _ => .untyped

end ScriptCore.World
