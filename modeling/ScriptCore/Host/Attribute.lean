import ScriptCore.Host.Inspection

namespace ScriptCore

namespace World

variable (w : World) (v : Value)

def missingOn (name : String) : String :=
  "'" ++ w.valueClassName v ++ "' object has no attribute '" ++ name ++ "'"

def classView : Value → Value
  | .staticFunction f => .function f
  | v => v

def boundView : Value → Attribute
  | .function f => .bound v f
  | .staticFunction f => .value (.function f)
  | .coreMethod _ n => .builtin v n
  | x => .value x

def wordsOf? : ClassRef → Option Value
  | .core _ => none
  | .library c => some ((c.words?.map Value.ofString).getD .none)
  | .made _ => some .none

def inheritedParts : List String := ["__new__", "__init_subclass__", "__subclasshook__"]

def classDescription (c : ClassRef) (name : String) : Attribute :=
  let missing := Attribute.missing ("type object '" ++ w.className c ++ "' has no attribute '" ++ name ++ "'")
  let declared := match c with | .core _ => false | _ => true
  match name with
  | "__name__" => .value (.ofString (w.className c))
  | "__qualname__" => .value (.ofString (w.qualname c))
  | "__module__" => .value (.ofString (w.moduleName c))
  | "__class__" => .value (.cls (w.metaclass c))
  | "__base__" => .value (((w.bases c).head?.map Value.cls).getD .none)
  | "__text_signature__" => .value .none
  | "__mro__" | "__bases__" | "__dict__" => .part (.cls c) name
  | "__doc__" => .value ((wordsOf? c).getD .none)
  | "__annotations__" | "__weakref__" => if declared then .part (.cls c) name else missing
  | "__abstractmethods__" =>
    if w.isSubclass (w.metaclass c) (.core .abstractMeta) then .part (.cls c) name else .missing name
  | "_jive_body" => if (w.inheritedScript? c).isSome then .part (.cls c) name else missing
  | _ => if inheritedParts.contains name then .part (.cls c) name else missing

def classAttribute (c : ClassRef) (name : String) : Attribute :=
  let above := w.member (w.metaclass c) name
  match above, w.member c name with
  | some (.property _), _ => .broken ⟨.valueError, "broken class attribute"⟩
  | _, some v => .value (classView v)
  | some x, none => boundView (.cls c) x
  | none, none => w.classDescription c name

def moduleAttribute (m : Module) (name : String) : Attribute :=
  match w.assigned? (.module m) name with
  | some v => .value v
  | none =>
    match m.member name, w.member (.core .module) name, name with
    | some v, _, _ => .value v
    | none, some x, _ => boundView (.module m) x
    | none, none, "__class__" => .value (.cls (.core .module))
    | none, none, "__dict__" => .part (.module m) name
    | none, none, "__doc__" | none, none, "__package__" | none, none, "__loader__" | none, none, "__spec__" => .value .none
    | none, none, _ =>
      if inheritedParts.contains name then .part (.cls (.core .module)) name
      else .missing ("module '" ++ m.name ++ "' has no attribute '" ++ name ++ "'")

def arraySize : Attribute :=
  match w.payload? v with
  | some (.array _ elements) =>
    match w.itemsOf? elements with
    | some items => .value (.int items.length)
    | none => .broken ⟨.typeError, "object of type '" ++ w.valueClassName elements ++ "' has no len()"⟩
  | _ => .value (.int 0)

def computedAttribute (name : String) : Attribute :=
  match v, w.payload? v, name with
  | _, some (.array ..), "length" => w.arraySize v
  | _, some (.array c _), "type" => .type (.array c)
  | _, some (.arrayType c), "dimensions" => .value (.int (c.dimensions + 1 : Nat))
  | _, some (.arrayType c), _ => .type c.baseType
  | .primType t, _, "is_numeric" => .value (.bool t.isNumeric)
  | .primType t, _, _ => .value (.bool t.isIntegral)
  | .interpreter, _, "strict" => .value w.settings.strictness
  | .scope _, _, "bridge" => .part v name
  | _, _, _ => .missing (w.missingOn v name)

def propertyAttribute : HostProperty → Attribute
  | .faultyBad => .broken ⟨.valueError, "bad property"⟩
  | .faultyReadonly => .value (.int 7)
  | .metaBroken => .broken ⟨.valueError, "broken class attribute"⟩
  | .core _ name => w.computedAttribute v name

def fixedAttribute? (o : Obj) (name : String) : Option Attribute :=
  match o.payload, name with
  | .exception args, "args" | .failure _ args, "args" => some (.value args)
  | .classId t, "target" => some (.value t)
  | .arrayType c, "component" => some (.type c)
  | _, _ => none

def initialAttribute? (o : Obj) (name : String) : Option Attribute :=
  match o.payload, name with
  | .array _ elements, "elements" => some (.value elements)
  | .array c _, "component_type" => some (.type c)
  | .failure (.fault c _) _, "message" => some (.value (.ofString c.message))
  | .failure (.fault _ (some t)) _, "target" => some (.value t.exception)
  | .failure (.fault _ (some t)) _, "in_native" => some (.value (.bool t.native))
  | .failure (.hostCall _ t) _, "target" => some (.value t)
  | _, "_jive_this" => o.scope.map fun s => .value (.closure s)
  | _, "_jive_target" => o.target.map fun s => .value (.closure s)
  | _, _ => none

inductive Keeper where
  | itself
  | variables
  | given (f : Value)

def keeper (c : ClassRef) (name : String) : Keeper :=
  match w.member c name with
  | some (.function (.generated n)) =>
    match w.generated n with
    | .readVariable | .writeVariable => .variables
    | _ => .given (.function (.generated n))
  | some (.coreMethod ..) | none => .itself
  | some f => .given f

def scriptedAttribute (i : ObjectId) (name : String) : Attribute :=
  let o := w.obj i
  if name.startsWith "_" then .missing name
  else
    match o.scope with
    | none => .missing name
    | some s =>
      match w.classVariable? s o.cls name with
      | some t => .value (w.variableValue t name)
      | none => .missing (w.missingOn (.object i) name)

def objectDescription? (name : String) : Option Attribute :=
  let c := w.classOf v
  let declared := match c with | .core _ => false | _ => true
  match v, name with
  | .object _, "__dict__" => if declared then some (.part v name) else none
  | .object i, "_jive_class_methods" => if (w.obj i).scope.isSome then some (.part v name) else none
  | _, "__module__" => if declared then some (.value (.ofString (w.moduleName c))) else none
  | _, "__doc__" => (wordsOf? c).map .value
  | _, "__weakref__" => if declared then some (.value .none) else none
  | _, "_jive_body" => if (w.inheritedScript? c).isSome then some (.part (.cls c) name) else none
  | _, _ => if inheritedParts.contains name then some (.part (.cls c) name) else none

def fallbackAttribute (name : String) : Attribute :=
  match v with
  | .object i =>
    match w.keeper (w.obj i).cls "__getattr__" with
    | .itself => .missing (w.missingOn v name)
    | .variables => w.scriptedAttribute i name
    | .given f => .asked f v name
  | v => .missing (w.missingOn v name)

def ofOption (v : Option Value) : Value := v.getD .none

def partAttribute? (name : String) : Option Attribute :=
  let give := fun (x : Value) => some (Attribute.value x)
  match v with
  | .boxed p m =>
    match name with
    | "value" => give (.ofPrimitive p m)
    | "type" => some (.type (.prim p.type))
    | _ => none
  | .null | .void =>
    match name with
    | "value" => give (.ofString (if v.isNull then "NULL" else "VOID"))
    | "type" => give .none
    | _ => none
  | .primType t =>
    match name with
    | "name" => give (.ofString t.name)
    | "box" => give ((t.boxClass?.map fun c => Value.cls (.core c)).getD .none)
    | "rank" => give (.int ((t.rank?.map Int.ofNat).getD (-1)))
    | _ => none
  | .closure s =>
    match name with
    | "namespace" => give (.scope s)
    | "interpreter" => give .interpreter
    | _ => none
  | .scope s =>
    let x := w.scope s
    match name with
    | "name" => give (.ofString x.name)
    | "parent" => give (ofOption (x.parent.map Value.scope))
    | "package" => give (ofOption (x.package.map Value.ofString))
    | "is_class" => give (.bool x.isClass)
    | "is_method" => give (.bool x.isMethod)
    | "class_static" => give (ofOption x.classStatic)
    | "class_instance" => give (ofOption x.classInstance)
    | _ => if Run.scopeParts.contains name then some (.part v name) else none
  | .signal n =>
    let sig := w.signal n
    match name with
    | "kind" => give (.ofString sig.kind.name)
    | "value" => give sig.value
    | "node" => some (.part v name)
    | _ => none
  | .interpreter =>
    match name with
    | "global_namespace" => give (.scope w.global)
    | "config" => give w.settings.configuration
    | "evaluator" | "class_generator" => some (.part v name)
    | _ => none
  | _ => none

/-- What a value that is no object of the store belongs to, when an attribute of it is assigned. -/
def owner? : Value → Option AttributeOwner
  | .function f | .staticFunction f => some (.function f)
  | .closure s => some (.closure s)
  | .scope s => some (.scope s)
  | .stack n => some (.stack n)
  | .interpreter => some .interpreter
  | _ => none

def ownAttribute? (name : String) : Option Attribute :=
  match v with
  | .object i =>
    let o := w.obj i
    match o.attrs.get? name with
    | some x => some (.value x)
    | none => initialAttribute? o name
  | v =>
    match (owner? v).bind fun o => w.assigned? o name with
    | some x => some (.value x)
    | none => w.partAttribute? v name

/-- What a host value holds under a name. Computed attributes of its class come first, then what the
value holds itself, then the other members of its class. -/
def attributeOf (name : String) : Attribute :=
  match v with
  | .cls c => w.classAttribute c name
  | .module m => w.moduleAttribute m name
  | v =>
    if name = "__class__" then .value (.cls (w.classOf v))
    else
      let fixed := match v with | .object i => fixedAttribute? (w.obj i) name | _ => none
      match fixed, w.member (w.classOf v) name with
      | some a, _ => a
      | none, some (.property p) => w.propertyAttribute v p
      | none, found =>
        match w.ownAttribute? v name, found with
        | some a, _ => a
        | none, some x => boundView v x
        | none, none =>
          match w.objectDescription? v name with
          | some a => a
          | none => w.fallbackAttribute v name

def isCallable : Bool :=
  match v with
  | .function _ | .staticFunction _ | .coreMethod .. | .cls _ => true
  | .object i => (w.member (w.obj i).cls "__call__").isSome
  | _ => false

end World

structure Arity where
  lo : Nat
  hi : Nat
  deriving DecidableEq, Repr

namespace Arity

def unbounded : Nat := 65536

def contains (a : Arity) (n : Nat) : Bool := decide (a.lo ≤ n) && decide (n < a.hi)

def ofSignature (s : Signature) : Arity := ⟨s.required, if s.variadic then unbounded else s.parameters.length + 1⟩

def bound (a : Arity) : Arity := ⟨a.lo - 1, if a.hi = unbounded then unbounded else a.hi - 1⟩

def unbound (a : Arity) : Arity := ⟨a.lo + 1, a.hi + 1⟩

def ofGenerated : Generated → Arity
  | .instanceMember .. | .proxyMember .. | .setUp _ => ⟨1, unbounded⟩
  | .staticMember .. => ⟨0, unbounded⟩
  | .text | .hash | .proxyText | .proxyShow | .proxyHash => ⟨1, 2⟩
  | .equal | .proxyEqual | .readVariable => ⟨2, 3⟩
  | .writeVariable => ⟨3, 4⟩

variable (w : World)

def ofFunction : HostFn → Arity
  | .library f => ofSignature f.signature
  | .generated n => ofGenerated (w.generated n)

def ofCoreMethod? (c : CoreClass) (name : String) : Option Arity :=
  match c, name with
  | .list, "append" | .list, "count" | .list, "extend" => some ⟨1, 2⟩
  | .list, "index" => some ⟨1, 4⟩
  | .list, "insert" => some ⟨2, 3⟩
  | .list, "pop" => some ⟨0, 2⟩
  | .dict, "get" => some ⟨1, 3⟩
  | .str, "isdigit" | .str, "lower" | .str, "upper" | .type, "mro" => some ⟨0, 1⟩
  | .str, "join" => some ⟨1, 2⟩
  | .str, "replace" => some ⟨2, 4⟩
  | .str, "split" => some ⟨0, 3⟩
  | .str, "strip" => some ⟨0, 2⟩
  | c, name => ((c.functions.find? fun e => e.1 = name).map Prod.snd).map fun s => (ofSignature s).bound

def ofCoreClass? : CoreClass → Option Arity
  | .float | .list | .tuple => some ⟨0, 2⟩
  | .object | .abstractBase | .bridge | .iterable => some ⟨0, 1⟩
  | .array | .closure => some ⟨2, 3⟩
  | _ => none

def ofClass? (c : ClassRef) : Option Arity :=
  let chain := w.mro c
  if chain.contains (.library .noNew) then some ⟨0, 1⟩
  else
    match (chain.find? w.setsUp).bind fun k => w.ownMember k "__init__" with
    | some (.function f) => some (ofFunction w f).bound
    | _ => (chain.findSome? fun k => match k with | .core k => some (ofCoreClass? k) | _ => none).getD none

def ofValue? : Value → Option Arity
  | .function f | .staticFunction f => some (ofFunction w f)
  | .coreMethod c n => (ofCoreMethod? c n).map unbound
  | .cls c => ofClass? w c
  | .object i =>
    match (w.obj i).payload with
    | .bound _ f => some (ofFunction w f).bound
    | .builtin self n => ofCoreMethod? (w.coreHome self n) n
    | _ =>
      match w.member (w.obj i).cls "__call__" with
      | some (.function f) => some (ofFunction w f).bound
      | _ => none
  | _ => none

def ofAttribute? : Attribute → Option Arity
  | .value v => ofValue? w v
  | .bound _ f => some (ofFunction w f).bound
  | .builtin self n => ofCoreMethod? (w.coreHome self n) n
  | _ => none

end Arity

namespace Run

def ofAttribute : Attribute → Plain Value
  | .value v => pure v
  | .bound self f => alloc { cls := .core .method, payload := .bound self f }
  | .builtin self n => do
    let home ← read fun w => w.coreHome self n
    let kind := if home.hasFunctions then CoreClass.method else if home.isSlot n then .methodWrapper else .builtinMethod
    alloc { cls := .core kind, payload := .builtin self n }
  | .type t => ofType t
  | .part owner name => inspect owner name
  | .asked _ self name => do
    let w ← get
    raise ⟨.attributeError, w.missingOn self name⟩
  | .missing m => raise ⟨.attributeError, m⟩
  | .broken e => raise e

def getAttr (v : Value) (name : String) : Plain Value := do
  let a ← read fun w => w.attributeOf v name
  ofAttribute a

end Run

end ScriptCore
