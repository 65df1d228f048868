import ScriptCore.Report

namespace ScriptCore.Run

def ofType : Ty → Plain Value
  | .untyped => pure .none
  | .prim p => pure (.primType p)
  | .array c => alloc { cls := .core .arrayType, payload := .arrayType c }
  | .cls c => pure (.cls c)
  | .module m => pure (.module m)

def partObject (c : CoreClass) (shown : String) (parts : List (String × Value)) : Plain Value :=
  alloc { cls := .core c, payload := .constant shown, attrs := ⟨parts⟩ }

def newMapping (entries : List (String × Value)) : Plain Value :=
  alloc
    { cls := .core .dict
      payload := .dict (entries.map fun e => { key := .ofString e.1, value := e.2, hash := .text e.1 }) }

def newTexts (l : List String) : Plain Value := newList (l.map Value.ofString)

def modifiersPart (m : Modifiers) : Plain Value :=
  if m.names.isEmpty then pure .none
  else
    let sorted := m.names.mergeSort fun a b => a ≤ b
    partObject .modifierSet ("Modifiers(" ++ World.commaList sorted ++ ")") []

def nodePart (n : Node) : Plain Value :=
  if n.isAbsent then pure .none
  else do
    let text ← read fun w => w.nodeText n
    partObject (.node n.kind) ("<" ++ n.kind ++ " " ++ Quoted.quote text ++ ">")
      [("file", .ofString n.file), ("line", .int n.line), ("text", .ofString text)]

def variablePart (name : String) (v : Variable) : Plain Value := do
  let type ← ofType v.type
  let modifiers ← modifiersPart v.modifiers
  let shown ← read fun w => w.variableText name v
  partObject .variableValue shown
    [("name", .ofString name), ("type", type), ("modifiers", modifiers), ("lvalue", .none),
      ("value", v.value.getD .none)]

def methodPart (m : Method) : Plain Value := do
  let returnType ← ofType m.returnType
  let names ← newTexts (m.params.map MethodParam.name)
  let types ← collect m.params fun p => ofType p.type
  let types ← newList types
  let paramModifiers ← collect m.params fun p => modifiersPart p.modifiers
  let paramModifiers ← newList paramModifiers
  let body ← nodePart m.body
  let modifiers ← modifiersPart m.modifiers
  let node ← nodePart m.node
  let shown ← read fun w => w.methodText m
  partObject .methodValue shown
    [("name", .ofString m.name), ("return_type", returnType), ("param_names", names), ("param_types", types),
      ("param_modifiers", paramModifiers), ("body", body), ("declaring_namespace", .scope m.home),
      ("modifiers", modifiers), ("node", node),
      ("declaring_class", (m.declaringClass.map Value.cls).getD .none), ("num_args", .int m.params.length)]

/-- The object through which the members of host values are reached: the one that the configuration
gives, or the usual one. -/
def bridgePart : Plain Value := do
  let w ← get
  let given :=
    match w.settings.configuration with
    | .object i => ((w.obj i).attrs.get? "host_bridge").getD .none
    | _ => .none
  if given.isNone then alloc { cls := .core .bridge } else pure given

def registryPart (s : ScopeId) : Plain Value := do
  let r ← read fun w => w.registry s
  let bridge ← bridgePart
  alloc
    { cls := .core .classRegistry
      attrs := ⟨[("bridge", bridge), ("auto_import_modules", .bool r.autoImport)]⟩ }

def scopeParts : List String :=
  ["variables", "methods", "imported_classes", "imported_packages", "imported_objects", "imported_static",
    "caller_info", "executing_method"]

def scopePart (s : ScopeId) (name : String) : Plain Value := do
  let x ← read fun w => w.scope s
  match name with
  | "variables" => do
    let parts ← collect x.vars.entries fun e => do
      let v ← variablePart e.1 e.2
      pure (e.1, v)
    newMapping parts
  | "methods" => do
    let parts ← collect x.methods.entries fun e => do
      let ms ← collect e.2 methodPart
      let l ← newList ms
      pure (e.1, l)
    newMapping parts
  | "imported_classes" => newMapping (x.importedClasses.entries.map fun e => (e.1, .ofString e.2))
  | "imported_packages" => newTexts x.importedPackages
  | "imported_objects" => newList x.importedObjects
  | "imported_static" => newList x.importedStatic
  | "caller_info" => nodePart (x.caller.getD .absent)
  | "bridge" => bridgePart
  | _ =>
    match x.running with
    | some m => methodPart m
    | none => pure .none

def classPart (c : ClassRef) (name : String) : Plain Value := do
  let w ← get
  let unnamed := fun (k : CoreClass) => partObject k ("<" ++ k.name ++ " object at 0x?>") []
  match name with
  | "__mro__" => newTuple ((w.mro c).map Value.cls)
  | "__bases__" => newTuple ((w.bases c).map Value.cls)
  | "__annotations__" => newMapping []
  | "__dict__" => unnamed .memberView
  | "__abstractmethods__" => unnamed .fixedSet
  | "__weakref__" => unnamed .computedMember
  | "_jive_body" => unnamed .classBody
  | _ => unnamed .builtinMethod

def objectPart (i : ObjectId) (name : String) : Plain Value := do
  let o ← read fun w => w.obj i
  let methods : Plain Value := do
    let entries ← collect o.classMethods fun e => do
      let ms ← collect e.2 methodPart
      let l ← newList ms
      pure ({ key := .cls e.1, value := l, hash := Hash.own (.cls e.1) } : Entry)
    alloc { cls := .core .dict, payload := .dict entries }
  match name, o.scope with
  | "__dict__", some s => do
    let ms ← methods
    newMapping (("_jive_this", .closure s) :: ("_jive_class_methods", ms) :: o.attrs.entries)
  | "__dict__", none => newMapping o.attrs.entries
  | _, _ => methods

def inspect (owner : Value) (name : String) : Plain Value :=
  match owner with
  | .cls c => classPart c name
  | .object i => objectPart i name
  | .module _ => newMapping []
  | .scope s => scopePart s name
  | .signal n => do
    let sig ← read fun w => w.signal n
    nodePart sig.node
  | _ => alloc { cls := .core (if name = "evaluator" then .evaluator else .classMaker) }

end ScriptCore.Run
