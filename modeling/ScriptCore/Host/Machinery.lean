import ScriptCore.CallStack
import ScriptCore.Host.Builtin
import ScriptCore.Host.Description
import ScriptCore.Host.Inspection
import ScriptCore.Script.Entry

namespace ScriptCore.Evaluator

def arrayList : Nat → List Value → Plain Value
  | 0, _ => Action.exhausted
  | fuel + 1, items => do
    let hosted ← collect items fun v => do
      let arr ← Run.read fun w => w.array? v
      match arr with
      | some (_, inner) => arrayList fuel inner
      | none => pure v.unwrap
    Run.newList hosted

variable (ev : Evaluator)

def arrayIndex (size : Nat) (v : Value) : ev.Host Nat := do
  let w ← Run.get
  let outside : ev.Host Nat := do
    let shown ← ev.text v
    Run.raise ⟨.indexError, "Array index out of bounds: " ++ shown⟩
  match w.number? v with
  | some (.inl n) => if n < 0 || n ≥ size then outside else pure n.toNat
  | some (.inr x) =>
    if 0.0 ≤ x && x < Float.ofNat size then Run.refuse "list indices must be integers or slices, not " v ""
    else outside
  | none => Run.refuse "'<=' not supported between instances of 'int' and '" v "'"

def arrayMethod (i : ObjectId) (items : List Value) (name : String) (args : List Value) :
    Action ev.may .fault Value := do
  match name, args with
  | "get", v :: _ => do
    let n ← ev.arrayIndex items.length v
    pure (items[n]?.getD .null)
  | "set", v :: x :: _ => do
    let n ← ev.arrayIndex items.length v
    Run.arraySet i n x
    pure .none
  | _, _ => do
    let size ← Run.read fun w => w.objects.size
    arrayList (size + 1) items

def boxedMethod (v : Value) (name : String) : Plain Value :=
  match name, v with
  | "is_numeric", .boxed p _ => pure (.bool p.type.isNumeric)
  | "is_numeric", _ => pure (.bool false)
  | "number_value", .boxed p m => do
    match ← Run.ofHost p.number with
    | .int n => pure (.int n)
    | .float x => pure (.float x m)
  | "number_value", v => Run.getAttr v "value"
  | _, v => pure v.unwrap

def hasAttributes (w : World) (v : Value) : Bool :=
  match v with
  | .object i => Run.takesAttributes (w.obj i)
  | .module _ => true
  | v => (World.owner? v).isSome

def askedClasses (args : List Value) : ev.Host (List ClassRef) := do
  let w ← Run.get
  let asked := match args with | [v] => (w.itemsOf? v).getD args | args => args
  forEach asked fun v => do
    let _ ← ev.hashed v
    pure ()
  let others := asked.filter fun v => match v with | .cls _ => false | _ => true
  if others.any fun v => !hasAttributes w v then Run.typeError "vars() argument must have __dict__ attribute"
  else do
    forEach others fun v =>
      match v with
      | .module _ | .function _ | .staticFunction _ => pure ()
      | v => Run.raise ⟨.attributeError, w.missingOn v "__name__"⟩
    if others.isEmpty then pure (asked.filterMap fun v => match v with | .cls c => some c | _ => none)
    else Run.typeError ClassSpec.conflict

def argumentList (v : Option Value) : ev.Host (List Value) :=
  match v with
  | none => pure []
  | some v => do
    if ← ev.truth v then ev.elementsOf v else pure []

def nameArgument (v : Option Value) : ev.Host String :=
  match v with
  | none => pure ""
  | some v => do
    let _ ← ev.hashed v
    ev.text v

def switchArgument (v : Option Value) (other : Bool) : ev.Host Bool :=
  match v with
  | none => pure other
  | some v => ev.truth v

variable (s : ScopeId)

def closureMethod (name : String) (args : List Value) : ev.Host Value := do
  match name with
  | "run" => ev.callIn s "run" []
  | "invoke_method" => do
    let method ← ev.nameArgument args[0]?
    let given ← ev.argumentList args[1]?
    ev.callIn s method given
  | "get_interface" => do
    let classes ← ev.askedClasses args
    Run.proxyOf s classes
  | "declares_method" => do
    let method ← ev.nameArgument args[0]?
    let w ← Run.get
    let count :=
      match w.number? (args[1]?.getD .none) with
      | some (.inl n) => some n
      | some (.inr x) => if x.isFinite && x.floor == x then some (Binary.truncate x) else none
      | none => none
    pure (.bool ((count.map fun n => decide (0 ≤ n) && w.declaresMethod s method n.toNat).getD false))
  | _ => pure (.scope s)

def orNothing (v : Option Value) : Value := v.getD .none

def scopeQuery (name : String) (args : List Value) : Action ev.may .fault Value := do
  let w ← Run.get
  match name with
  | "get_global" => pure (.scope (w.root s))
  | "qualified_name" => pure (.ofString (w.qualifiedName s))
  | "get_package" => pure (orNothing ((w.packageOf s).map Value.ofString))
  | "get_class_instance" => pure (orNothing (w.classInstance? s))
  | "get_variable" => do
    let varName ← ev.nameArgument args[0]?
    let outwards ← ev.switchArgument args[1]? true
    Run.getVariable s varName outwards
  | "get_variable_impl" => do
    let varName ← ev.nameArgument args[0]?
    let outwards ← ev.switchArgument args[1]? true
    match ← Run.findBinding s varName outwards with
    | none => pure .none
    | some (.held t n) => Run.variablePart n (((w.scope t).vars.get? n).getD {})
    | some (.field ..) => Run.variablePart varName {}
  | "get_declared_variables" => do
    let parts ← collect (w.scope s).vars.entries fun e => Run.variablePart e.1 e.2
    Run.newList parts
  | "get_methods" => do
    let parts ← collect ((w.scope s).methods.entries.flatMap Prod.snd) Run.methodPart
    Run.newList parts
  | "get_method" => do
    let method ← ev.nameArgument args[0]?
    let given ← ev.elementsOf (args[1]?.getD .none)
    let declaredOnly ← ev.switchArgument args[2]? false
    let types := given.map w.tyOf
    let found ← if declaredOnly then Run.declaredMethod s method types else Run.findMethod s method types
    match found with
    | none => pure .none
    | some m => Run.methodPart m
  | "get_class_registry" => Run.registryPart s
  | "get_name_resolver" => do
    let path ← ev.nameArgument args[0]?
    Run.partObject .resolver path [("value", .ofString path), ("namespace", .scope s)]
  | "get_variable_names" => Run.nameList (w.scope s).vars.keys
  | "get_method_names" => Run.nameList (w.scope s).methods.keys
  | "get_all_names" => Run.nameList (w.namesInReach s)
  | "get_imported_class_name" => do
    let short ← ev.nameArgument args[0]?
    pure (orNothing ((w.importedClass? s short).map Value.ofString))
  | "get_class" => do
    let cls ← ev.nameArgument args[0]?
    let found ← Run.getClass s cls
    pure (orNothing found)
  | "get_this" => pure (Run.thisOf w s)
  | "get_super" => pure (Run.thisOf w (Run.outerScope w s))
  | "get_global_this" => pure (Run.thisOf w (w.root s))
  | "get_non_block_parent" => pure (.scope (w.enclosing s))
  | "invoke_method" => do
    let method ← ev.nameArgument args[0]?
    let given ← ev.argumentList args[1]?
    ev.callIn (w.enclosing s) method given
  | _ => do
    let path ← ev.nameArgument args[0]?
    ev.lookup s path

def scopeChange (name : String) (args : List Value) : Action ev.may .fault Unit := do
  let first := args.headD .none
  let second := args[1]?.getD .none
  match name with
  | "set_package" => Run.setPartAttr (.scope s) "package" first
  | "set_class_instance" => Run.setClassInstance s first
  | "set_class_static" => Run.setClassStatic s first
  | "set_variable" => do
    let varName ← ev.nameArgument args[0]?
    let strict ← ev.switchArgument args[2]? false
    let outwards ← ev.switchArgument args[3]? true
    Run.setVariable s varName second strict outwards
  | "set_local_variable" => do
    let varName ← ev.nameArgument args[0]?
    let strict ← ev.switchArgument args[2]? false
    Run.setVariable s varName second strict false
  | "set_typed_variable" => do
    let varName ← ev.nameArgument args[0]?
    let w ← Run.get
    let given := args[2]?.getD .none
    Run.setTypedVariable s varName (w.tyOf second) (if given.isNone then none else some given) {}
  | "set_block_variable" => do
    let varName ← ev.nameArgument args[0]?
    Run.setBlockVariable s varName second
  | "unset_variable" => do
    let varName ← ev.nameArgument args[0]?
    Run.unsetVariable s varName
  | "unset_method" => do
    let method ← ev.nameArgument args[0]?
    Run.unsetMethod s method
  | "import_class" => do
    let path ← ev.nameArgument args[0]?
    Run.importClass s path second.text?
  | "import_package" => do
    let path ← ev.nameArgument args[0]?
    Run.importPackage s path
  | "import_object" => ev.importObject s first
  | "import_static" => Run.importStatic s first
  | "clear" => Run.clearScope s
  | _ => Run.forgetNames s

def scopeChanges : List String :=
  ["set_package", "set_class_instance", "set_class_static", "set_variable", "set_local_variable",
    "set_typed_variable", "set_block_variable", "unset_variable", "unset_method", "import_class",
    "import_package", "import_object",
    "import_static", "clear", "name_space_changed", "class_loader_changed"]

def scopeMethod (name : String) (args : List Value) : Action ev.may .fault Value := do
  if scopeChanges.contains name then do
    ev.scopeChange s name args
    pure .none
  else ev.scopeQuery s name args

def putStack (n : Nat) (k : CallStack) : Plain Unit :=
  Run.updateRest (fun w => { w with sharedStacks := w.sharedStacks.modify n fun _ => k }) fun _ =>
    ⟨rfl, rfl, rfl, rfl, rfl, rfl, rfl⟩

def stackMethod (n : Nat) (name : String) (args : List Value) : ev.Answer Value := do
  let k ← Run.read fun w => w.stack n
  let frame := fun (v : Value) => match v with | .scope s => s | _ => 0
  let seen := fun (s : Option ScopeId) => orNothing (s.map Value.scope)
  let first := args.headD .none
  match name with
  | "depth" => pure (.int k.depth)
  | "top" => pure (seen k.top?)
  | "get" => do
    let n ← ev.index first
    pure (seen (k.get? n))
  | "frames" => Run.newList (k.frames.map Value.scope)
  | "copy" => do
    let m ← Run.newStack k
    pure (.stack m)
  | "push" => do
    putStack n (k.push (frame first))
    pure .none
  | "pop" => do
    let (s, rest) ← k.pop
    putStack n rest
    pure (.scope s)
  | "swap" => do
    let (s, rest) ← k.swap (frame first)
    putStack n rest
    pure (.scope s)
  | "set" => do
    let i ← ev.index first
    let changed ← k.set i (frame (args[1]?.getD .none))
    putStack n changed
    pure .none
  | _ => do
    putStack n {}
    pure .none

def evalForeign (v : Value) : Action .halting .proper Value := do
  let w ← Run.get
  match (w.itemsOf? v).getD [v] with
  | [] => pure .none
  | x :: _ => Run.internal ("Unknown node kind: " ++ w.valueClassName x)

def interpreterMethod (name : String) (args : List Value) : ev.Answer Value := do
  let global ← Run.read World.global
  let first := args.headD .none
  match name with
  | "get" => do
    let path ← ev.nameArgument args[0]?
    ev.get global path
  | "set" => do
    let path ← ev.nameArgument args[0]?
    ev.set global path (args[1]?.getD .none)
    pure .none
  | "unset" => do
    let path ← ev.nameArgument args[0]?
    unset global path
    pure .none
  | "get_namespace" => pure (.scope global)
  | "import_object" => do
    ev.importObject global first
    pure .none
  | "as_interface" => do
    let classes ← ev.askedClasses args
    Run.proxyOf global classes
  | "invoke_method" => do
    let method ← ev.nameArgument args[1]?
    let given ← match args[2]? with | none => pure [] | some v => ev.elementsOf v
    ev.invokeClosure first method given
  | "eval" => evalForeign first
  | "trace_node" => do
    let w ← Run.get
    if w.settings.trace then Run.getAttr first "file" else pure .none
  | _ => do
    let parts ← collect args ev.text
    Run.debug fun _ => parts
    pure .none

end ScriptCore.Evaluator
