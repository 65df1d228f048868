import ScriptCore.World

namespace ScriptCore

namespace LibraryClass

def fn (f : LibraryFn) : Value := .function (.library f)

def members : LibraryClass → List (String × Value)
  | point =>
    [("ORIGIN", .int 0), ("__init__", fn .pointInit), ("sum", fn .pointSum), ("scale", fn .pointScale),
      ("count", fn .pointCount), ("make", .staticFunction (.library .pointMake)), ("__repr__", fn .pointShow)]
  | point3 => [("__init__", fn .point3Init), ("__repr__", fn .point3Show)]
  | outer => [("Inner", .cls (.library inner)), ("__repr__", fn .outerShow)]
  | inner => [("TAG", .ofString "inner"), ("__repr__", fn .innerShow)]
  | bean =>
    [("__init__", fn .beanInit), ("getName", fn .beanGetName), ("setName", fn .beanSetName),
      ("get_size", fn .beanGetSize), ("set_size", fn .beanSetSize), ("isReady", fn .beanIsReady),
      ("getBad", fn .beanGetBad), ("setBad", fn .beanSetBad), ("__repr__", fn .beanShow)]
  | greeter => [("greet", fn .greeterGreet), ("shout", fn .greeterShout)]
  | labelled => [("label", fn .labelledLabel)]
  | base =>
    [("__init__", fn .baseInit), ("label", fn .baseLabel), ("shout_label", fn .baseShoutLabel),
      ("__repr__", fn .baseShow)]
  | settings =>
    [("level", .int 1), ("__init__", fn .settingsInit), ("describe", fn .settingsDescribe),
      ("boom", fn .settingsBoom), ("__repr__", fn .settingsShow)]
  | faulty =>
    [("__init__", fn .faultyInit), ("bad", .property .faultyBad), ("readonly", .property .faultyReadonly),
      ("fail", fn .faultyFail), ("__iter__", fn .faultyIter), ("__repr__", fn .faultyShow)]
  | bag => [("__init__", fn .bagInit), ("__len__", fn .bagLen), ("__repr__", fn .bagShow)]
  | ruler => [("__init__", fn .rulerInit), ("__len__", fn .rulerLen), ("__repr__", fn .rulerShow)]
  | countdown => [("__init__", fn .countdownInit), ("__iter__", fn .countdownIter), ("__repr__", fn .countdownShow)]
  | codedError => [("__init__", fn .codedErrorInit)]
  | metaClass => [("broken", .property .metaBroken)]
  | weird => [("__repr__", fn .weirdShow)]
  | noNew => [("__new__", .staticFunction (.library .noNewNew))]
  | runsInCtor => [("__init__", fn .runsInCtorInit), ("__repr__", fn .runsInCtorShow)]
  | restrictedBridge => []
  | deep => [("VALUE", .int 11), ("__repr__", fn .deepShow)]

def mro (c : LibraryClass) : List ClassRef :=
  .library c ::
    match c.parent with
    | .inl p => [.library p, .core .object]
    | .inr k => k.mro.map .core

end LibraryClass

namespace CoreClass

def taking (name : String) (required : Nat) (parameters : List String) : String × Signature :=
  (name, ⟨"self" :: parameters, required + 1, false⟩)

def functions : CoreClass → List (String × Signature)
  | array => [taking "get" 1 ["index"], taking "set" 2 ["index", "value"], taking "to_list" 0 []]
  | primitive => [taking "is_numeric" 0 [], taking "number_value" 0 [], taking "host_value" 0 []]
  | closure =>
    [taking "get_namespace" 0 [],
      taking "invoke_method" 1
        ["name", "args", "interpreter", "callstack", "caller_info", "declared_only", "from_namespace"],
      taking "run" 0 [], ("get_interface", ⟨["self"], 1, true⟩), taking "declares_method" 2 ["name", "nargs"]]
  | scope =>
    [taking "get_class_registry" 0 [], taking "get_global" 0 [], taking "qualified_name" 0 [], taking "get_package" 0 [],
      taking "set_package" 1 ["package"], taking "set_class_instance" 1 ["instance"],
      taking "get_class_instance" 0 [], taking "set_class_static" 1 ["cls"],
      taking "get_variable" 1 ["name", "recurse"], taking "get_variable_impl" 1 ["name", "recurse"],
      taking "get_declared_variables" 0 [], taking "get_variable_names" 0 [],
      taking "set_variable" 2 ["name", "value", "strict", "recurse"],
      taking "set_local_variable" 2 ["name", "value", "strict"], taking "unset_variable" 1 ["name"],
      taking "set_typed_variable" 3 ["name", "type", "value", "modifiers"],
      taking "get_method" 2 ["name", "arg_types", "declared_only"], taking "get_methods" 0 [],
      taking "get_name_resolver" 1 ["ambiguous_name"], taking "get_method_names" 0 [],
        taking "unset_method" 1 ["name"], taking "import_class" 1 ["name", "alias"],
      taking "import_package" 1 ["name"], taking "import_object" 1 ["obj"], taking "import_static" 1 ["cls"],
      taking "get_imported_class_name" 1 ["name"], taking "get_class" 1 ["name"],
      taking "get_this" 1 ["interpreter"], taking "get_super" 1 ["interpreter"],
      taking "get_global_this" 1 ["interpreter"],
      taking "invoke_method" 3 ["name", "args", "interpreter", "callstack", "caller_info"],
      taking "get" 2 ["name", "interpreter"], taking "name_space_changed" 0 [],
      taking "class_loader_changed" 0 [], taking "clear" 0 [], taking "get_all_names" 0 []]
  | blockScope => [taking "set_block_variable" 2 ["name", "value"], taking "get_non_block_parent" 0 []]
  | callStack =>
    [taking "clear" 0 [], taking "push" 1 ["namespace"], taking "top" 0 [], taking "get" 1 ["depth"],
      taking "set" 2 ["depth", "namespace"], taking "pop" 0 [], taking "swap" 1 ["namespace"], taking "depth" 0 [],
      taking "frames" 0 [], taking "copy" 0 []]
  | interpreter =>
    [("debug", ⟨["self"], 1, true⟩), taking "trace_node" 1 ["node"],
    taking "eval" 1 ["node_or_nodes", "namespace"], taking "get_namespace" 0 [],
      taking "get" 1 ["name"], taking "set" 2 ["name", "value"], taking "unset" 1 ["name"],
      taking "import_object" 1 ["obj"], taking "as_interface" 1 ["cls"],
      taking "invoke_method" 2 ["this", "name", "args"]]
  | bridge =>
    [taking "resolve_member" 2 ["target", "name"], taking "resolve_method" 3 ["target", "name", "nargs"],
      taking "invoke" 2 ["capability", "args"], taking "invoke_method" 3 ["target", "name", "args"],
      taking "construct" 2 ["cls", "args"], taking "has_field" 2 ["target", "name"],
      taking "get_field" 2 ["target", "name"], taking "set_field" 3 ["target", "name", "value"],
      taking "get_index" 2 ["target", "index"], taking "set_index" 3 ["target", "index", "value"],
      taking "length" 1 ["target"], taking "get_property" 2 ["target", "prop"],
      taking "set_property" 3 ["target", "prop", "value"]]
  | capability => [taking "arity" 0 []]
  | _ => []

def methodNames : CoreClass → List String
  | object => ["__dir__", "__format__", "__getstate__", "__reduce__", "__reduce_ex__", "__sizeof__"]
  | type => ["mro", "__subclasses__", "__instancecheck__", "__subclasscheck__", "__prepare__"]
  | list => ["append", "count", "extend", "index", "insert", "pop"]
  | dict => ["get", "pop"]
  | str =>
    ["count", "find", "index", "startswith", "isdigit", "lower", "upper", "join", "replace", "split", "strip"]
  | c => c.functions.map Prod.fst

/-- The methods by which the objects of a class answer the questions of the language: what their
text is, what they equal, how they are set up and walked over. Only those that a class defines
itself are listed. -/
def specials (c : CoreClass) : List String :=
  let container := ["__repr__", "__eq__", "__hash__", "__len__", "__iter__", "__contains__"]
  let number := ["__repr__", "__eq__", "__hash__", "__bool__", "__add__", "__radd__", "__mul__", "__rmul__", "__int__",
    "__float__"]
  let joined := ["__getitem__", "__add__", "__mul__", "__rmul__"]
  match c with
  | object =>
    ["__init__", "__str__", "__repr__", "__eq__", "__hash__", "__ne__", "__lt__", "__le__", "__gt__", "__ge__",
      "__setattr__", "__delattr__", "__getattribute__"]
  | type => ["__init__", "__repr__", "__call__", "__or__", "__ror__"]
  | noneType => ["__repr__", "__bool__"]
  | int => "__index__" :: number
  | float => number
  | bool => ["__repr__"]
  | str => "__str__" :: container ++ joined
  | list => "__init__" :: "__setitem__" :: container ++ joined
  | tuple | bytes => container ++ joined
  | dict => "__init__" :: "__getitem__" :: "__setitem__" :: container
  | set => "__init__" :: container
  | range => "__getitem__" :: "__bool__" :: container
  | date | datetime => ["__str__", "__repr__", "__eq__", "__hash__"]
  | function => ["__repr__", "__call__"]
  | method | builtinMethod | methodWrapper => ["__repr__", "__eq__", "__hash__", "__call__"]
  | methodDescriptor | slotWrapper => ["__repr__", "__call__"]
  | module => ["__init__", "__repr__"]
  | property => ["__init__"]
  | iterable => ["__iter__"]
  | array => ["__init__", "__repr__", "__len__", "__iter__", "__getitem__", "__setitem__"]
  | primitive => ["__init__", "__str__", "__repr__", "__eq__", "__hash__", "__setattr__"]
  | primitiveType => ["__init__", "__repr__"]
  | arrayType | classIdentifier => ["__init__", "__repr__", "__eq__", "__hash__"]
  | closure => ["__init__", "__str__", "__repr__"]
  | scope | blockScope | interpreter | signal | methodValue => ["__init__", "__repr__"]
  | callStack => ["__init__", "__str__", "__len__"]
  | baseException => ["__init__", "__str__", "__repr__"]
  | keyError => ["__init__", "__str__"]
  | evalError | utilEvalException => ["__init__", "__str__"]
  | notImplementedType => ["__repr__"]
  | c => if c.isException then ["__init__"] else if c.isIterator then ["__repr__", "__iter__", "__next__"] else []

def properties : CoreClass → List String
  | array => ["length", "type"]
  | primitiveType => ["is_numeric", "is_integral"]
  | arrayType => ["dimensions", "base_type"]
  | scope => ["bridge"]
  | interpreter => ["strict"]
  | _ => []

def isUnhashable : CoreClass → Bool
  | list | dict | set => true
  | _ => false

def member (c : CoreClass) (name : String) : Option Value :=
  if name = "__hash__" && c.isUnhashable then some .none
  else if c.properties.contains name then some (.property (.core c name))
  else if c.methodNames.contains name || c.specials.contains name then some (.coreMethod c name)
  else none

def isSealed : CoreClass → Bool
  | bool | noneType | function | method | builtinMethod | methodDescriptor | slotWrapper | methodWrapper | range
  | notImplementedType => true
  | c => c.isIterator

/-- Classes whose objects have a layout of their own; a class can extend only one of them. -/
def hasLayout : CoreClass → Bool
  | type | int | float | str | list | tuple | dict | set | bytes | module | property | baseException | attributeError
  | importError => true
  | _ => false

end CoreClass

namespace Module

def numbersId : ObjectId := 0

def find? {α : Type} (l : List α) (nameOf : α → String) (name : String) : Option α :=
  l.find? fun x => nameOf x = name

def libraryMember (name : String) : Option Value :=
  match name with
  | "LIMIT" => some (.int 42)
  | "NAME" => some (.ofString "hostlib")
  | "RATIO" => some (.float 3.25 0)
  | "FLAG" => some (.bool true)
  | "NOTHING" => some .none
  | "BIG" => some (.int (2 ^ 70))
  | "NUMBERS" => some (.object numbersId)
  | "abc" => some (.module .abstract)
  | "deep" => some (.module .deep)
  | "HostBridge" => some (.cls (.core .bridge))
  | _ =>
    match find? LibraryClass.topLevel LibraryClass.name name with
    | some c => some (.cls (.library c))
    | none => (find? LibraryFn.topLevel LibraryFn.qualname name).map fun f => .function (.library f)

def member (m : Module) (name : String) : Option Value :=
  if name = "__name__" then some (.ofString m.name)
  else
    match m with
    | hostlib => libraryMember name
    | deep => if name = "Deep" then some (.cls (.library .deep)) else none
    | builtins => (find? CoreClass.builtins CoreClass.name name).map fun c => .cls (.core c)
    | abstract => if name = "ABC" then some (.cls (.core .abstractBase)) else none
    | package => (CoreClass.ownHomes.find? (· = "jive." ++ name)).map fun home => .module (.own home)
    | own home => (CoreClass.own.find? fun c => c.home = home && c.name = name).map fun c => .cls (.core c)

/-- The modules that can be imported. Of the host there are no others; those of the interpreter's
own package hold the classes that they define and nothing else. -/
def all : List Module := [hostlib, deep, builtins, abstract, package] ++ CoreClass.ownHomes.map own

def ofName? (name : String) : Option Module := find? all Module.name name

end Module

/-- A world in which nothing has happened yet. The tuple without elements is its second object. -/
def World.initial : World :=
  { objects :=
      #[{ cls := .core .tuple, payload := .tuple [.int 1, .int 2, .int 3] },
        { cls := .core .tuple, payload := .tuple [] }] }

end ScriptCore
