import ScriptCore.Data
import ScriptCore.Interpreter
import ScriptCore.Yaml.Build

namespace ScriptCore

structure Config where
  strict : Value := .bool false
  debug : Value := .bool false
  trace : Value := .bool false
  errorTemplate : Value := .ofString Report.defaultTemplate
  defaultImports : Value := .none
  autoImport : Value := .bool true
  bridge : Value := .none
  deriving Inhabited

namespace Config

def fieldNames : List String :=
  ["strict", "debug", "trace", "error_template", "default_imports", "auto_import_modules", "host_bridge"]

def splitPath (path : String) : String × String :=
  let cs := path.toList
  let module := cs.takeWhile (· ≠ ':')
  let name := (cs.drop module.length).drop 1
  if name.isEmpty then
    let last := cs.reverse.takeWhile (· ≠ '.')
    let front := (cs.take (cs.length - last.length)).dropLast
    (String.ofList front, String.ofList last.reverse)
  else (String.ofList module, String.ofList name)

/-- Why a module cannot be imported: the first part of its path that is missing, and what it should
have been part of. -/
def missingModule (module : String) : String :=
  let parts := Path.segments module
  let known := ((List.range (parts.length + 1)).filter fun k =>
    (Module.ofName? (Path.join (parts.take k))).isSome).getLastD 0
  let parent := Path.join (parts.take known)
  let missing := "No module named " ++ Quoted.quote (Path.join (parts.take (known + 1)))
  match Module.ofName? parent with
  | none | some .package => missing
  | some _ => missing ++ "; " ++ Quoted.quote parent ++ " is not a package"

def loadObject (path : String) : Run Value := do
  let (module, name) := splitPath path
  let _ ← Run.importByName module
  let w ← Run.get
  match Module.ofName? module with
  | none => Run.raise ⟨.moduleNotFoundError, missingModule module⟩
  | some m =>
    match w.moduleAttribute m name with
    | .value v => pure v
    | _ =>
      Run.raise ⟨.valueError, "Cannot load " ++ Quoted.quote path ++ ": no attribute " ++ Quoted.quote name⟩

def valueOf (ev : Evaluator) : Nat → Data → Run Value
  | 0, _ => Comp.exhausted
  | fuel + 1, d =>
    match d with
    | .null => pure .none
    | .bool b => pure (.bool b)
    | .int n => pure (.int n)
    | .float x => Run.computedReal x
    | .str s => pure (.ofString s)
    | .list items => do
      let vs ← collect items (valueOf ev fuel)
      Run.newList vs
    | .object fields => do
      let entries ← fields.foldlM (fun held e => do
        let v ← valueOf ev fuel e.2
        ev.putKey held (.ofString e.1) v) []
      Run.alloc { cls := .core .dict, payload := .dict entries }

/-- Refuses keys that name no field. The names are listed in order, so all of them have to be texts.
-/
def checkKeys (keys : List Value) : Run Unit := do
  let w ← Run.get
  let unknown := keys.filter fun k => !((w.text? k).map fieldNames.contains).getD false
  let names := unknown.filterMap w.text?
  let numbers := unknown.filterMap w.number?
  match unknown with
  | [] => pure ()
  | first :: rest =>
    if names.length = unknown.length then
      Run.raise ⟨.valueError, "Unknown interpreter config keys: " ++
        ", ".intercalate (names.mergeSort fun a b => a ≤ b)⟩
    else
      match rest with
      | second :: _ =>
        if numbers.length = unknown.length then
          Run.refuse "sequence item 0: expected str instance, " first " found"
        else do
          let other ← Run.read fun w => w.valueClassName first
          Run.refuse "'<' not supported between instances of '" second ("' and '" ++ other ++ "'")
      | [] => Run.refuse "sequence item 0: expected str instance, " first " found"

variable (ev : Evaluator)

def ofEntries (debug : Bool) (entries : List Entry) : Run Config := do
  checkKeys (entries.map Entry.key)
  let w ← Run.get
  let field? := fun (name : String) => (entries.find? fun e => w.text? e.key = some name).map Entry.value
  let field := fun (name : String) (other : Value) => (field? name).getD other
  let asked := field "host_bridge" .none
  let bridge ←
    match w.text? asked with
    | some path => do
      let f ← loadObject path
      ev.call f []
    | none => pure asked
  let packages ←
    match field? "default_imports" with
    | some v => ev.newTupleFrom [v]
    | none => Run.newTuple (Registry.defaultImports.map Value.ofString)
  pure
    { strict := field "strict" (.bool false)
      debug := match field "debug" .none with | .none => .bool debug | v => v
      trace := field "trace" (.bool false)
      errorTemplate := field "error_template" (.ofString Report.defaultTemplate)
      defaultImports := packages
      autoImport := field "auto_import_modules" (.bool true)
      bridge }

def ofFields (debug : Bool) (fields : List (String × Data)) : Run Config := do
  let v ← valueOf ev ev.fuel (.object fields)
  let entries ← Run.read fun w => ((w.dict? v).map Prod.snd).getD []
  ofEntries ev debug entries

def ofDocument (debug : Bool) (source : String) : Run (Option Config) := do
  match ← Yaml.Document.value? ev source with
  | none => pure none
  | some v => do
    let w ← Run.get
    match w.dict? v with
    | some (_, entries) => some <$> ofEntries ev debug entries
    | none =>
      if ← ev.truth v then Run.raise ⟨.valueError, "Interpreter config must be a YAML mapping"⟩
      else some <$> ofEntries ev debug []

def fields (c : Config) : List (String × Value) :=
  [("strict", c.strict), ("debug", c.debug), ("trace", c.trace), ("error_template", c.errorTemplate),
    ("default_imports", c.defaultImports), ("auto_import_modules", c.autoImport), ("host_bridge", c.bridge)]

def toObject (c : Config) : Run Value := Run.alloc { cls := .core .configuration, attrs := ⟨c.fields⟩ }

def settings (c : Config) : Run Settings := do
  let strict ← ev.truth c.strict
  let strictText ← ev.text c.strict
  let debug ← ev.truth c.debug
  let trace ← ev.truth c.trace
  let configuration ← c.toObject
  pure { strict, strictness := c.strict, strictText, debug, trace, configuration }

def registry (c : Config) : Run Registry := do
  let autoImport ← ev.truth c.autoImport
  let restricted ← Run.read fun w => w.isInstance c.bridge (.library .restrictedBridge)
  pure { bridge := if restricted then .restricted else .standard, autoImport, aliases := Registry.defaultAliases }

end Config

end ScriptCore
