import ScriptCore.Path
import ScriptCore.Scope.Binding

namespace ScriptCore

def Registry.defaultAliases : Table Value :=
  .ofList <| [
    ("Object", CoreClass.object), ("String", .str), ("Boolean", .bool), ("Integer", .int), ("Long", .int),
    ("Short", .int), ("Byte", .int), ("Character", .str), ("Float", .float), ("Double", .float),
    ("Throwable", .baseException), ("Exception", .exception), ("RuntimeException", .runtimeError),
    ("Error", .baseException), ("ArithmeticException", .arithmeticError),
    ("NullPointerException", .attributeError), ("ClassCastException", .typeError),
    ("IllegalArgumentException", .valueError), ("IllegalStateException", .runtimeError),
    ("IndexOutOfBoundsException", .indexError), ("ArrayIndexOutOfBoundsException", .indexError),
    ("UnsupportedOperationException", .notImplementedError), ("Iterable", .iterable), ("List", .list),
    ("Map", .dict), ("Set", .set)].map fun e => (e.1, Value.cls (.core e.2))

def Registry.defaultImports : List String := ["builtins"]

namespace World

variable (w : World) (r : Nat)

def registryAt : Registry := w.registries[r]?.getD {}

def modifyRegistry (f : Registry → Registry) : World :=
  { w with registries := w.registries.modify r f }

def notify : World :=
  { w with
    memories := w.memories.mapIdx fun s m => if m.listening && w.registryId s == r then m.forgotten else m }

/-- The module of that name, if scripts can get at it. -/
def module? (name : String) : Option Module :=
  (Module.ofName? name).filter fun m => w.exposed || !m.isOwn

theorem calm_modifyRegistry (f : Registry → Registry) : w.Calm (w.modifyRegistry r f) :=
  calm_of_eq rfl rfl rfl rfl rfl

theorem memory_notify (s : ScopeId) :
    (w.notify r).memory s =
      if (w.memory s).listening && w.registryId s == r then (w.memory s).forgotten else w.memory s := by
  unfold memory notify
  simp only [Array.getElem?_mapIdx]
  cases w.memories[s]? with
  | some m => rfl
  | none => rfl

theorem calm_notify : w.Calm (w.notify r) := by
  refine calm_of_eq rfl rfl rfl rfl rfl fun s => ?_
  rw [memory_notify]
  split
  · exact .forgotten _
  · exact .refl _

end World

namespace Run

def newRegistry (r : Registry) : Plain Nat :=
  Action.change (fun w => (w.registries.size, { w with registries := w.registries.push r }))
    fun _ => World.calm_of_eq rfl rfl rfl rfl rfl

variable (r : Nat)

def updateRegistry (f : Registry → Registry) : Plain Unit :=
  Action.update (·.modifyRegistry r f) fun w => w.calm_modifyRegistry r f

def notify (r : Nat) : Plain Unit := Action.update (·.notify r) fun w => w.calm_notify r

def followAttributes (v : Value) : List String → Plain (Option Value)
  | [] => pure (some v)
  | name :: rest => do
    let a ← read fun w => w.attributeOf v name
    match a with
    | .missing _ => pure none
    | .broken e => raise e
    | a => do
      match ← ofAttribute a with
      | .none => pure none
      | x => followAttributes x rest

def classOrModule : Value → Option Value
  | .cls c => some (.cls c)
  | .module m => some (.module m)
  | _ => none

def longestModule (module? : String → Option Module) (parts : List String) : Nat → Option (Module × List String)
  | 0 => none
  | i + 1 =>
    match module? (Path.join (parts.take (i + 1))) with
    | some m => some (m, parts.drop (i + 1))
    | none => longestModule module? parts i

/-- The class or the module that a dotted name stands for: what the longest part of it that names a
module leads to. -/
def load (name : String) : Plain (Option Value) := do
  let parts := Path.segments name
  if !parts.all Path.isIdentifier then pure none
  else
    match ← read fun w => longestModule w.module? parts parts.length with
    | none => pure none
    | some (m, rest) => do
      match ← followAttributes (.module m) rest with
      | none => pure none
      | some v => pure (classOrModule v)

def classForName (name : String) : Plain (Option Value) := do
  let reg ← read fun w => w.registryAt r
  match reg.defined.get? name, reg.aliases.get? name, reg.cache.get? name with
  | some v, _, _ => pure (some v)
  | none, some v, _ => pure (some v)
  | none, none, some hit => pure hit
  | none, none, none => do
    let found ← load name
    updateRegistry r fun reg => { reg with cache := reg.cache.put name found }
    pure found

def importByName (name : String) : Plain (Option Module) :=
  if name.isEmpty then raise ⟨.valueError, "Empty module name"⟩
  else if name.startsWith "." then
    raise ⟨.typeError,
      "the 'package' argument is required to perform a relative import for " ++ Quoted.quote name⟩
  else read fun w => w.module? name

def isPackage (name : String) : Plain Bool := do
  match ← classForName r name with
  | some (.module _) => pure true
  | _ => do
    let auto ← read fun w => (w.registryAt r).autoImport
    if !auto then pure false
    else do
      let m ← importByName name
      pure m.isSome

def importModule (name : String) : Plain (Option Value) := do
  match ← importByName name with
  | none => pure none
  | some m => do
    updateRegistry r fun reg => { reg with cache := reg.cache.put name (some (.module m)) }
    pure (some (.module m))

def register (name : String) (c : Value) : Plain Unit := do
  updateRegistry r fun reg => { reg with defined := reg.defined.put name c }
  notify r

def reload : Plain Unit := do
  updateRegistry r fun reg => { reg with cache := {} }
  notify r

end Run

end ScriptCore
