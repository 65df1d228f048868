import ScriptCore.Host.Hash
import ScriptCore.Modifier
import ScriptCore.Script.Body
import ScriptCore.Table
import Std.Data.HashMap

namespace ScriptCore

structure Variable where
  type : Ty := .untyped
  value : Option Value := none
  modifiers : Modifiers := {}
  deriving Inhabited

def Variable.isFinal (v : Variable) : Bool := v.modifiers.has "final"

structure MethodParam where
  name : String
  type : Ty
  modifiers : Modifiers := {}
  deriving Inhabited

/-- What is found under a name on a host value. A method is kept together with the value it is bound
to. -/
inductive Attribute where
  | value (v : Value)
  | bound (self : Value) (f : HostFn)
  | builtin (self : Value) (name : String)
  | type (t : Ty)
  | part (owner : Value) (name : String)
  | asked (f self : Value) (name : String)
  | missing (message : String)
  | broken (e : HostError)
  deriving Inhabited

structure Member where
  isMethod : Bool
  owner : Value
  name : String
  content : Attribute
  deriving Inhabited

def Member.kind (m : Member) : String := if m.isMethod then "method" else "field"

structure Method where
  name : String
  returnType : Ty := .untyped
  params : List MethodParam := []
  body : Node := .absent
  home : ScopeId
  modifiers : Modifiers := {}
  node : Node := .absent
  member : Option Member := none
  declaringClass : Option ClassRef := none
  deriving Inhabited

def Method.paramTypes (m : Method) : List Ty := m.params.map MethodParam.type

structure Resolver where
  id : Nat
  asClass : Option Value := none
  staticClass : Option Value := none
  deriving Inhabited

structure Scope where
  name : String := "anonymous"
  parent : Option ScopeId := none
  isBlock : Bool := false
  vars : Table Variable := {}
  methods : Table (List Method) := {}
  importedClasses : Table String := {}
  importedPackages : List String := []
  importedObjects : List Value := []
  importedStatic : List Value := []
  package : Option String := none
  isClass : Bool := false
  isMethod : Bool := false
  classStatic : Option Value := none
  classInstance : Option Value := none
  caller : Option Node := none
  executing : Option ClassRef := none
  running : Option Method := none
  registry : Option Nat := none
  defaultImports : List String := []
  proxies : List ObjectId := []
  deriving Inhabited

structure Memory where
  resolvers : Table Resolver := {}
  classes : Table Value := {}
  listening : Bool := false
  deriving Inhabited

def Memory.forgotten (m : Memory) : Memory := { m with resolvers := {}, classes := {} }

inductive SignalKind where
  | return | break | continue
  deriving DecidableEq, Repr, Inhabited

def SignalKind.name : SignalKind → String
  | «return» => "return"
  | «break» => "break"
  | «continue» => "continue"

def SignalKind.ofName? (name : String) : Option SignalKind :=
  [SignalKind.return, .break, .continue].find? fun k => k.name = name

structure Signal where
  kind : SignalKind
  value : Value
  node : Node
  deriving Inhabited

structure Target where
  exception : Value
  native : Bool := false
  deriving Inhabited

structure Report where
  message : String
  node : Node := .absent
  stack : Option (List ScopeId) := none
  target : Option Target := none
  deriving Inhabited

inductive Failure where
  | report (r : Report)
  /-- A failure of a component that does not know the current node. -/
  | fault (cause : Cause) (target : Option Target)
  | reflect (message : String)
  /-- Host code raised an exception while a script called it. -/
  | hostCall (message : String) (exception : Value)
  /-- The interpreter itself is inconsistent. -/
  | internal (message : String)
  | classGeneration (message : String)
  /-- A host exception that nothing has wrapped yet. -/
  | thrown (exception : Value)
  deriving Inhabited

inductive Cursor where
  /-- The elements of a list, tuple or array, by position; they are read when they are due. -/
  | positions (id : ObjectId) (next : Nat)
  | items (rest : List Value)
  | keys (id : ObjectId) (next size : Nat)
  /-- Calls the method `item` of a value with 0, 1, … up to a bound. -/
  | calls (receiver : Value) (next bound : Int)
  | breaking (rest : List Value) (e : HostError)
  /-- A walk that is itself an object, and goes on from where it was left. -/
  | stored (id : ObjectId)
  /-- Asks a value for its elements by position, until there is none. -/
  | indexed (receiver : Value) (next : Nat)
  | successive (receiver : Value)
  deriving Inhabited

/-- An entry of a mapping. The hash of the key is that of the moment when it was put in. -/
structure Entry where
  key : Value
  value : Value
  hash : Hash
  deriving Inhabited

structure Element where
  value : Value
  hash : Hash
  deriving Inhabited

namespace Element

/-- How many places a set of that many elements has; there are more of them before three fifths are
taken. -/
def places (count : Nat) : Nat :=
  (List.range count).foldl
    (fun size n => if (n + 1) * 5 < (size - 1) * 3 then size else 2 ^ (Nat.log2 (4 * (n + 1)) + 1)) 8

/-- The elements in the order in which a set gives them: by the places that their hashes ask for.
Elements whose hashes are no numbers stay as they were added. -/
def arranged (items : List Element) : List Element :=
  let size : Int := places items.length
  if items.all fun e => e.hash.isNumber then
    items.mergeSort fun a b => a.hash.number! % size ≤ b.hash.number! % size
  else items

end Element

inductive Payload where
  | plain
  | list (items : List Value)
  | tuple (items : List Value)
  | set (items : List Element)
  | dict (entries : List Entry)
  | range (start stop step : Int)
  /-- The number or text inside an object of a class that extends a class of numbers or texts. -/
  | integer (n : Int)
  | real (x : Float) (mark : Nat)
  | text (s : String)
  | bytes (values : List Nat)
  | constant (shown : String)
  /-- The arguments of an exception are a tuple of their own. -/
  | exception (args : Value)
  | failure (f : Failure) (args : Value)
  /-- The elements of an array are held by a list. -/
  | array (component : Ty) (elements : Value)
  | bound (self : Value) (f : HostFn)
  | builtin (self : Value) (name : String)
  | classId (target : Value)
  | arrayType (component : Ty)
  | cursor (c : Cursor)
  deriving Inhabited

structure Obj where
  cls : ClassRef
  attrs : Table Value := {}
  payload : Payload := .plain
  scope : Option ScopeId := none
  /-- The methods that each scripted class of the hierarchy declares, for calls to a superclass
  version. -/
  classMethods : List (ClassRef × List Method) := []
  target : Option ScopeId := none
  deriving Inhabited

inductive Generated where
  /-- Passes the call on to the scripted method of that name of its first argument; an abstract one
  is still to be provided by a subclass. -/
  | instanceMember (name : String) (abstract : Bool)
  /-- Passes the call on to the static method of that name declared in the scope. -/
  | staticMember (scope : ScopeId) (name : String)
  | setUp (scope : ScopeId)
  | readVariable
  | writeVariable
  | text
  | equal
  | hash
  /-- Passes the call on to the closure behind a proxy, or to a concrete member that no script
  overrides. -/
  | proxyMember (name : String) (fallback : Option Value)
  | proxyText
  | proxyShow
  | proxyEqual
  | proxyHash
  deriving Inhabited

structure ScriptPart where
  staticScope : ScopeId
  isInterface : Bool
  anonymous : Bool
  final : Bool
  body : ClassBody
  deriving Inhabited

/-- A class made while a script runs: from a declaration, or to present a closure as an object of
host classes. Its bases are among its ancestors, and so is the class of all objects. -/
structure MadeClass where
  name : String
  qualname : String
  module : String
  bases : List ClassRef
  ancestors : List ClassRef
  bases_mem : ∀ b ∈ bases, b ∈ ancestors
  object_mem : .core .object ∈ ancestors
  metaclass : ClassRef
  members : Table Value := {}
  abstracts : List String := []
  isProxy : Bool := false
  script : Option ScriptPart := none

instance : Inhabited MadeClass where
  default :=
    { name := "", qualname := "", module := "", bases := [], ancestors := [.core .object]
      bases_mem := nofun, object_mem := List.mem_cons_self, metaclass := .core .object }

inductive Bridge where
  | standard
  /-- Hides the members whose names start with `hidden`. -/
  | restricted
  deriving DecidableEq, Repr, Inhabited

structure Registry where
  bridge : Bridge := .standard
  autoImport : Bool := true
  aliases : Table Value := {}
  defined : Table Value := {}
  /-- What was looked up before; `none` for names that nothing was found for. -/
  cache : Table (Option Value) := {}
  deriving Inhabited

structure Settings where
  strict : Bool := false
  /-- The strictness as it was asked for, and how that is shown. -/
  strictness : Value := .bool false
  strictText : String := "False"
  debug : Bool := false
  trace : Bool := false
  configuration : Value := .none
  interpreter : Bool := true
  deriving Inhabited

inductive AttributeOwner where
  | cls (c : LibraryClass)
  | module (m : Module)
  | function (f : HostFn)
  | closure (s : ScopeId)
  | scope (s : ScopeId)
  | stack (n : Nat)
  | interpreter
  deriving DecidableEq

structure CallStack where
  frames : List ScopeId := []
  deriving Inhabited

structure World where
  scopes : Array Scope := #[]
  /-- What the scopes remember; those at the end may be left out as long as they remember nothing.
  -/
  memories : Array Memory := #[]
  objects : Array Obj := #[]
  classes : Array MadeClass := #[]
  registries : Array Registry := #[]
  signals : Array Signal := #[]
  functions : Array Generated := #[]
  /-- The call stacks that scripts have got hold of. -/
  sharedStacks : Array CallStack := #[]
  assigned : List (AttributeOwner × String × Value) := []
  /-- Whether the interpreter's own package is within the reach of scripts. -/
  exposed : Bool := true
  settings : Settings := {}
  global : ScopeId := 0
  log : List String := []
  marks : Nat := 0
  showing : List ObjectId := []
  texts : Std.HashMap Nat String := {}
  nodeCount : Nat := 0
  resolverCount : Nat := 0
  anonymousCount : Nat := 0
  deriving Inhabited

namespace World

def emptyTuple : ObjectId := 1

variable (w : World) (s : ScopeId)

def scope : Scope := w.scopes[s]?.getD {}

def memory : Memory := w.memories[s]?.getD {}

def obj (i : ObjectId) : Obj := w.objects[i]?.getD default

def made (n : Nat) : MadeClass := w.classes[n]?.getD default

def generated (n : Nat) : Generated := w.functions[n]?.getD default

def signal (n : Nat) : Signal := w.signals[n]?.getD default

def modifyScope (f : Scope → Scope) : World := { w with scopes := w.scopes.modify s f }

def modifyMemory (f : Memory → Memory) : World :=
  { w with memories := (w.memories ++ Array.replicate (s + 1 - w.memories.size) ({} : Memory)).modify s f }

def modifyObj (i : ObjectId) (f : Obj → Obj) : World := { w with objects := w.objects.modify i f }

def modifyMade (n : Nat) (f : MadeClass → MadeClass) : World :=
  { w with classes := w.classes.modify n f }

def nearestScopes (w : World) : Nat → ScopeId → List ScopeId
  | 0, s => [s]
  | n + 1, s =>
    match (w.scope s).parent with
    | none => [s]
    | some p => if p < s then s :: nearestScopes w n p else [s]

/-- The scope and its ancestors; there are no more of them than older scopes. -/
def ancestry : List ScopeId := w.nearestScopes s s

theorem head_ancestry : ∃ rest, w.ancestry s = s :: rest := by
  unfold ancestry
  cases s with
  | zero => exact ⟨[], rfl⟩
  | succ n =>
    unfold nearestScopes
    split
    · exact ⟨[], rfl⟩
    · split
      · exact ⟨_, rfl⟩
      · exact ⟨[], rfl⟩

def namesInReach : List String :=
  (w.ancestry s).flatMap fun t => (w.scope t).vars.keys ++ (w.scope t).methods.keys

def root : ScopeId := (w.ancestry s).getLastD s

def registryId : Nat := ((w.scope (w.root s)).registry).getD 0

def registry : Registry := w.registries[w.registryId s]?.getD {}

def bridge (w : World) (s : ScopeId) : Bridge := (w.registry s).bridge

def stack (n : Nat) : CallStack := w.sharedStacks[n]?.getD {}

/-- The scope that a block stands in, blocks skipped; a scope that is no block is its own. -/
def enclosing : ScopeId :=
  ((w.ancestry s).find? fun t => !(w.scope t).isBlock).getD s

end World

end ScriptCore
