import ScriptCore.Host.Description

namespace ScriptCore

inductive Snapshot where
  | null | void | none
  | boxed (p : Primitive)
  | bool (b : Bool)
  | int (n : Int)
  | float (x : Float)
  | str (s : String)
  | cycle
  | array (component : String) (items : List Snapshot)
  | list (items : List Snapshot)
  | tuple (items : List Snapshot)
  | dict (entries : List (Snapshot × Snapshot))
  | signal (kind : String) (value : Snapshot) (shown : String)
  | closure (scope : String) (vars : List (String × String × Snapshot × List String))
  | classId (target : String)
  | type (name : String)
  | cls (qualname : String)
  | module (name : String)
  | scripted (cls : String) (vars : List (String × String × Snapshot × List String))
      (attributes : List (String × Snapshot)) (message : Option String)
  | exception (cls message : String)
  | scope (shown : String)
  | method (shown : String)
  | machinery (cls : String)
  | host (cls shown : String)
  | other (cls : String)
  deriving Inhabited

abbrev VariableView := String × String × Snapshot × List String

namespace Evaluator

def typeLabel (ev : Evaluator) (v : Value) : Run String := do
  let w ← Run.get
  match v, w.qualname? v, w.payload? v with
  | .none, _, _ => pure (w.typeName .untyped)
  | .primType t, _, _ => pure t.name
  | .module m, _, _ => pure m.name
  | _, some name, _ => pure name
  | _, none, some (.arrayType c) => pure (w.typeName (.array c))
  | v, none, _ => ev.text v

def quietly (x : Run String) : Run String := Comp.catching x fun _ => pure ""

def isLibraryObject (o : Obj) : Bool :=
  match o.cls with
  | .library _ => true
  | _ => o.target.isSome

mutual

def snapshotWithin (ev : Evaluator) (fuel : Nat) (path : List Value) (v : Value) : Run Snapshot :=
  match fuel with
  | 0 => pure .cycle
  | fuel + 1 =>
    match v with
    | .null => pure .null
    | .void => pure .void
    | .none => pure .none
    | .boxed p _ => pure (.boxed p)
    | .bool b => pure (.bool b)
    | .int n => pure (.int n)
    | .float x _ => pure (.float x)
    | .str s _ => pure (.str s)
    | .signal n => do
      let w ← Run.get
      let sig := w.signal n
      let x ← ev.snapshotWithin fuel path sig.value
      let shown ← ev.describe v
      pure (.signal sig.kind.name x shown)
    | .closure s =>
      if path.any v.same then pure .cycle
      else do
        let shown ← Run.read fun w => w.scopeText s
        let vars ← ev.variablesWithin fuel (v :: path) s
        pure (.closure shown vars)
    | .primType t => pure (.type t.name)
    | .cls c => Run.read fun w => .cls (w.qualname c)
    | .module m => pure (.module m.name)
    | .scope s => Run.read fun w => .scope (w.scopeText s)
    | .stack _ => pure (.machinery "CallStack")
    | .interpreter => pure (.machinery "Interpreter")
    | .object i => if path.any v.same then pure .cycle else ev.objectWithin fuel (v :: path) i
    | v => Run.read fun w => .other (w.valueClassName v)

def objectWithin (ev : Evaluator) (fuel : Nat) (path : List Value) (i : ObjectId) : Run Snapshot :=
  match fuel with
  | 0 => pure .cycle
  | fuel + 1 => do
    let w ← Run.get
    let o := w.obj i
    let name := w.className o.cls
    let each := fun items => collect items (ev.snapshotWithin fuel path)
    let plain := match o.cls with | .core _ => true | _ => false
    match o.payload, o.scope, plain with
    | .array c elements, _, _ => do
      let xs ← each ((w.itemsOf? elements).getD [])
      pure (.array (w.typeName c) xs)
    | .list items, none, true => do
      let xs ← each items
      pure (.list xs)
    | .tuple items, none, true => do
      let xs ← each items
      pure (.tuple xs)
    | .dict entries, none, true => do
      let xs ← collect entries fun e => do
        let k ← ev.snapshotWithin fuel path e.key
        let x ← ev.snapshotWithin fuel path e.value
        pure (k, x)
      pure (.dict xs)
    | .classId t, _, _ => do
      let shown ← ev.typeLabel t
      pure (.classId shown)
    | .arrayType c, _, _ => pure (.type (w.typeName (.array c)))
    | .constant shown, _, _ => pure (if o.cls = .core .methodValue then .method shown else .other name)
    | payload, some s, _ => do
      let vars ← ev.variablesWithin fuel path s
      let own := (o.attrs.entries.filter fun e => !e.1.startsWith "_").mergeSort fun a b => a.1 ≤ b.1
      let attrs ← collect own fun e => do
        let x ← ev.snapshotWithin fuel path e.2
        pure (e.1, x)
      let message ←
        match payload with
        | .exception _ => do
          let m ← quietly (ev.exceptionText (.object i) false)
          pure (some m)
        | _ => pure none
      pure (.scripted (w.qualname o.cls) vars attrs message)
    | payload, none, _ =>
      match payload with
      | .exception _ | .failure .. => do
        let m ← quietly (ev.text (.object i))
        pure (.exception name m)
      | _ =>
        if isLibraryObject o then do
          let shown ← ev.describe (.object i)
          pure (.host name shown)
        else pure (.other name)

def variablesWithin (ev : Evaluator) (fuel : Nat) (path : List Value) (s : ScopeId) : Run (List VariableView) :=
  match fuel with
  | 0 => pure []
  | fuel + 1 => do
    let w ← Run.get
    collect (w.scope s).vars.entries fun e => do
      let x ← ev.snapshotWithin fuel path (e.2.value.getD .none)
      pure (e.1, w.typeName e.2.type, x, e.2.modifiers.sorted)

end

def snapshotDepth (w : World) : Nat := 3 * (w.objects.size + w.scopes.size + w.signals.size) + 8

def snapshot (ev : Evaluator) (v : Value) : Run Snapshot := do
  let w ← Run.get
  ev.snapshotWithin (snapshotDepth w) [] v

def variableViews (ev : Evaluator) (s : ScopeId) : Run (List VariableView) := do
  let w ← Run.get
  ev.variablesWithin (snapshotDepth w) [.closure s] s

end Evaluator

end ScriptCore
