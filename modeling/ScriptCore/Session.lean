import ScriptCore.Config
import ScriptCore.Snapshot

namespace ScriptCore

namespace Session

def depth : Nat := 1000000000

def evaluator : Evaluator := Evaluator.ofFuel depth

def configure (ev : Evaluator) (c : Config) : Run Unit := do
  let settings ← c.settings ev
  Run.modify fun w => { w with settings }

def setField (name : String) (v : Value) : Run Unit := do
  let c ← Run.read fun w => w.settings.configuration
  Run.setAttr c name v

def errorTemplate : Run Value := do
  let c ← Run.read fun w => w.settings.configuration
  Run.getAttr c "error_template"

def start (ev : Evaluator) (c : Config) : Run ScopeId := do
  configure ev c
  let r ← c.registry ev
  let imports ← Run.read fun w => (w.itemsOf? c.defaultImports).getD []
  let packages ← collect imports ev.text
  let s ← Run.newRoot (some "global") r packages
  Run.modify fun w => { w with global := s }
  pure s

end Session

def Run.defineClass (r : Nat) (name : String) (c : Value) : Run Unit := register r name c

namespace Evaluator

variable (ev : Evaluator)

def runProgram (nodes : List Node) : Eval Value := do
  match ← ev.execHere (.blockOf nodes) with
  | .value v => Run.read fun w => w.hostView v
  | .signal sig _ =>
    if sig.kind = .return then Run.read fun w => w.hostView sig.value
    else Eval.stop sig.node (.jumpOutside sig.kind.name)

def evaluate (s : ScopeId) (nodes : List Node) : Run Value := Run.onStack [s] (ev.runProgram nodes)

def hash (v : Value) : Run Hash := ev.hashed v

/-- Calls one of the methods that a scope itself declares under a name, chosen by its position; a
negative one counts from the end. -/
def invokeDeclared (s : ScopeId) (name : String) (index : Int) (args : List Value) : Run Value := do
  let found ← Run.read fun w => (w.scope s).methods.get? name
  match found with
  | none => raiseWith .keyError (.ofString name)
  | some methods =>
    let n := if index < 0 then index + methods.length else index
    match if n < 0 then none else methods[n.toNat]? with
    | none => Run.raise ⟨.indexError, "list index out of range"⟩
    | some m => Run.onStack [m.home] (ev.invoke m args .hostCall)

end Evaluator

end ScriptCore
