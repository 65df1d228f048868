import ScriptCore.Scope.Import

namespace ScriptCore

def Run.part {α : Type} (n : Node) (name : String) (p : Option α) : Plain α :=
  match p with
  | some x => pure x
  | none => raise ⟨.attributeError, "'" ++ n.kind ++ "' object has no attribute '" ++ name ++ "'"⟩

def Eval.newBlock : Eval ScopeId := do
  match ← frames with
  | [] => Run.internal "BlockNameSpace without a parent"
  | top :: _ => Run.newBlock top none

namespace Evaluator

def traceNode (n : Node) : Plain Unit := do
  let tracing ← Run.read fun w => w.settings.trace
  if !tracing then pure ()
  else do
    let n ← Run.part n "file" (if n.isAbsent then none else some n)
    let shown ← Run.nodeText n
    let line := "[TRACE] " ++ n.file ++ ":" ++ toString n.line ++ " " ++ shown
    Run.updateRest (fun w => { w with log := line :: w.log }) fun _ => ⟨rfl, rfl, rfl, rfl, rfl, rfl, rfl⟩

def runOthers (ev : Evaluator) (last : Value) : List Node → Eval Ending
  | [] => pure (.value last)
  | n :: rest =>
    if n.isClassDecl then runOthers ev last rest
    else do
      traceNode n
      match ← ev.exec n with
      | .signal s k => pure (.signal s k)
      | .value v => runOthers ev v rest

variable (ev : Evaluator)

def runStatements (nodes : List Node) : Eval Ending := do
  forEach (nodes.filter Node.isClassDecl) ev.perform
  ev.runOthers .void nodes

def checkLock (block lock : Node) : Eval Unit :=
  if lock.isAbsent then pure ()
  else do
    let v ← ev.eval lock
    if v.isMarkerOrPrimitive then Eval.stop block .lockRequiresObject else pure ()

def execHere (block : Node) : Eval Ending :=
  match block with
  | .block _ ss lock => do
    ev.checkLock block lock
    ev.runStatements ss
  | .absent => pure (.value .void)
  | n => Run.part n "synchronized_on" none

def execBlock (block : Node) : Eval Ending :=
  match block with
  | .block _ ss lock => do
    ev.checkLock block lock
    let s ← Eval.newBlock
    Eval.inPlace s (ev.runStatements ss)
  | .absent => pure (.value .void)
  | n => Run.part n "synchronized_on" none

def runHere (block : Node) : Eval Value := do
  let r ← ev.execHere block
  Eval.asValue r

def runBlock (block : Node) : Eval Value := do
  let r ← ev.execBlock block
  Eval.asValue r

end Evaluator

end ScriptCore
