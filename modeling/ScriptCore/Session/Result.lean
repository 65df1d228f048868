import ScriptCore.Session
import ScriptCore.Text.Lines

namespace ScriptCore

def excerptLine (lines : List String) (width : Nat) (marked n : Int) : String :=
  let number := toString n
  let padding := String.ofList (List.replicate (width - number.length) ' ')
  (if n = marked then ">" else " ") ++ " " ++ padding ++ number ++ " | " ++ lines.getD (n - 1).toNat ""

def excerpt (source : String) (line : Option Int) (radius : Int) : String :=
  let lines := Lines.split source
  let n := line.getD 0
  if n < 1 || (lines.length : Int) < n then ""
  else
    let first := max 1 (n - radius)
    let last := min (lines.length : Int) (n + radius)
    let width := (toString last).length
    let numbers := (List.range (last + 1 - first).toNat).map fun (k : Nat) => first + k
    "\n".intercalate (numbers.map (excerptLine lines width n))

structure ExecutionResult where
  status : String
  value : Value := .none
  message : Option String := none
  line : Option Int := none
  deriving Inhabited

namespace ExecutionResult

def formatError (r : ExecutionResult) : String :=
  if r.status ≠ "error" then ""
  else
    let message := match r.message with | some m => if m.isEmpty then "Unknown error" else m | none => "Unknown error"
    match r.line with
    | some n =>
      if 0 < n && !message.startsWith "Error on line " then "Error on line " ++ toString n ++ ": " ++ message
      else message
    | none => message

end ExecutionResult

namespace Evaluator

variable (ev : Evaluator)

def describeReport (template : Value) (source : Option String) (r : Report) : Run String := do
  let text ← ev.reportText template r
  let head := (if r.target.isSome then "TargetError: " else "EvalError: ") ++ text
  match source with
  | some s =>
    if r.node.isAbsent then pure head
    else
      let shown := excerpt s (some r.line) 2
      pure (if shown.isEmpty then head else head ++ "\n" ++ shown)
  | none => pure head

def resultOf (template : Value) (source : Option String) (r : Report) : Run ExecutionResult := do
  let message ← ev.describeReport template source r
  pure { status := "error", message := some message, line := if r.node.isAbsent then none else some r.line }

/-- The located error that a failure is, by its class. An object of a class that extends the one of
located errors has only its arguments to tell. -/
def reported? (w : World) : Failure → Option Report
  | .report r => some r
  | .thrown v =>
    if w.isInstance v (.core .evalError) then
      let args := (w.exceptionArgs? v).getD []
      let target := if w.isInstance v (.core .targetException) then args[1]? else none
      some { message := (args.head?.map w.plainText).getD "", target := target.map fun exception => { exception } }
    else none
  | _ => none

def failureText : Failure → Run String
  | .thrown v => ev.text v
  | e => pure (World.failureMessage e)

/-- Evaluates a program and reports how it ended. Only errors of scripts and of the interpreter are
reported, and these are told by their class. -/
def execute (s : ScopeId) (template : Value) (nodes : List Node) (source : Option String) :
    Run ExecutionResult :=
  Comp.catching
    (do
      let v ← ev.evaluate s nodes
      pure { status := "success", value := v })
    fun e => do
      let w ← Comp.get
      match reported? w e with
      | some r => ev.resultOf template source r
      | none =>
        if Run.isFailureOf w e .interpreterError then do
          let text ← ev.failureText e
          pure { status := "error", message := some ("InternalError: " ++ text) }
        else Comp.fail e

end Evaluator

end ScriptCore
