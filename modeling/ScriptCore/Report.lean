import ScriptCore.Host.Shown
import ScriptCore.Node.Printer
import ScriptCore.Store
import ScriptCore.Template

namespace ScriptCore

namespace World

variable (w : World)

def style : Printer.Style := { value := w.show, type := w.typeName }

def nodeText (w : World) (n : Node) : String :=
  match w.texts.get? n.origin.id with
  | some s => s
  | none => Printer.nodeText w.style n

variable (s : ScopeId)

def qualifiedName : String :=
  let x := w.scope s
  match x.package with
  | some p => if p.isEmpty then x.name else p ++ "." ++ x.name
  | none => x.name

def packageOf : Option String := (w.ancestry s).findSome? fun t => (w.scope t).package

/-- Where the scope was called from, unless a script has taken that off. -/
def callerInfo : Option Node :=
  match w.assigned? (.scope s) "caller_info" with
  | some .none => none
  | _ => (w.scope s).caller

def traceEntry : String :=
  if !(w.scope s).isMethod then ""
  else
    let head := "\nCalled from method: " ++ w.qualifiedName s
    match w.callerInfo s with
    | none => head
    | some n =>
      head ++ " : at Line: " ++ toString n.line ++ " : in file: " ++ n.file ++ " : " ++ w.nodeText n

def trace (frames : List ScopeId) : String := String.join (frames.map w.traceEntry)

end World

namespace Report

def line (r : Report) : Int := if r.node.isAbsent then -1 else r.node.line

def file (r : Report) : String := if r.node.isAbsent then "<unknown file>" else r.node.file

variable (w : World)

def code (r : Report) : String := if r.node.isAbsent then "<unknown error>" else w.nodeText r.node

def stackTrace (r : Report) : String :=
  match r.stack with
  | none => "<Unknown>"
  | some frames => w.trace frames

def detail (shown : Value → String) (r : Report) : String :=
  match r.target with
  | none => r.message
  | some t =>
    r.message ++ "\nTarget exception: " ++ w.valueClassName t.exception ++ ": " ++ shown t.exception

def defaultTemplate : String :=
  "<In file '\x7b\x7bfile\x7d\x7d:\x7b\x7bline\x7d\x7d'>: \x7b\x7bmessage\x7d\x7d\n" ++
    "\tcode: \x7b\x7bcode\x7d\x7d\n\x7b\x7btrace\x7d\x7d"

def context (shown : Value → String) (r : Report) : Data :=
  .object
    [("file", .str r.file), ("line", .int r.line), ("message", .str (r.detail w shown)), ("code", .str (r.code w)),
      ("trace", .str (match r.stack with | none => "" | some frames => w.trace frames))]

def format? (shown : Value → String) (template : String) (r : Report) : Except Template.Fault String :=
  Template.render template (r.context w shown)

def format (shown : Value → String) (r : Report) : String :=
  ((r.format? w shown defaultTemplate).toOption).getD ""

def prepend (r : Report) (intro : String) : Report :=
  if intro.isEmpty then r
  else { r with message := if r.message.isEmpty then intro else intro ++ " : " ++ r.message }

end Report

namespace World

def signalText (w : World) (n : Nat) : String := w.show (.signal n)

def failureClass : Failure → CoreClass
  | .report r => if r.target.isSome then .targetException else .evalError
  | .fault (.classNotFound _) _ => .classNotFound
  | .fault _ (some _) => .utilTargetException
  | .fault _ none => .utilEvalException
  | .reflect _ => .reflectError
  | .hostCall .. => .hostInvocationError
  | .internal _ => .interpreterError
  | .classGeneration _ => .classGenerationError
  | .thrown _ => .exception

def stackText (w : World) (frames : List ScopeId) : String :=
  "CallStack:\n" ++ "\n".intercalate (frames.map fun s => "\t" ++ w.scopeText s)

def plainTextWithin (w : World) (fuel : Nat) (v : Value) : String :=
  match fuel with
  | 0 => ""
  | fuel + 1 =>
    match v with
    | .null => "null"
    | .void => "void"
    | .boxed p _ => p.text
    | .str s _ => s
    | .closure s => "'this' reference to " ++ w.scopeText s
    | .stack n => w.stackText (w.stack n).frames
    | .object i =>
      let o := w.obj i
      match o.payload with
      | .exception args =>
        match (w.itemsOf? args).getD [] with
        | [] => ""
        | [x] => if (w.mro o.cls).contains (.core .keyError) then w.show x else plainTextWithin w fuel x
        | args => tupleText (args.map w.show)
      | .failure f _ =>
        match f with
        | .report r => r.format w (plainTextWithin w fuel)
        | f => failureMessage f
      | .text s => s
      | _ => w.show v
    | v => w.show v

def plainText (w : World) (v : Value) : String := w.plainTextWithin 16 v

end World

namespace Run

def ofTemplate {α : Type} (r : Except Template.Fault α) : Plain α := ofHost (r.mapError Template.Fault.error)

def nodeText (n : Node) : Plain String := do
  let s ← read fun w => w.nodeText n
  updateRest
    (fun w =>
      if n.origin.id = 0 || w.texts.contains n.origin.id then w else { w with texts := w.texts.insert n.origin.id s })
    fun w => by split <;> exact ⟨rfl, rfl, rfl, rfl, rfl, rfl, rfl⟩
  pure s

def settleTexts (r : Report) : Plain Unit := do
  let w ← get
  let callers := (r.stack.getD []).filterMap fun s => if (w.scope s).isMethod then w.callerInfo s else none
  forEach (callers ++ [r.node]) fun n => do
    let _ ← nodeText n
    pure ()

def newFailure (c : ClassRef) (f : Failure) : Plain Value := do
  let args ← newTuple [.ofString (World.failureMessage f)]
  alloc { cls := c, payload := .failure f args }

def exceptionOf : Failure → Plain Value
  | .thrown v => pure v
  | f => newFailure (.core (World.failureClass f)) f

/-- An exception object as the failure that raising it brings about. What is meant for the caller of
a component stays the object it is. -/
def failureOf (w : World) (v : Value) : Failure :=
  match v with
  | .object i =>
    match (w.obj i).payload with
    | .failure f _ => if f.isLow then .thrown v else f
    | _ => .thrown v
  | v => .thrown v

theorem allows_failureOf (t : Tier) (w : World) (v : Value) : t.Allows (failureOf w v) := by
  unfold failureOf
  split
  · split
    · next f _ _ =>
      split
      · exact t.allows_thrown _
      · next h => cases f <;> cases t <;> trivial
    · exact t.allows_thrown _
  · exact t.allows_thrown _

def throw {α : Type} (v : Value) : Action .raising .proper α :=
  Action.failing (fun _ => .thrown v) fun _ => ⟨Tier.allows_thrown _ _, fun _ _ _ => trivial, fun ho => by cases ho⟩

def raiseFailure {α : Type} (e : Failure) : Action .raising .proper α := do
  let v ← exceptionOf e
  throw v

def raiseValue {α : Type} (v : Value) : Action .raising .proper α :=
  Action.failing (fun w => failureOf w v) fun w =>
    ⟨allows_failureOf _ w v, fun _ _ _ => trivial, fun _ => ⟨w, .calm (.refl w), trivial⟩⟩

def isFailureOf (w : World) (f : Failure) (c : CoreClass) : Bool :=
  match f with
  | .thrown v => w.isInstance v (.core c)
  | f => (World.failureClass f).mro.contains c

end Run

end ScriptCore
