import ScriptCore.Host.Iteration
import ScriptCore.Host.Property

namespace ScriptCore.Evaluator

def memberName (v : Value) : Plain String := do
  let w ← Run.get
  match w.text? v with
  | some s => pure s
  | none => Run.raise ⟨.attributeError, w.missingOn v "startswith"⟩

def givenPosition (v : Value) : Plain Int := do
  let w ← Run.get
  match w.integer? v with
  | some n => pure n
  | none => Run.refuse "'<' not supported between instances of '" v "' and 'int'"

def memberPart (m : Member) : Plain Value := do
  let shown ← Run.read fun w => w.memberText m
  let content ← Run.ofAttribute m.content
  Run.partObject .capability shown
    [("kind", .ofString m.kind), ("owner", m.owner), ("name", .ofString m.name), ("member", content)]

def memberArity (v : Value) : Plain Value := do
  let kind ← Run.getAttr v "kind"
  let content ← Run.getAttr v "member"
  let a ← Run.read fun w => if kind.text? = some "method" then Arity.ofValue? w content else none
  match a with
  | none => pure .none
  | some a => Run.alloc { cls := .core .range, payload := .range a.lo a.hi 1 }

def gatewayMethod (ev : Evaluator) (b : Bridge) (name : String) (args : List Value) : Action ev.may .any Value := do
  let target := args.headD .none
  let second := args[1]?.getD .none
  let third := args[2]?.getD .none
  let done := fun (x : Action ev.may .any Unit) => do
    x
    pure Value.none
  match name with
  | "length" => do
    match ← ev.sizeOf? target with
    | some n => pure (.int n)
    | none => pure .none
  | "get_index" => do
    let n ← givenPosition second
    ev.getIndex target n
  | "set_index" => do
    let n ← givenPosition second
    done (ev.setIndex target n third)
  | "construct" => do
    let given ← ev.elementsOf second
    ev.construct target given
  | "get_property" => ev.getProperty target second
  | "set_property" => done (ev.setProperty target second third)
  | "invoke" => do
    let content ← Run.getAttr target "member"
    let given ← ev.elementsOf second
    ev.invokeMember { isMethod := true, owner := .none, name, content := .value content } given
  | _ => do
    let member ← memberName second
    match name with
    | "resolve_member" => do
      match ← ev.resolveMember b target member with
      | some m => memberPart m
      | none => pure .none
    | "resolve_method" => do
      let count ← givenPosition third
      let m ← ev.resolveMethod b target member count.toNat
      memberPart m
    | "invoke_method" => do
      let given ← ev.elementsOf third
      ev.invokeHostMethod b target member given
    | "has_field" => do
      let found ← ev.hasField target member
      pure (.bool found)
    | "get_field" => ev.getField target member
    | _ => done (ev.setField target member third)

end ScriptCore.Evaluator
