import ScriptCore.Host.Access

namespace ScriptCore

inductive Binding where
  | held (s : ScopeId) (name : String)
  | field (target : Value) (name : String)
  deriving Inhabited

namespace World

def importTargets (w : World) (s : ScopeId) : List Value :=
  (w.scope s).importedObjects.reverse ++ (w.scope s).importedStatic.reverse

/-- The scope that an assignment goes to. A block leaves all that it does not hold itself to its
parent. -/
def bindingScope (w : World) (s : ScopeId) (name : String) : ScopeId :=
  ((w.ancestry s).find? fun t => !(w.scope t).isBlock || (w.scope t).vars.contains name).getD s

end World

namespace Run

def importedBinding (inScope : ScopeId → Plain (Option Binding)) (b : Bridge) (name : String)
    (target : Value) : Plain (Option Binding) :=
  match target with
  | .closure t => inScope t
  | target => do
    match ← resolveMember b target name with
    | some m => pure (if m.isMethod then none else some (.field target name))
    | none => pure none

/-- What a name stands for among the variables and imports of one scope. In the scope of a class
imports come before variables. -/
def localBinding (fuel : Nat) (s : ScopeId) (name : String) : Plain (Option Binding) :=
  match fuel with
  | 0 => Action.exhausted
  | fuel + 1 => do
    let w ← get
    let imported := firstSome (w.importTargets s) (importedBinding (localBinding fuel · name) (w.bridge s) name)
    let own : Option Binding := if (w.scope s).vars.contains name then some (.held s name) else none
    if (w.scope s).isClass then do
      match ← imported with
      | some b => pure (some b)
      | none => pure own
    else
      match own with
      | some b => pure (some b)
      | none => imported

variable (s : ScopeId)

/-- Imports lead from scope to scope without coming back, so there are no more steps than scopes. -/
def localBindingOf (name : String) : Plain (Option Binding) := do
  let n ← read fun w => w.scopes.size
  localBinding (n + 1) s name

/-- What a name stands for, here or, if `outwards`, in the nearest enclosing scope that knows it. -/
def findBinding (name : String) (outwards : Bool) : Plain (Option Binding) := do
  let scopes ← read fun w => if outwards then w.ancestry s else [s]
  firstSome scopes fun t => localBindingOf t name

def reflected {α : Type} {may : May} (x : Action may .any α) : Action may .fault α :=
  Action.converting x
    (fun w e =>
      match w.seen e with
      | .reflect m => some (fault (.text m))
      | .hostCall m v => some (Action.fail (.fault (.text m) (some ⟨v, true⟩)) trivial)
      | _ => none)
    fun _ e _ hn => by cases e <;> simp_all [World.seen, Tier.Allows]

def writeField (target : Value) (name : String) (value : Value) : Action .retype .fault Unit :=
  match target with
  | .null | .void => fault (.assignFieldOfNothing name)
  | target => reflected (setField target name value)

def readBinding : Binding → Faulty Value
  | .held s name => read fun w => ((w.scope s).vars.get? name).elim .void fun v => v.value.getD .none
  | .field target name => reflected (getField target name)

def writeBinding (b : Binding) (value : Value) : Action .retype .fault Unit :=
  match b with
  | .held s name => assignVariable s name value false
  | .field target name => writeField target name value

def getVariable (name : String) (outwards : Bool) : Faulty Value := do
  match ← findBinding s name outwards with
  | none => pure .void
  | some b => readBinding b

def bindIn (name : String) (value : Value) (strict outwards : Bool) :
    Action .retype .fault Unit :=
  match value with
  | .none => lapse .assignment
  | value => do
    match ← findBinding s name outwards with
    | some b => writeBinding b value
    | none => if strict then fault (.strictUndeclared name) else declareVariable s name .untyped (some value) {}

def setVariable (name : String) (value : Value) (strict outwards : Bool) :
    Action .retype .fault Unit := do
  let w ← get
  let t := w.bindingScope s name
  bindIn t name value strict (outwards && !(w.scope t).isBlock)

def setBlockVariable (name : String) (value : Value) : Action .retype .fault Unit :=
  bindIn s name value false false

/-- Declares a typed variable. Declaring it again with the same type gives it a new value; an
untyped one is replaced. -/
def setTypedVariable (name : String) (type : Ty) (value : Option Value) (modifiers : Modifiers) :
    Storing Unit := do
  match ← findBinding s name false with
  | some (.held t n) => do
    let var ← read fun w => ((w.scope t).vars.get? n).getD {}
    if var.type = .untyped then declareVariable s name type value modifiers
    else if var.type ≠ type then do
      let shown ← read fun w => w.typeName var.type
      fault (.declaredBefore name shown)
    else do
      putVariable t n { var with modifiers }
      match value with
      | none => pure ()
      | some v => assignVariable t n v true
  | _ => declareVariable s name type value modifiers

end Run

end ScriptCore
