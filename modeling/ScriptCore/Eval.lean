import ScriptCore.Report

namespace ScriptCore

/-- The call stack that is running: one that only the evaluation knows, or one that a script has got
hold of. -/
inductive StackRef where
  | own (k : CallStack)
  | shared (n : Nat)

structure EvalState where
  world : World
  running : StackRef

namespace EvalState

def frames (σ : EvalState) : List ScopeId :=
  match σ.running with
  | .own k => k.frames
  | .shared n => (σ.world.stack n).frames

def setFrames (σ : EvalState) (frames : List ScopeId) : EvalState :=
  match σ.running with
  | .own _ => { σ with running := .own ⟨frames⟩ }
  | .shared n => { σ with world := { σ.world with sharedStacks := σ.world.sharedStacks.modify n fun _ => ⟨frames⟩ } }

end EvalState

abbrev Eval : Type → Type := Comp EvalState

/-- How the evaluation of a node ends: with a value, or with a signal for what is around the node. A
signal that was used as a value has a number. -/
inductive Ending where
  | value (v : Value)
  | signal (s : Signal) (number : Option Nat)

def Ending.signal? : Ending → Option Signal
  | value _ => none
  | signal s _ => some s

def World.signal? (w : World) : Value → Option Signal
  | .signal n => w.signals[n]?
  | _ => none

def World.ending (w : World) (v : Value) : Ending :=
  match v with
  | .signal n =>
    match w.signals[n]? with
    | some s => .signal s (some n)
    | none => .value v
  | v => .value v

namespace Eval

variable {α β : Type} {may : May} {t : Tier}

@[inline] def lift (x : Run α) : Eval α := fun σ =>
  match x σ.world with
  | .done a w => .done a { σ with world := w }
  | .failed e w => .failed e { σ with world := w }
  | .exhausted => .exhausted

instance : MonadLiftT Run Eval := ⟨lift⟩

instance : MonadLiftT (Action may t) Eval := ⟨fun x => lift x.run⟩

instance (f : β → Action may t α) : CoeT (β → Action may t α) f (β → Eval α) := ⟨fun b => lift (f b).run⟩

@[inline] def frames : Eval (List ScopeId) := fun σ => .done σ.frames σ

@[inline] def setFrames (frames : List ScopeId) : Eval Unit := fun σ => .done () (σ.setFrames frames)

def top : Eval ScopeId := do
  let k ← frames
  pure (k.headD 0)

def push (s : ScopeId) : Eval Unit := do
  let k ← frames
  setFrames (s :: k)

def pop : Eval Unit := do
  match ← frames with
  | [] => Run.internal "pop on empty CallStack"
  | _ :: rest => setFrames rest

def swap (s : ScopeId) : Eval ScopeId := do
  match ← frames with
  | [] => Run.internal "swap on empty CallStack"
  | t :: rest => do
    setFrames (s :: rest)
    pure t

def withFrame (s : ScopeId) (x : Eval α) : Eval α := do
  push s
  Comp.ensuring x pop

def inPlace (s : ScopeId) (x : Eval α) : Eval α := do
  let before ← swap s
  Comp.ensuring x do
    let _ ← swap before
    pure ()

def unwound (depth : Nat) : List ScopeId → List ScopeId
  | [] => []
  | s :: rest => if depth < rest.length + 1 then unwound depth rest else s :: rest

/-- Takes frames off the call stack until no more than `depth` are left. -/
def unwindTo (depth : Nat) : Eval Unit := do
  let k ← frames
  setFrames (unwound depth k)

def share : Eval Nat := fun σ =>
  match σ.running with
  | .own k =>
    .done σ.world.sharedStacks.size
      ⟨{ σ.world with sharedStacks := σ.world.sharedStacks.push k }, .shared σ.world.sharedStacks.size⟩
  | .shared n => .done n σ

def asValue : Ending → Eval Value
  | .value v => pure v
  | .signal _ (some n) => pure (.signal n)
  | .signal s none => fun σ =>
    .done (.signal σ.world.signals.size) { σ with world := { σ.world with signals := σ.world.signals.push s } }

def endingWith (x : Eval Value) : Eval Ending := do
  let v ← x
  Run.read fun w => w.ending v

@[inline] def catching (x : Eval α) (handler : World → Failure → Option (Eval α)) : Eval α :=
  Comp.catching x fun e σ =>
    match handler σ.world e with
    | some y => y σ
    | none => .failed e σ

def stop (node : Node) (c : Cause) : Eval α := do
  let k ← frames
  Comp.fail (.report { message := c.message, node, stack := some k })

def stopWith (node : Node) (message : String) (exception : Value) (native : Bool) : Eval α := do
  let k ← frames
  Comp.fail (.report { message, node, stack := some k, target := some ⟨exception, native⟩ })

def located (intro : Option String) (node : Node) (x : Eval α) : Eval α :=
  catching x fun w e =>
    match w.seen e with
    | .fault c t => some do
      let k ← frames
      Comp.fail (Run.locate intro node (some k) c t)
    | _ => none

end Eval

def Run.onStack {α : Type} (frames : List ScopeId) (x : Eval α) : Run α := fun w =>
  match x ⟨w, .own ⟨frames⟩⟩ with
  | .done a σ => .done a σ.world
  | .failed e σ => .failed e σ.world
  | .exhausted => .exhausted

end ScriptCore
