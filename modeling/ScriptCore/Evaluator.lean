import ScriptCore.Eval

/-!
The operations that evaluation rules and host code use. Both are written against a record; the record is closed by
giving each level of recursion the one below it.
-/

namespace ScriptCore

inductive Request : Type → Type where
  | call (f : Value) (args : List Value) : Request Value
  | text (v : Value) : Request String
  | describe (v : Value) : Request String
  | equal (a b : Value) : Request Bool
  | hash (v : Value) : Request Hash
  | enter (s : ScopeId) (name : String) (args : List Value) (declaredOnly : Bool) : Request Value
  | setUp (s : ScopeId) (v : Value) (c : ClassRef) (args : List Value) : Request Unit

/-- What is done for a request may change everything, but leaves no failures that were meant for the
caller of a component. -/
abbrev Operation : Type → Type := Action .anything .proper

structure Evaluator where
  fuel : Nat
  exec : Node → Eval Ending
  answer : {α : Type} → Request α → Operation α

namespace Evaluator

variable {α : Type}

def exhausted : Evaluator where
  fuel := 0
  exec _ := Comp.exhausted
  answer _ := Action.exhausted

variable (ev : Evaluator)

def eval (n : Node) : Eval Value := do
  let r ← ev.exec n
  Eval.asValue r

def perform (n : Node) : Eval Unit := do
  let _ ← ev.exec n
  pure ()

/-- How the world may change while host code runs: it makes requests, and changes the component
types of arrays. -/
inductive Step (ev : Evaluator) (w w' : World) : Prop
  | retype (h : w.Inert w')
  | request {α : Type} (r : Request α) (h : (ev.answer r).run.Leads w w')

def Raises (c : CoreClass) : Prop :=
  ∃ (α : Type) (r : Request α) (w w' : World) (v : Value),
    (ev.answer r).run w = .failed (.thrown v) w' ∧ w'.isInstance v (.core c)

def Passes (w : World) (e : Failure) : Prop :=
  ∃ (α : Type) (r : Request α) (w' : World), (ev.answer r).run w = .failed e w'

def may : May where
  step := ev.Step
  raises := ev.Raises
  passes w e := e.IsLapse ∨ ev.Passes w e

def placing : May where
  step := ev.Step
  raises := ev.Raises
  passes w e := ev.may.passes w e ∨ ∃ m, e = .internal m

def answering : May where
  step := ev.Step
  raises _ := True
  passes _ _ := True

instance (ev : Evaluator) : May.Within .nothing ev.may := ⟨False.elim, False.elim, False.elim⟩

instance (ev : Evaluator) : May.Within .nothing ev.answering := ⟨False.elim, False.elim, False.elim⟩

instance (priority := low) (ev : Evaluator) : May.Within ev.may ev.may := ⟨id, id, id⟩

instance (priority := low) (ev : Evaluator) : May.Within ev.answering ev.answering := ⟨id, id, id⟩

instance (ev : Evaluator) : May.Within .retype ev.may := ⟨.retype, False.elim, .inl⟩

instance (ev : Evaluator) : May.Within .retype ev.answering := ⟨.retype, False.elim, fun _ => trivial⟩

instance (ev : Evaluator) : May.Within .storing ev.may :=
  ⟨fun ⟨s, f, h⟩ => .retype (h ▸ World.inert_setVars s f), False.elim, False.elim⟩

instance (ev : Evaluator) : May.Within .retype ev.placing := ⟨.retype, False.elim, fun h => .inl (.inl h)⟩

instance (ev : Evaluator) : May.Within .halting ev.placing := ⟨False.elim, False.elim, .inr⟩

instance (ev : Evaluator) : May.Within ev.may ev.placing := ⟨id, id, .inl⟩

instance (ev : Evaluator) : May.Within ev.placing ev.answering := ⟨id, fun _ => trivial, fun _ => trivial⟩

instance (ev : Evaluator) : May.Within .storing ev.answering :=
  ⟨fun ⟨s, f, h⟩ => .retype (h ▸ World.inert_setVars s f), False.elim, False.elim⟩

instance (ev : Evaluator) : May.Within .editing ev.answering :=
  ⟨fun ⟨s, f, h⟩ => .retype (h ▸ World.inert_setVars s f), False.elim, id⟩

instance (ev : Evaluator) : May.Within .halting ev.answering := ⟨False.elim, False.elim, fun _ => trivial⟩

instance (ev : Evaluator) : May.Within .raising ev.answering := ⟨False.elim, id, id⟩

instance (ev : Evaluator) : May.Within ev.may ev.answering := ⟨id, fun _ => trivial, fun _ => trivial⟩

abbrev Host : Type → Type := Action ev.may .proper

abbrev Answer : Type → Type := Action ev.answering .proper

def request (ev : Evaluator) (r : Request α) : ev.Host α where
  run := (ev.answer r).run
  lawful w := by
    have law := (ev.answer r).lawful w
    cases h : (ev.answer r).run w with
    | done a w' => exact .step (.request r (.done a h))
    | failed e w' =>
      rw [h] at law
      exact ⟨.step (.request r (.failed e h)), law.2.allowed, fun he _ hv => ⟨α, r, w, w', _, he ▸ h, hv⟩,
        fun _ => ⟨w, .calm (.refl w), .inr ⟨α, r, w', h⟩⟩⟩
    | exhausted => trivial

def call (ev : Evaluator) (f : Value) (args : List Value) : ev.Host Value := ev.request (.call f args)

def text (ev : Evaluator) (v : Value) : ev.Host String := ev.request (.text v)

def describe (ev : Evaluator) (v : Value) : ev.Host String := ev.request (.describe v)

def equal (ev : Evaluator) (a b : Value) : ev.Host Bool := ev.request (.equal a b)

def hashed (v : Value) : ev.Host Hash := ev.request (.hash v)

/-- Carries out a request. Failures that were meant for the caller of a component leave as the
exceptions they are. -/
def operation (x : Run α) : Operation α where
  run w :=
    match x w with
    | .failed e w' => if e.isLow then (Run.raiseFailure e).run w' else .failed e w'
    | o => o
  lawful w := by
    split
    · next e w' _ =>
      by_cases hl : e.isLow
      · rw [if_pos hl]
        have h : Reaches .anything w w' := .step trivial
        exact .after h ((Run.raiseFailure e).lawful w').mono
      · rw [if_neg hl]
        refine ⟨.step trivial, ?_, fun _ _ _ => trivial, fun _ => ⟨w, .calm (.refl w), trivial⟩⟩
        cases e <;> trivial
    · next o ho =>
      cases hx : x w with
      | done a w' => exact .step trivial
      | failed e w' => exact absurd hx (ho e w')
      | exhausted => trivial

end Evaluator

end ScriptCore
