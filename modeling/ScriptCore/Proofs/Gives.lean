import ScriptCore.Proofs.Meets

namespace ScriptCore

namespace Comp

variable {σ α β : Type} {s : σ} {Q R : α → σ → Prop} {x : Comp σ α}

/-- From the state `s`, `x` ends with a result that satisfies `Q`. -/
def Gives (x : Comp σ α) (s : σ) (Q : α → σ → Prop) : Prop :=
  match x s with
  | .done a s' => Q a s'
  | _ => False

theorem gives_iff : x.Gives s Q ↔ ∃ a s', x s = .done a s' ∧ Q a s' := by
  unfold Gives
  cases x s with
  | done a s' =>
    constructor
    · intro h
      exact ⟨a, s', rfl, h⟩
    · rintro ⟨_, _, he, h⟩
      cases he
      exact h
  | failed e s' => exact ⟨False.elim, fun ⟨_, _, he, _⟩ => by cases he⟩
  | exhausted => exact ⟨False.elim, fun ⟨_, _, he, _⟩ => by cases he⟩

theorem Gives.mono (h : x.Gives s Q) (hq : ∀ a s', Q a s' → R a s') : x.Gives s R := by
  obtain ⟨a, s', hx, ha⟩ := gives_iff.mp h
  exact gives_iff.mpr ⟨a, s', hx, hq a s' ha⟩

theorem gives_congr (h : ∀ a s', Q a s' ↔ R a s') : x.Gives s Q ↔ x.Gives s R :=
  ⟨fun hx => hx.mono fun a s' => (h a s').mp, fun hx => hx.mono fun a s' => (h a s').mpr⟩

@[simp] theorem gives_pure {a : α} : (Pure.pure a : Comp σ α).Gives s Q ↔ Q a s := Iff.rfl

@[simp] theorem gives_bind {f : α → Comp σ β} {Q : β → σ → Prop} :
    (x >>= f).Gives s Q ↔ x.Gives s fun a s' => (f a).Gives s' Q := by
  simp only [Gives, Bind.bind, Comp.bind]
  cases x s <;> rfl

theorem bind_done_iff {f : α → Comp σ β} {b : β} {s' : σ} :
    (x >>= f) s = .done b s' ↔ ∃ a t, x s = .done a t ∧ f a t = .done b s' := by
  change Comp.bind x f s = _ ↔ _
  unfold Comp.bind
  cases x s with
  | done a t =>
    constructor
    · intro h
      exact ⟨a, t, rfl, h⟩
    · rintro ⟨_, _, he, h⟩
      cases he
      exact h
  | failed e t => exact iff_of_false (fun h => by cases h) (by rintro ⟨_, _, he, -⟩; cases he)
  | exhausted => exact iff_of_false (fun h => by cases h) (by rintro ⟨_, _, he, -⟩; cases he)

theorem gives_const {p : Prop} : (x.Gives s fun _ _ => p) ↔ (x.Gives s fun _ _ => True) ∧ p := by
  unfold Gives
  cases x s with
  | done a s' => simp
  | _ => simp

theorem bind_assoc {γ : Type} (x : Comp σ α) (f : α → Comp σ β) (g : β → Comp σ γ) :
    x >>= f >>= g = x >>= fun a => f a >>= g := by
  funext s
  change Comp.bind (Comp.bind x f) g s = Comp.bind x (fun a => Comp.bind (f a) g) s
  unfold Comp.bind
  cases x s <;> rfl

theorem gives_forEach {xs : List α} {f : α → Comp σ Unit} {P : σ → Prop}
    (hf : ∀ x ∈ xs, ∀ s, P s → (f x).Gives s fun _ => P) (hs : P s) : (forEach xs f).Gives s fun _ => P := by
  induction xs generalizing s with
  | nil => exact hs
  | cons x rest ih =>
    refine gives_bind.mpr ((hf x (by simp) s hs).mono fun _ s' hs' => ?_)
    exact ih (fun y hy => hf y (by simp [hy])) hs'

end Comp

namespace Action

variable {may may' : May} {r t : Tier} {α β : Type} {w w' : World}

theorem run_bind_of_done {x : Action may t α} {f : α → Action may t β} {a : α}
    (h : x.run w = .done a w') : (x >>= f).run w = (f a).run w' :=
  Comp.bind_of_done h

theorem run_liftM_bind_of_done [May.Within may may'] [Tier.Within r t] {x : Action may r α}
    {f : α → Action may' t β} {a : α}
    (h : x.run w = .done a w') : ((liftM x : Action may' t α) >>= f).run w = (f a).run w' :=
  run_bind_of_done (x := (liftM x : Action may' t α)) h

theorem run_get_bind [May.Within .nothing may] [Tier.Within .proper t] (f : World → Action may t α) :
    ((liftM Run.get : Action may t World) >>= f).run w = (f w).run w := rfl

theorem run_read_bind [May.Within .nothing may] [Tier.Within .proper t] (g : World → α) (f : α → Action may t β) :
    ((liftM (Run.read g) : Action may t α) >>= f).run w = (f (g w)).run w := rfl

@[simp] theorem liftM_run (x : Action may t α) : (liftM x : Run α) = x.run := rfl

theorem run_forEach (xs : List α) (f : α → Action may t Unit) : (forEach xs f).run = forEach xs fun x => (f x).run := by
  induction xs with
  | nil => rfl
  | cons x rest ih =>
    simp only [forEach, run_bind]
    rw [ih]

end Action

namespace Run

variable {w : World} {α : Type}

@[simp] theorem gives_get {Q : World → World → Prop} : get.run.Gives w Q ↔ Q w w := Iff.rfl

end Run

namespace Eval

variable {may : May} {t : Tier} {α : Type} {a : α} {σ : EvalState}

theorem liftM_of_done {x : Action may t α} {w w' : World} (h : x.run w = .done a w')
    (r : StackRef) : (liftM x : Eval α) ⟨w, r⟩ = .done a ⟨w', r⟩ := by
  change lift x.run ⟨w, r⟩ = _
  simp only [lift, h]

theorem liftM_of_failed {x : Action may t α} {e : Failure} {w w' : World} (h : x.run w = .failed e w') (r : StackRef) :
    (liftM x : Eval α) ⟨w, r⟩ = .failed e ⟨w', r⟩ := by
  change lift x.run ⟨w, r⟩ = _
  simp only [lift, h]

theorem lift_bind_of_done {β : Type} {x : Run α} {f : α → Eval β} {w : World}
    (h : x σ.world = .done a w) : (lift x >>= f) σ = f a { σ with world := w } := by
  refine Comp.bind_of_done ?_
  unfold lift
  rw [h]

theorem get_bind {f : World → Eval α} : ((liftM Run.get : Eval World) >>= f) σ = f σ.world σ := rfl

theorem read_bind {β : Type} {g : World → α} {f : α → Eval β} :
    ((liftM (Run.read g) : Eval α) >>= f) σ = f (g σ.world) σ := rfl

theorem catching_of_done {x : Eval α} {handler : World → Failure → Option (Eval α)}
    {σ σ' : EvalState} (h : x σ = .done a σ') : catching x handler σ = .done a σ' := by
  simp only [catching, Comp.catching, h]

end Eval

end ScriptCore
