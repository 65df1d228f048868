import ScriptCore.Proofs.Terms
import ScriptCore.Proofs.Views

namespace ScriptCore

def Terms.Lexical (c : Terms) : Prop := ∀ path, c.names path → View.asks path = false

theorem Terms.Lexical.discreet {c : Terms} (h : c.Lexical) : c.Discreet := fun path hp =>
  (Bool.or_eq_false_iff.mp (h path hp)).2

def Failure.untraced : Failure → Failure
  | report r => report { r with stack := none }
  | e => e

theorem Failure.eq_or_report {e e' : Failure} (h : e.untraced = e'.untraced) :
    e = e' ∨ ∃ r r', e = .report r ∧ e' = .report r' := by
  cases e with
  | report r =>
    cases e' with
    | report r' => exact .inr ⟨r, r', rfl, rfl⟩
    | _ => cases h
  | _ =>
    cases e' with
    | report r' => cases h
    | _ => exact .inl h

def Outcome.untraced {α : Type} : Outcome EvalState α → Outcome World α
  | done a σ => done a σ.world
  | failed e σ => failed e.untraced σ.world
  | exhausted => exhausted

def CallStack.SameTop (k k' : CallStack) : Prop := k.frames.head? = k'.frames.head?

section Alike

variable {α β γ δ : Type}

/-- Two evaluations that were started on the call stacks `k` and `k'` end alike: with results that
are related or with the same failure, in the same world, and with their stacks as they were. -/
inductive Outcome.Alike (c : Terms) (k k' : CallStack) (R : α → β → Prop) : Outcome EvalState α →
  Outcome EvalState β → Prop
  | done {a : α} {b : β} {w : World} (fits : c.Fits w) (related : R a b) :
      Alike c k k' R (.done a ⟨w, .own k⟩) (.done b ⟨w, .own k'⟩)
  | failed {e e' : Failure} {w : World} (fits : c.Fits w) (same : e.untraced = e'.untraced) :
      Alike c k k' R (.failed e ⟨w, .own k⟩) (.failed e' ⟨w, .own k'⟩)
  | exhausted : Alike c k k' R .exhausted .exhausted

theorem Outcome.Alike.untraced_eq {c : Terms} {k k' : CallStack} {P : α → Prop} {o o' : Outcome EvalState α}
    (h : Outcome.Alike c k k' (fun a b => a = b ∧ P a) o o') : o.untraced = o'.untraced := by
  cases h with
  | done _ same => rw [same.1]; rfl
  | failed _ same => exact congrArg (Outcome.failed · _) same
  | exhausted => rfl

/-- From any world that fits the terms, and on any two call stacks that are related, the evaluations
end alike. -/
def Eval.Alike (c : Terms) (S : CallStack → CallStack → Prop) (R : α → β → Prop) (x : Eval α) (y : Eval β) : Prop :=
  ∀ w k k', c.Fits w → S k k' → Outcome.Alike c k k' R (x ⟨w, .own k⟩) (y ⟨w, .own k'⟩)

namespace Eval.Alike

variable {c : Terms} {S : CallStack → CallStack → Prop} {R : α → β → Prop} {x : Eval α} {y : Eval β}

theorem pure {a : α} {b : β} (h : R a b) : Eval.Alike c S R (Pure.pure a) (Pure.pure b) := fun _ _ _ hw _ => .done hw h

theorem bind {f : α → Eval γ} {g : β → Eval δ} {Q : γ → δ → Prop} (hx : Eval.Alike c S R x y)
    (hf : ∀ a b, R a b → Eval.Alike c S Q (f a) (g b)) : Eval.Alike c S Q (x >>= f) (y >>= g) := by
  intro w k k' hw hk
  have run := hx w k k' hw hk
  change Outcome.Alike c k k' Q (Comp.bind x f _) (Comp.bind y g _)
  unfold Comp.bind
  generalize x ⟨w, .own k⟩ = o, y ⟨w, .own k'⟩ = o' at run ⊢
  cases run with
  | done fits related => exact hf _ _ related _ k k' fits hk
  | failed fits same => exact .failed fits same
  | exhausted => exact .exhausted

theorem mono {R' : α → β → Prop} (hx : Eval.Alike c S R x y) (h : ∀ a b, R a b → R' a b) : Eval.Alike c S R' x y := by
  intro w k k' hw hk
  have run := hx w k k' hw hk
  generalize x ⟨w, .own k⟩ = o, y ⟨w, .own k'⟩ = o' at run ⊢
  cases run with
  | done fits related => exact .done fits (h _ _ related)
  | failed fits same => exact .failed fits same
  | exhausted => exact .exhausted

theorem on {T : CallStack → CallStack → Prop} (hx : Eval.Alike c S R x y)
    (h : ∀ k k', T k k' → S k k') : Eval.Alike c T R x y :=
  fun w k k' hw hk => hx w k k' hw (h k k' hk)

theorem fail {e e' : Failure} (h : e.untraced = e'.untraced) : Eval.Alike c S R (Comp.fail e) (Comp.fail e') :=
  fun _ _ _ hw _ => .failed hw h

theorem exhausted : Eval.Alike c S R Comp.exhausted Comp.exhausted := fun _ _ _ _ _ => .exhausted

theorem lift {z : Run α} {P : α → Prop}
    (h : ∀ w, c.Fits w → z.Meets w (fun a w' => c.Fits w' ∧ P a) fun _ w' => c.Fits w') :
    Eval.Alike c S (fun a b => a = b ∧ P a) (Eval.lift z) (Eval.lift z) := by
  intro w k k' hw _
  have run := h w hw
  unfold Comp.Meets at run
  unfold Eval.lift
  split at run
  · next ran => rw [ran]; exact .done run.1 ⟨rfl, run.2⟩
  · next ran => rw [ran]; exact .failed run rfl
  · next ran => rw [ran]; exact .exhausted

theorem frames {f : List ScopeId → Eval α} {g : List ScopeId → Eval β}
    (h : ∀ fs fs', S ⟨fs⟩ ⟨fs'⟩ → Eval.Alike c S R (f fs) (g fs')) :
      Eval.Alike c S R (Eval.frames >>= f) (Eval.frames >>= g) :=
  fun w k k' hw hk => h k.frames k'.frames hk w k k' hw hk

theorem catching {hx hy : World → Failure → Option (Eval α)} {x y : Eval α} {R : α → α → Prop} (run : Eval.Alike c S R x y)
    (handled : ∀ w e e', e.untraced = e'.untraced → Option.Rel (Eval.Alike c S R) (hx w e) (hy w e')) :
    Eval.Alike c S R (Eval.catching x hx) (Eval.catching y hy) := by
  intro w k k' hw hk
  have run := run w k k' hw hk
  unfold Eval.catching Comp.catching
  generalize x ⟨w, .own k⟩ = o, y ⟨w, .own k'⟩ = o' at run ⊢
  cases run with
  | done fits related => exact .done fits related
  | @failed e e' w' fits same =>
    have answer := handled w' e e' same
    dsimp only
    generalize hx w' e = p, hy w' e' = q at answer ⊢
    cases answer with
    | some alike => exact alike w' k k' fits hk
    | none => exact .failed fits same
  | exhausted => exact .exhausted

theorem withFrame {r : ScopeId} (run : Eval.Alike c CallStack.SameTop R x y) :
    Eval.Alike c S R (Eval.withFrame r x) (Eval.withFrame r y) := by
  intro w k k' hw _
  have inner := run w ⟨r :: k.frames⟩ ⟨r :: k'.frames⟩ hw rfl
  change Outcome.Alike c k k' R (Comp.ensuring x Eval.pop ⟨w, .own ⟨r :: k.frames⟩⟩)
    (Comp.ensuring y Eval.pop ⟨w, .own ⟨r :: k'.frames⟩⟩)
  unfold Comp.ensuring
  generalize x ⟨w, .own ⟨r :: k.frames⟩⟩ = o, y ⟨w, .own ⟨r :: k'.frames⟩⟩ = o' at inner ⊢
  cases inner with
  | done fits related => exact .done fits related
  | failed fits same => exact .failed fits same
  | exhausted => exact .exhausted

theorem inPlace {r : ScopeId} (run : Eval.Alike c CallStack.SameTop R x y) :
    Eval.Alike c CallStack.SameTop R (Eval.inPlace r x) (Eval.inPlace r y) := by
  rintro w ⟨fs⟩ ⟨fs'⟩ hw hk
  cases fs with
  | nil =>
    cases fs' with
    | nil => exact .failed hw rfl
    | cons t' rest' => cases hk
  | cons t rest =>
    cases fs' with
    | nil => cases hk
    | cons t' rest' =>
      cases Option.some.inj hk
      have inner := run w ⟨r :: rest⟩ ⟨r :: rest'⟩ hw rfl
      change Outcome.Alike c _ _ R (Comp.ensuring x _ ⟨w, .own ⟨r :: rest⟩⟩) (Comp.ensuring y _ ⟨w, .own ⟨r :: rest'⟩⟩)
      unfold Comp.ensuring
      generalize x ⟨w, .own ⟨r :: rest⟩⟩ = o, y ⟨w, .own ⟨r :: rest'⟩⟩ = o' at inner ⊢
      cases inner with
      | done fits related => exact .done fits related
      | failed fits same => exact .failed fits same
      | exhausted => exact .exhausted

end Eval.Alike

end Alike

end ScriptCore
