import ScriptCore.Proofs.StatementRules

namespace ScriptCore

def Failure.isReport : Failure → Bool
  | report _ => true
  | _ => false

/-- The computation, except that it comes to no end where it would fail as `p` says. -/
def Action.withholding {may : May} {t : Tier} {α : Type} (p : World → Failure → Bool)
    (x : Action may t α) : Action may t α where
  run w :=
    match x.run w with
    | .failed e w' => if p w' e then .exhausted else .failed e w'
    | o => o
  lawful w := by
    have law := x.lawful w
    split
    · next e w' h =>
      rw [h] at law
      split
      · trivial
      · exact law
    · exact law

namespace Action

variable {may : May} {t : Tier} {α : Type} {x : Action may t α} {p : World → Failure → Bool} {w w' : World} {e : Failure}

theorem withholding_failed (h : (x.withholding p).run w = .failed e w') :
    x.run w = .failed e w' ∧ p w' e = false := by
  simp only [withholding] at h
  split at h
  · next e' v hx =>
    split at h
    · cases h
    · next other =>
      cases h
      exact ⟨hx, Bool.eq_false_iff.mpr other⟩
  · next other => exact absurd h (other e w')

theorem withholding_leads (h : (x.withholding p).run.Leads w w') : x.run.Leads w w' := by
  cases h with
  | failed e h => exact .failed e (withholding_failed h).1
  | done a h =>
    refine .done a ?_
    simp only [withholding] at h
    split at h
    · split at h <;> cases h
    · exact h

end Action

/-- A host that the language is put into: how it answers the requests of rules, by the level of
recursion. The evaluator is one that answers them itself, one level down. -/
structure Embedding where
  answer (level : Nat) {α : Type} (r : Request α) : Operation α

namespace Evaluator

/-- The rules of the language in any host. They reach host code through requests only. -/
def hosted (E : Embedding) : Nat → Evaluator
  | 0 => { fuel := 0, exec := fun _ => Comp.exhausted, answer := E.answer 0 }
  | n + 1 => { fuel := n + 1, exec := fun node σ => (hosted E n).evalNode node σ, answer := E.answer (n + 1) }

end Evaluator

namespace Embedding

variable {E : Embedding} {c : Terms}

def own : Embedding := ⟨fun level _ r => (Evaluator.ofFuel level).answer r⟩

def silent : Embedding := ⟨fun _ _ _ => Action.exhausted⟩

/-- The host that gives the same answers, but none where it would fail as `p` says. -/
def withholding (E : Embedding) (p : World → Failure → Bool) : Embedding :=
  ⟨fun level _ r => (E.answer level r).withholding p⟩

/-- None of the requests that a computation makes is answered by a failure of the kind `p`: it ends
the same way in the host that withholds such answers. -/
def Spares (E : Embedding) (p : World → Failure → Bool) {σ α : Type} (n : Nat) (x : Evaluator → Comp σ α) (s : σ) : Prop :=
  x (Evaluator.hosted (E.withholding p) n) s = x (Evaluator.hosted E n) s

/-- Answers leave the world in a state that satisfies `p` if it was in one, and scopes what they
were. -/
def Respects (E : Embedding) (p : World → Prop) : Prop :=
  ∀ (level : Nat) {α : Type} (r : Request α) (w w' : World), (E.answer level r).run.Leads w w' → p w →
    p w' ∧ w.SameFrames w'

variable {p : World → Prop}

theorem Respects.withholding (h : E.Respects p) (q : World → Failure → Bool) :
    (E.withholding q).Respects p :=
  fun level _ r w w' hl => h level r w w' (Action.withholding_leads hl)

theorem silent_respects (p : World → Prop) : silent.Respects p := by
  intro level α r w w' hl
  cases hl with
  | done a h => cases h
  | failed e h => cases h

theorem silent_spares (p : World → Failure → Bool) {σ α : Type} (n : Nat) (x : Evaluator → Comp σ α)
    (s : σ) : silent.Spares p n x s := by
  have same : silent.withholding p = silent := rfl
  rw [Spares, same]

theorem own_respects (fits : ∀ {w}, c.Fits w ↔ p w) (sound : ∀ n, (Evaluator.ofFuel n).Sound c) :
    own.Respects p := by
  intro level α r w w' hl hw
  obtain ⟨after, same⟩ := (sound level).answer r hl (fits.mpr hw)
  exact ⟨fits.mp after, same.frames⟩

/-- The rules keep to the terms in a host that keeps worlds as they ask for it, if no failure by
which it answers is against the terms. -/
theorem sound_hosted (fits : ∀ {w}, c.Fits w ↔ p w) (host : E.Respects p)
    (raises : ∀ level {α : Type} (r : Request α) w w' v d, (E.answer level r).run w =
      .failed (.thrown v) w' → w'.isInstance v (.core d) → c.raises d)
    (passes : ∀ level {α : Type} (r : Request α) w w' e, (E.answer level r).run w = .failed e w' → c.passes e) (n : Nat)
    (loose : c.steady = false := by rfl) : (Evaluator.hosted E n).Sound c := by
  have answer (level : Nat) {α : Type} (r : Request α) {w w' : World} (hl : (E.answer level r).run.Leads w w')
      (hw : c.Fits w) : c.Fits w' ∧ c.Since w w' := by
    obtain ⟨after, same⟩ := host level r w w' hl (fits.mp hw)
    exact ⟨fits.mpr after, same, fun steady => by rw [loose] at steady; cases steady⟩
  induction n with
  | zero =>
    refine ⟨fun _ _ => .exhausted, answer 0, fun raised => ?_, fun _ passed => ?_⟩
    · obtain ⟨α, r, w, w', v, h, hv⟩ := raised
      exact raises 0 r w w' v _ h hv
    · obtain ⟨α, r, w', h⟩ := passed
      exact passes 0 r _ w' _ h
  | succ n ih =>
    refine ⟨fun _ hn => ih.evalNode hn, answer (n + 1), fun raised => ?_, fun _ passed => ?_⟩
    · obtain ⟨α, r, w, w', v, h, hv⟩ := raised
      exact raises (n + 1) r w w' v _ h hv
    · obtain ⟨α, r, w', h⟩ := passed
      exact passes (n + 1) r _ w' _ h

end Embedding

theorem Evaluator.ofFuel_eq_hosted (n : Nat) : ofFuel n = hosted .own n := by
  induction n with
  | zero => rfl
  | succ n ih =>
    unfold hosted
    rw [← ih]
    rfl

end ScriptCore
