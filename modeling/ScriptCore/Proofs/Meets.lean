import ScriptCore.Eval

namespace ScriptCore

section Outcomes

variable {σ α : Type} {o : Outcome σ α}

def Outcome.state? {σ α : Type} : Outcome σ α → Option σ
  | .done _ s | .failed _ s => some s
  | .exhausted => none

def Outcome.isDone {σ α : Type} : Outcome σ α → Bool
  | .done .. => true
  | _ => false

def Outcome.isFailed {σ α : Type} : Outcome σ α → Bool
  | .failed .. => true
  | _ => false

def Outcome.failsWith {σ α : Type} (p : Failure → Bool) : Outcome σ α → Bool
  | failed e _ => p e
  | _ => false

def Outcome.doneWith {σ α : Type} (p : α → σ → Bool) : Outcome σ α → Bool
  | done a s => p a s
  | _ => false

def Outcome.failedWith {σ α : Type} (p : Failure → σ → Bool) : Outcome σ α → Bool
  | failed e s => p e s
  | _ => false

def Outcome.reportsWith {σ α : Type} (p : Report → σ → Bool) : Outcome σ α → Bool
  | failed (.report r) s => p r s
  | _ => false

theorem Outcome.exists_of_isDone (h : o.isDone) : ∃ a s, o = .done a s := by
  cases o with
  | done a s => exact ⟨a, s, rfl⟩
  | _ => cases h

theorem Outcome.exists_of_isFailed (h : o.isFailed) : ∃ e s, o = .failed e s := by
  cases o with
  | failed e s => exact ⟨e, s, rfl⟩
  | _ => cases h

theorem Outcome.exists_of_doneWith {p : α → σ → Bool} (h : o.doneWith p) : ∃ a s, o = .done a s ∧ p a s := by
  cases o with
  | done a s => exact ⟨a, s, rfl, h⟩
  | _ => cases h

theorem Outcome.exists_of_failedWith {p : Failure → σ → Bool} (h : o.failedWith p) :
    ∃ e s, o = .failed e s ∧ p e s := by
  cases o with
  | failed e s => exact ⟨e, s, rfl, h⟩
  | _ => cases h

theorem Outcome.exists_of_reportsWith {p : Report → σ → Bool} (h : o.reportsWith p) :
    ∃ r s, o = .failed (.report r) s ∧ p r s := by
  unfold reportsWith at h
  split at h
  · exact ⟨_, _, rfl, h⟩
  · cases h

theorem Outcome.exists_of_failsWith {p : Failure → Bool} (h : o.failsWith p) : ∃ e s, o = .failed e s ∧ p e := by
  cases o with
  | failed e s => exact ⟨e, s, rfl, h⟩
  | _ => cases h

end Outcomes

namespace Comp

variable {σ α β : Type} {s : σ} {Q R : α → σ → Prop} {F G : Failure → σ → Prop}
variable {x : Comp σ α} {s' : σ} {f : α → Comp σ β}

/-- From the state `s`, results of `x` satisfy `Q` and failures satisfy `F`. -/
def Meets (x : Comp σ α) (s : σ) (Q : α → σ → Prop) (F : Failure → σ → Prop) : Prop :=
  match x s with
  | .done a s' => Q a s'
  | .failed e s' => F e s'
  | .exhausted => True

theorem Meets.mono (h : x.Meets s Q F) (hq : ∀ a s', Q a s' → R a s')
    (hf : ∀ e s', F e s' → G e s') : x.Meets s R G := by
  unfold Meets at *
  split at h
  · exact hq _ _ h
  · exact hf _ _ h
  · trivial

theorem Meets.imp (h : x.Meets s Q F) (hq : ∀ a s', Q a s' → R a s') : x.Meets s R F :=
  h.mono hq fun _ _ failed => failed

theorem Meets.impDone (h : x.Meets s Q F) (hq : ∀ a s', Q a s' → R a s') : x.Meets s R fun _ _ => True :=
  h.mono hq fun _ _ _ => trivial

theorem Meets.and (h : x.Meets s Q F) (k : x.Meets s R G) :
    x.Meets s (fun a s' => Q a s' ∧ R a s') fun e s' => F e s' ∧ G e s' := by
  unfold Meets at *
  split
  · next hx => rw [hx] at h k; exact ⟨h, k⟩
  · next hx => rw [hx] at h k; exact ⟨h, k⟩
  · trivial

theorem meets_of_forall (hq : ∀ a s', Q a s') (hf : ∀ e s', F e s') : x.Meets s Q F := by
  unfold Meets
  split
  · exact hq _ _
  · exact hf _ _
  · trivial

theorem meets_self (x : Comp σ α) (s : σ) :
    x.Meets s (fun a s' => x s = .done a s') fun e s' => x s = .failed e s' := by
  unfold Meets
  split
  · next h => exact h
  · next h => exact h
  · trivial

theorem Meets.of_done {a : α} (h : x.Meets s Q F) (hx : x s = .done a s') : Q a s' := by
  simpa [Meets, hx] using h

theorem Meets.of_failed {e : Failure} (h : x.Meets s Q F) (hx : x s = .failed e s') : F e s' := by
  simpa [Meets, hx] using h

theorem bind_of_done {a : α} (h : x s = .done a s') : (x >>= f) s = f a s' := by
  show Comp.bind x f s = _
  unfold Comp.bind
  rw [h]

theorem bind_of_failed {e : Failure} (h : x s = .failed e s') : (x >>= f) s = .failed e s' := by
  show Comp.bind x f s = .failed e s'
  unfold Comp.bind
  rw [h]

theorem bind_of_exhausted (h : x s = .exhausted) : (x >>= f) s = .exhausted := by
  show Comp.bind x f s = .exhausted
  unfold Comp.bind
  rw [h]

theorem leads_of_state? (h : (x s).state? = some s') : x.Leads s s' := by
  cases hx : x s with
  | done a u => rw [hx] at h; cases h; exact .done a hx
  | failed e u => rw [hx] at h; cases h; exact .failed e hx
  | exhausted => rw [hx] at h; cases h

theorem Meets.of_leads {P : σ → Prop} (h : x.Meets s (fun _ => P) fun _ => P) (hx : x.Leads s s') : P s' := by
  cases hx with
  | done a hx => exact h.of_done hx
  | failed e hx => exact h.of_failed hx

theorem Leads.eq_of_done {a : α} {s' u : σ} (h : x.Leads s s') (hx : x s = .done a u) : s' = u := by
  cases h with
  | done b h =>
    rw [hx] at h
    cases h
    rfl
  | failed e h =>
    rw [hx] at h
    cases h

@[simp] theorem meets_pure {a : α} : (Pure.pure a : Comp σ α).Meets s Q F ↔ Q a s := Iff.rfl

@[simp] theorem meets_bind {Q : β → σ → Prop} :
    (x >>= f).Meets s Q F ↔ x.Meets s (fun a s' => (f a).Meets s' Q F) F := by
  show Meets (Comp.bind x f) s Q F ↔ _
  unfold Meets Comp.bind
  cases x s <;> rfl

@[simp] theorem meets_ensuring {last : Comp σ Unit} : (Comp.ensuring x last).Meets s Q F ↔
      x.Meets s (fun a s' => last.Meets s' (fun _ s'' => Q a s'') F) fun e s' =>
        last.Meets s' (fun _ s'' => F e s'') F := by
  unfold Meets Comp.ensuring Comp.bind
  cases x s with
  | done a s' => dsimp only; cases last s' <;> rfl
  | failed e s' => dsimp only; cases last s' <;> rfl
  | exhausted => rfl

end Comp

namespace Action

variable {may : May} {s t : Tier} {α : Type} {w : World} {Q : α → World → Prop} {F : Failure → World → Prop}

theorem meets (x : Action may t α) (w : World) :
    x.run.Meets w (fun _ w' => Reaches may w w') fun e w' => Reaches may w w' ∧ Permits may t w w' e := by
  have law := x.lawful w
  unfold Comp.Meets
  unfold Lawful at law
  split <;> simp_all

theorem meets_calm (x : Action .nothing t α) (w : World) : x.run.Meets w (fun _ w' => w.Calm w') fun _ w' => w.Calm w' :=
  (x.meets w).mono (fun _ _ h => h.toCalm) fun _ _ h => h.1.toCalm

theorem meets_bind {β : Type} {x : Action may t α} {f : α → Action may t β} {Q : β → World → Prop} :
    (x >>= f).run.Meets w Q F ↔ x.run.Meets w (fun a w' => (f a).run.Meets w' Q F) F := Comp.meets_bind

theorem meets_converting {x : Action may s α} {handler : World → Failure → Option (Action may t α)}
    {rest : ∀ w e, s.Allows e → handler w e = none → t.Allows e} :
    (converting x handler rest).run.Meets w Q F ↔
      x.run.Meets w Q fun e w' =>
        match handler w' e with
        | some y => y.run.Meets w' Q F
        | none => F e w' := by
  unfold converting Comp.Meets Comp.catching
  dsimp only
  cases x.run w with
  | done a w' => rfl
  | failed e w' => dsimp only; cases handler w' e <;> rfl
  | exhausted => rfl

theorem meets_catching {x : Action may t α} {handler : World → Failure → Option (Action may t α)} :
    (catching x handler).run.Meets w Q F ↔
      x.run.Meets w Q fun e w' =>
        match handler w' e with
        | some y => y.run.Meets w' Q F
        | none => F e w' :=
  meets_converting

end Action

namespace Run

variable {α : Type} {w : World} {F : Failure → World → Prop} {Q : Unit → World → Prop}

@[simp] theorem meets_read {f : World → α} {Q : α → World → Prop} : (read f).run.Meets w Q F ↔ Q (f w) w := Iff.rfl

@[simp] theorem meets_get {Q : World → World → Prop} : get.run.Meets w Q F ↔ Q w w := Iff.rfl

@[simp] theorem meets_alloc {o : Obj} {Q : Value → World → Prop} :
    (alloc o).run.Meets w Q F ↔
      Q (.object w.objects.size) { w with objects := w.objects.push { o with classMethods := [] } } := Iff.rfl

@[simp] theorem meets_updateScope {s : ScopeId} {f : Scope → Scope} {h : ∀ x : Scope, x.Calm (f x)}
    : (updateScope s f h).run.Meets w Q F ↔ Q () (w.modifyScope s f) := Iff.rfl

@[simp] theorem meets_updateVars {s : ScopeId} {f : Table Variable → Table Variable} :
    (updateVars s f).run.Meets w Q F ↔ Q () (w.setVars s f) := Iff.rfl

@[simp] theorem meets_updateObj {i : ObjectId} {f : Obj → Obj} {h : ∀ o : Obj, o.Calm (f o)}
    : (updateObj i f h).run.Meets w Q F ↔ Q () (w.modifyObj i f) := Iff.rfl

end Run

namespace Eval

variable {α : Type} {may : May} {t : Tier} {σ : EvalState} {Q : α → EvalState → Prop} {F : Failure → EvalState → Prop}

@[simp] theorem meets_lift {x : Run α} :
    (lift x).Meets σ Q F ↔ x.Meets σ.world (fun a w => Q a { σ with world := w }) fun e w => F e { σ with world := w } := by
  unfold Comp.Meets lift
  cases x σ.world <;> rfl

@[simp] theorem monadLift_run (x : Run α) : (monadLift x : Eval α) = lift x := rfl

@[simp] theorem monadLift_action (x : Action may t α) : (monadLift x : Eval α) = lift x.run := rfl

@[simp] theorem meets_frames {Q : List ScopeId → EvalState → Prop} : frames.Meets σ Q F ↔ Q σ.frames σ := Iff.rfl

@[simp] theorem meets_setFrames {k : List ScopeId} {Q : Unit → EvalState → Prop} :
    (setFrames k).Meets σ Q F ↔ Q () (σ.setFrames k) := Iff.rfl

@[simp] theorem meets_catching {x : Eval α} {handler : World → Failure → Option (Eval α)} :
    (catching x handler).Meets σ Q F ↔
      x.Meets σ Q fun e σ' =>
        match handler σ'.world e with
        | some y => y.Meets σ' Q F
        | none => F e σ' := by
  unfold catching Comp.Meets Comp.catching
  cases x σ with
  | done a σ' => rfl
  | failed e σ' => dsimp only; cases handler σ'.world e <;> rfl
  | exhausted => rfl

theorem meets_located {intro : Option String} {node : Node} {x : Eval α}
    (h : x.Meets σ Q fun _ _ => True) : (located intro node x).Meets σ Q fun _ _ => True := by
  unfold located
  refine meets_catching.mpr (h.mono (fun _ _ h => h) fun e σ' _ => ?_)
  split
  · next hy =>
    split at hy
    · cases hy; trivial
    · cases hy
  · trivial

end Eval

end ScriptCore
