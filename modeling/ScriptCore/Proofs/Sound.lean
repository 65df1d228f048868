import ScriptCore.Proofs.Alike
import ScriptCore.Proofs.Snapshots

/-!
What the rules of evaluation keep to, whatever they evaluate: the call stack, the code that is kept, the scopes, and the failures
that may leave a rule.
-/

namespace ScriptCore

namespace Terms

/-- The world of a state fits the terms, scopes and classes are what they were in the world `w₀`,
and if names are discreet, the call stack that runs is `k` and nobody else knows it. Complete trees
run on a call stack that is not empty. -/
structure Kept (c : Terms) (w₀ : World) (k : CallStack) (σ : EvalState) : Prop where
  fits : c.Fits σ.world
  since : c.Since w₀ σ.world
  stack : c.Discreet → σ.running = .own k
  started : c.complete → k.frames ≠ []

/-- How an evaluation on the call stack `k` may fail: as its tier allows, and with outright errors
only if they may come up or were located on the stack. -/
structure Permits (c : Terms) (k : CallStack) (t : Tier) (w : World) (e : Failure) : Prop where
  allowed : t.Allows e
  raised : ∀ {v : Value} {d : CoreClass}, e = .thrown v → d ∈ CoreClass.reserved → w.isInstance v (.core d) → c.raises d
  passed : e.isOutright → c.passes e ∨ w.RaisedOn k e

variable {c : Terms} {w₀ : World} {k : CallStack} {σ : EvalState} {s t : Tier} {e : Failure}

theorem Kept.frames (h : c.Kept w₀ k σ) (hd : c.Discreet) : σ.frames = k.frames := by
  simp [EvalState.frames, h.stack hd]

theorem since_setFrames (c : Terms) (σ : EvalState) (fs : List ScopeId) : c.Since σ.world (σ.setFrames fs).world := by
  unfold EvalState.setFrames
  split
  · exact .refl σ.world
  · exact .of_calm (World.calm_of_eq (w := σ.world) rfl rfl rfl rfl rfl)

theorem Fits.setFrames (h : c.Fits σ.world) (fs : List ScopeId) : c.Fits (σ.setFrames fs).world := by
  unfold EvalState.setFrames
  split
  · exact h
  · exact h.of_calm (World.calm_of_eq (w := σ.world) rfl rfl rfl rfl rfl)

theorem Kept.setFrames (h : c.Kept w₀ k σ) {fs : List ScopeId} (given : fs ≠ []) : c.Kept w₀ ⟨fs⟩ (σ.setFrames fs) where
  fits := h.fits.setFrames fs
  since := h.since.trans (since_setFrames c σ fs)
  stack hd := by simp [EvalState.setFrames, h.stack hd]
  started _ := given

theorem Kept.world (h : c.Kept w₀ k σ) {w : World} (hw : c.Fits w) (same : c.Since σ.world w) :
    c.Kept w₀ k { σ with world := w } :=
  ⟨hw, h.since.trans same, h.stack, h.started⟩

theorem Kept.afresh (h : c.Kept w₀ k σ) : c.Kept σ.world k σ := ⟨h.fits, .refl _, h.stack, h.started⟩

theorem Kept.trans {k' : CallStack} {σ' : EvalState} (h : c.Kept w₀ k σ) (h' : c.Kept σ.world k' σ') : c.Kept w₀ k' σ' :=
  ⟨h'.fits, h.since.trans h'.since, h'.stack, h'.started⟩

namespace Permits

variable {w w' : World}

theorem of_makes (h : t.Makes e) : c.Permits k t w e where
  allowed := Tier.allows_of_makes h
  raised he := by subst he; exact h.elim
  passed ho := by cases e <;> first | exact h.elim | cases ho

theorem of_passes (ho : e.isOutright) (h : c.passes e ∨ w.RaisedOn k e) : c.Permits k t w e where
  allowed := Tier.allows_of_isOutright ho
  raised he := by subst he; cases ho
  passed _ := h

theorem imp (h : c.Permits k s w e) {k' : CallStack} (allowed : s.Allows e → t.Allows e)
    (kept : ∀ v d, w'.isInstance v (.core d) → w.isInstance v (.core d))
    (raised : w.RaisedOn k e → c.passes e ∨ w'.RaisedOn k' e) : c.Permits k' t w' e where
  allowed := allowed h.allowed
  raised he hd hv := h.raised he hd (kept _ _ hv)
  passed ho := (h.passed ho).elim .inl raised

theorem setFrames (h : c.Permits k t σ.world e) (fs : List ScopeId) : c.Permits k t (σ.setFrames fs).world e := by
  refine h.imp id (fun v d hv => ?_) fun raised => .inr (raised.later (since_setFrames c σ fs).frames)
  unfold EvalState.setFrames at hv
  split at hv <;> exact hv

theorem onStack (h : c.Permits k t w e) {k' : CallStack}
    (from' : c.Discreet → ∀ ss, w.Extends ss k.frames → w.Extends ss k'.frames) : c.Permits k' t w e := by
  refine h.imp id (fun _ _ hv => hv) ?_
  rintro ⟨r, ss, rfl, shown, grown⟩
  rcases c.reports with discreet | all
  · exact .inr ⟨r, ss, rfl, shown, from' discreet ss grown⟩
  · exact .inl (all r)

theorem call {r : ScopeId} (h : c.Permits ⟨r :: k.frames⟩ t w e) :
    c.Permits k t w e := h.onStack fun _ _ grown => grown.call

end Permits

theorem passes_internal (h : c.complete → ¬c.Discreet) (m : String) : c.passes (.internal m) :=
  c.halts.elim (fun hc => absurd hc.2 (h hc.1)) fun all => all m

end Terms

/-- The computation keeps to the terms, fails only as its tier allows, and its results satisfy `P`.
-/
def Eval.Keeps {α : Type} (c : Terms) (t : Tier) (P : α → Prop) (x : Eval α) : Prop :=
  ∀ ⦃w₀⦄ σ k, c.Kept w₀ k σ →
    x.Meets σ (fun a σ' => c.Kept w₀ k σ' ∧ P a) fun e σ' => c.Kept w₀ k σ' ∧ c.Permits k t σ'.world e

/-- The computation keeps to the terms, and if names are lexical, it ends alike on call stacks that
are related. -/
structure Eval.SoundOn {α : Type} (S : CallStack → CallStack → Prop) (c : Terms) (t : Tier) (P : α → Prop) (x : Eval α) :
    Prop where
  keeps : x.Keeps c t P
  alike : c.Lexical → Eval.Alike c S (fun a b => a = b ∧ P a) x x

instance {α : Type} {S : CallStack → CallStack → Prop} {c : Terms} {t : Tier} {P : α → Prop}
    {x : Eval α} : CoeFun (x.SoundOn S c t P) fun _ => x.Keeps c t P :=
  ⟨Eval.SoundOn.keeps⟩

/-- The computation keeps to the terms, and if names are lexical, only the top of the call stack
matters to it. -/
abbrev Eval.Sound {α : Type} (c : Terms) (t : Tier) (P : α → Prop) (x : Eval α) : Prop :=
  x.SoundOn CallStack.SameTop c t P

/-- What an evaluation at one level is given by the level below. -/
structure Evaluator.Sound (ev : Evaluator) (c : Terms) : Prop where
  exec : ∀ n : Node, c.Allows .statement n → (ev.exec n).Sound c .proper fun r => c.orderly → n.Ends r
  answer : ∀ {α : Type} (r : Request α) {w w' : World}, (ev.answer r).run.Leads w w' → c.Fits w →
    c.Fits w' ∧ c.Since w w'
  raises : ∀ {d : CoreClass}, ev.Raises d → c.raises d
  passes : ∀ {w : World} {e : Failure}, c.Fits w → ev.Passes w e → c.passes e

theorem Tier.allows_of_not_isLow {t : Tier} {e : Failure} (h : e.isLow = false) : t.Allows e := by
  cases t <;> cases e <;> trivial

namespace Eval.Keeps

variable {α β : Type} {c : Terms} {s t : Tier} {P : α → Prop} {x : Eval α} {w₀ : World} {k : CallStack} {σ : EvalState}
variable {r : ScopeId}

theorem pure {a : α} (h : P a) : (Pure.pure a : Eval α).Keeps c t P := fun _ _ _ hk => ⟨hk, h⟩

theorem bind_meets {f : α → Eval β} {Q : β → EvalState → Prop} (hx : x.Keeps c t P) (hk : c.Kept w₀ k σ)
    (hf : ∀ a σ', c.Kept w₀ k σ' → P a → (f a).Meets σ' Q fun e σ' => c.Kept w₀ k σ' ∧ c.Permits k t σ'.world e) :
    (x >>= f).Meets σ Q fun e σ' => c.Kept w₀ k σ' ∧ c.Permits k t σ'.world e := by
  rw [Comp.meets_bind]
  exact (hx σ k hk).imp fun a σ' h => hf a σ' h.1 h.2

theorem bind {f : α → Eval β} {R : β → Prop} (hx : x.Keeps c t P)
    (hf : ∀ a, P a → (f a).Keeps c t R) : (x >>= f).Keeps c t R :=
  fun _ _ k hk => hx.bind_meets hk fun a σ' hk' ha => hf a ha σ' k hk'

theorem fail {e : Failure} (h : t.Makes e) : Eval.Keeps c t P (Comp.fail e) := fun _ _ _ hk => ⟨hk, .of_makes h⟩

theorem passing {e : Failure} (ho : e.isOutright) (h : c.passes e) : Eval.Keeps c t P (Comp.fail e) :=
  fun _ _ _ hk => ⟨hk, .of_passes ho (.inl h)⟩

theorem frames : Eval.frames.Keeps c t fun _ => True := fun _ _ _ hk => ⟨hk, trivial⟩

theorem catching {handler : World → Failure → Option (Eval α)} (hx : x.Keeps c s P)
    (hh : ∀ w e y, handler w e = some y → y.Keeps c t P)
    (rest : ∀ w e, s.Allows e → handler w e = none → t.Allows e) : (Eval.catching x handler).Keeps c t P := by
  intro w₀ σ k hk
  rw [Eval.meets_catching]
  refine (hx σ k hk).mono (fun _ _ h => h) fun e σ' h => ?_
  split
  · next y hy => exact hh _ e y hy σ' k h.1
  · next hn => exact ⟨h.1, rest _ e h.2.allowed hn, h.2.raised, h.2.passed⟩

theorem pop (h : c.Kept w₀ ⟨r :: k.frames⟩ σ) (started : c.complete → k.frames ≠ []) {k' : CallStack} :
    Eval.pop.Meets σ (fun _ σ' => c.Kept w₀ k σ' ∧ ∀ e, c.Permits k' t σ.world e → c.Permits k' t σ'.world e)
      fun e σ' => c.Kept w₀ k σ' ∧ c.Permits k' t σ'.world e := by
  simp only [Eval.pop, Comp.meets_bind, Eval.meets_frames]
  split
  · next hf =>
    have indiscreet : ¬c.Discreet := fun hd => by
      rw [h.frames hd] at hf
      cases hf
    exact ⟨⟨h.fits, h.since, fun hd => absurd hd indiscreet, started⟩,
      .of_passes rfl (.inl (Terms.passes_internal (fun _ => indiscreet) _))⟩
  · next rest hf =>
    have below (hd : c.Discreet) : rest = k.frames := by
      rw [h.frames hd] at hf
      exact (List.cons.inj hf).2.symm
    refine ⟨⟨h.fits.setFrames rest, h.since.trans (Terms.since_setFrames c σ rest), fun hd => ?_, started⟩, fun e he => ?_⟩
    · simp [EvalState.setFrames, h.stack hd, below hd]
    · exact he.setFrames rest

theorem withFrame_meets (hk : c.Kept w₀ k σ)
    (hx : ∀ σ₁, c.Kept w₀ ⟨r :: k.frames⟩ σ₁ → x.Meets σ₁ (fun a σ' => c.Kept w₀ ⟨r :: k.frames⟩ σ' ∧ P a)
      fun e σ' => c.Kept w₀ ⟨r :: k.frames⟩ σ' ∧ c.Permits ⟨r :: k.frames⟩ t σ'.world e) :
    (Eval.withFrame r x).Meets σ (fun a σ' => c.Kept w₀ k σ' ∧ P a) fun e σ' =>
      c.Kept w₀ k σ' ∧ c.Permits ⟨r :: k.frames⟩ t σ'.world e := by
  simp only [Eval.withFrame, Eval.push, Comp.meets_bind, Eval.meets_frames, Eval.meets_setFrames, Comp.meets_ensuring]
  have hpush : c.Kept w₀ ⟨r :: k.frames⟩ (σ.setFrames (r :: σ.frames)) := by
    have hs := hk.setFrames (List.cons_ne_nil r σ.frames)
    exact ⟨hs.fits, hs.since, fun hd => by rw [← hk.frames hd]; exact hs.stack hd, fun _ => List.cons_ne_nil _ _⟩
  refine (hx _ hpush).mono (fun a σ' h => ?_) fun e σ' h => ?_
  · exact (pop h.1 hk.started).mono (fun _ _ h' => ⟨h'.1, h.2⟩) fun _ _ h' => h'
  · exact (pop h.1 hk.started).mono (fun _ _ h' => ⟨h'.1, h'.2 e h.2⟩) fun _ _ h' => h'

theorem withFrame (hx : x.Keeps c t P) : (Eval.withFrame r x).Keeps c t P :=
  fun _ _ _ hk => (withFrame_meets hk fun σ₁ => hx σ₁ _).mono (fun _ _ h => h) fun _ _ h => ⟨h.1, h.2.call⟩

theorem swap (h : c.Kept w₀ k σ) : (Eval.swap r).Meets σ
      (fun a σ' => c.Kept w₀ ⟨r :: k.frames.tail⟩ σ' ∧ (c.Discreet → k.frames = a :: k.frames.tail) ∧
        c.Since σ.world σ'.world ∧ ∀ k' e, c.Permits k' t σ.world e → c.Permits k' t σ'.world e)
      fun e σ' => c.Kept w₀ k σ' ∧ (c.Discreet → k.frames = []) ∧ c.Permits k t σ'.world e := by
  simp only [Eval.swap, Comp.meets_bind, Eval.meets_frames]
  split
  · next hf =>
    have empty (hd : c.Discreet) : k.frames = [] := (h.frames hd).symm.trans hf
    exact ⟨h, empty, .of_passes rfl (.inl (Terms.passes_internal (fun hc hd => h.started hc (empty hd)) _))⟩
  · next a rest hf =>
    have hs := h.setFrames (List.cons_ne_nil r rest)
    have top (hd : c.Discreet) : k.frames = a :: rest := (h.frames hd).symm.trans hf
    refine ⟨⟨hs.fits, hs.since, fun hd => ?_, fun _ => List.cons_ne_nil _ _⟩, fun hd => ?_,
      Terms.since_setFrames c σ _, fun k' e he => he.setFrames _⟩
    · rw [top hd]
      exact hs.stack hd
    · rw [top hd]
      rfl

theorem inPlace (hx : x.Keeps c t P) (hk : c.Kept w₀ k σ)
    (block : c.Discreet → ∀ top, k.frames.head? = some top → σ.world.IsBlockIn r top) :
    (Eval.inPlace r x).Meets σ (fun a σ' => c.Kept w₀ k σ' ∧ P a) fun e σ' =>
      c.Kept w₀ k σ' ∧ c.Permits k t σ'.world e := by
  simp only [Eval.inPlace, Comp.meets_bind, Comp.meets_ensuring]
  refine (swap hk).mono (fun a σ₁ h₁ => ?_) fun _ _ h => ⟨h.1, h.2.2⟩
  obtain ⟨kept₁, top, same₁, -⟩ := h₁
  have outwards {w : World} {e : Failure} (same : c.Since σ₁.world w) (he : c.Permits ⟨r :: k.frames.tail⟩ t w e) :
      c.Permits k t w e := by
    refine he.onStack fun hd ss grown => ?_
    have inside := (block hd a (by rw [top hd]; rfl)).later (same₁.trans same).frames
    rw [top hd]
    exact grown.block inside
  have back : ∀ {σ'}, c.Kept σ₁.world ⟨r :: k.frames.tail⟩ σ' → (Eval.swap a).Meets σ'
      (fun _ σ'' => c.Kept w₀ k σ'' ∧ ∀ e, c.Permits k t σ'.world e → c.Permits k t σ''.world e)
      fun e σ'' => c.Kept w₀ k σ'' ∧ c.Permits k t σ''.world e := by
    intro σ' h'
    refine (swap h').mono (fun _ _ h => ⟨⟨h.1.fits, kept₁.since.trans h.1.since, fun hd => ?_, hk.started⟩, h.2.2.2 k⟩)
      fun e σ'' h => ⟨⟨h.1.fits, kept₁.since.trans h.1.since, fun hd => ?_, hk.started⟩, outwards h.1.since h.2.2⟩
    · have hs := h.1.stack hd
      rwa [List.tail_cons, ← top hd] at hs
    · cases h.2.1 hd
  have inner := hx σ₁ ⟨r :: k.frames.tail⟩ kept₁.afresh
  refine inner.mono (fun b σ' h => ?_) fun e σ' h => ?_
  · exact (back h.1).mono (fun _ _ h' => ⟨h'.1, h.2⟩) fun _ _ h' => h'
  · exact (back h.1).mono (fun _ _ h' => ⟨h'.1, h'.2 e (outwards h.1.since h.2)⟩) fun _ _ h' => h'

end Eval.Keeps

namespace Eval.SoundOn

variable {α β : Type} {S : CallStack → CallStack → Prop} {c : Terms} {s t : Tier} {P Q : α → Prop} {x : Eval α}
variable {n : Node}

theorem pure {a : α} (h : P a) : (Pure.pure a : Eval α).SoundOn S c t P := ⟨.pure h, fun _ => .pure ⟨rfl, h⟩⟩

theorem bind_alike {f g : α → Eval β} {R : β → β → Prop} (hx : x.SoundOn S c t P) (hl : c.Lexical)
    (hf : ∀ a, P a → Eval.Alike c S R (f a) (g a)) : Eval.Alike c S R (x >>= f) (x >>= g) :=
  (hx.alike hl).bind fun a _ h => h.1 ▸ hf a h.2

theorem bind {f : α → Eval β} {R : β → Prop} (hx : x.SoundOn S c t P)
    (hf : ∀ a, P a → (f a).SoundOn S c t R) : (x >>= f).SoundOn S c t R where
  keeps := hx.keeps.bind fun a ha => (hf a ha).keeps
  alike hl := hx.bind_alike hl fun a ha => (hf a ha).alike hl

theorem pure_bind {a : α} {f : α → Eval β} {R : β → Prop} (h : (f a).SoundOn S c t R) :
    (Pure.pure a >>= f).SoundOn S c t R := h

theorem imp (hx : x.SoundOn S c t P) (h : ∀ a, P a → Q a) : x.SoundOn S c t Q where
  keeps _ σ k hk := (hx σ k hk).imp fun a _ ha => ⟨ha.1, h a ha.2⟩
  alike hl := (hx.alike hl).mono fun a _ ha => ⟨ha.1, h a ha.2⟩

theorem weaken [Tier.Within s t] (hx : x.SoundOn S c s P) : x.SoundOn S c t P where
  keeps _ σ k hk := (hx σ k hk).mono (fun _ _ h => h) fun _ _ h =>
    ⟨h.1, Tier.Within.le h.2.allowed, h.2.raised, h.2.passed⟩
  alike := hx.alike

theorem fail {e : Failure} (h : t.Makes e) : Eval.SoundOn S c t P (Comp.fail e) := ⟨.fail h, fun _ => .fail rfl⟩

theorem exhausted : Eval.SoundOn S c t P Comp.exhausted := ⟨fun _ _ _ _ => trivial, fun _ => .exhausted⟩

theorem frames {f : List ScopeId → Eval α} (hf : ∀ fs, (f fs).Sound c t P)
    (same : ∀ fs fs', fs.head? = fs'.head? → f fs = f fs') : (Eval.frames >>= f).Sound c t P where
  keeps := .bind .frames fun fs _ => (hf fs).keeps
  alike hl := .frames fun fs _ top => same fs _ top ▸ (hf fs).alike hl

theorem top : Eval.top.Sound c t fun _ => True :=
  .frames (fun _ => .pure trivial) fun fs fs' same => by rw [List.headD_eq_head?_getD, List.headD_eq_head?_getD, same]

theorem passing {e : Failure} (ho : e.isOutright) (h : c.passes e) : Eval.SoundOn S c t P (Comp.fail e) :=
  ⟨.passing ho h, fun _ => .fail rfl⟩

theorem showing {f : List ScopeId → Report} (shows : ∀ fs, (f fs).stack = some fs)
    (same : ∀ fs fs', (Failure.report (f fs)).untraced = (Failure.report (f fs')).untraced) :
    (Eval.frames >>= fun fs => Comp.fail (.report (f fs)) : Eval α).SoundOn S c t P where
  keeps _ σ k hk := by
    refine ⟨hk, .of_passes rfl ?_⟩
    rcases c.reports with discreet | all
    · refine .inr ⟨f σ.frames, k.frames, rfl, ?_, .refl⟩
      rw [shows, hk.frames discreet]
    · exact .inl (all _)
  alike _ := .frames fun fs fs' _ => .fail (same fs fs')

theorem stop {cause : Cause} : (Eval.stop n cause : Eval α).SoundOn S c t P :=
  .showing (fun _ => rfl) fun _ _ => rfl

theorem stopWith {m : String} {v : Value} {native : Bool} : (Eval.stopWith n m v native : Eval α).SoundOn S c t P :=
  .showing (fun _ => rfl) fun _ _ => rfl

theorem locate {intro : Option String} {cause : Cause} {target : Option Target} :
    (Eval.frames >>= fun fs => Comp.fail (Run.locate intro n (some fs) cause target) : Eval α).SoundOn S c t P :=
  .showing (fun _ => rfl) fun _ _ => rfl

theorem lift {z : Run α} (h : ∀ w, c.Fits w → z.Meets w (fun a w' => (c.Fits w' ∧ c.Since w w') ∧ P a) fun e w' =>
    (c.Fits w' ∧ c.Since w w') ∧ ∀ k, c.Permits k t w' e) : (Eval.lift z).SoundOn S c t P where
  keeps _ σ k hk := Eval.meets_lift.mpr ((h σ.world hk.fits).mono (fun _ _ hw => ⟨hk.world hw.1.1 hw.1.2, hw.2⟩)
    fun _ _ hw => ⟨hk.world hw.1.1 hw.1.2, hw.2 k⟩)
  alike _ := .lift fun w hw => (h w hw).mono (fun _ _ h => ⟨h.1.1, h.2⟩) fun _ _ h => h.1.1

theorem get {F : Tier} : (monadLift Run.get : Eval World).SoundOn S c F c.Fits := .lift fun w hw => ⟨⟨hw, .refl w⟩, hw⟩

theorem read {f : World → α} : (monadLift (Run.read f) : Eval α).SoundOn S c t fun a => ∃ w, c.Fits w ∧ a = f w :=
  .lift fun w hw => ⟨⟨hw, .refl w⟩, w, hw, rfl⟩

theorem asValue {r : Ending} (h : c.orderly → r.signal? = none) : (Eval.asValue r).SoundOn S c t fun _ => True := by
  match r with
  | .value v => exact .pure trivial
  | .signal s (some n) => exact .pure trivial
  | .signal s none =>
    have loose : c.orderly = false := Bool.eq_false_iff.mpr fun ho => by cases h ho
    let number : Run Value := fun w => .done (.signal w.signals.size) { w with signals := w.signals.push s }
    exact lift (z := number) fun w hw => ⟨⟨hw.pushSignal loose s, .of_eq rfl rfl rfl⟩, trivial⟩

theorem endingWith {x : Eval Value} {P : Value → Prop} (hx : x.SoundOn S c t P) :
    (Eval.endingWith x).SoundOn S c t fun r => c.orderly → r.signal? = none := by
  refine .bind hx fun v _ => .imp .read ?_
  rintro r ⟨w, hw, rfl⟩ ho
  unfold World.ending
  split
  · rw [hw.signals ho]
    rfl
  · rfl

theorem catching {handler : World → Failure → Option (Eval α)} (hx : x.SoundOn S c s P)
    (hh : ∀ w e y, handler w e = some y → y.SoundOn S c t P) (rest : ∀ w e, s.Allows e → handler w e = none → t.Allows e)
    (quiet : ∀ w r, handler w (.report r) = none) : (Eval.catching x handler).SoundOn S c t P where
  keeps := .catching hx.keeps (fun w e y hy => (hh w e y hy).keeps) rest
  alike hl := by
    refine .catching (hx.alike hl) fun w e e' same => ?_
    rcases Failure.eq_or_report same with rfl | ⟨r, r', rfl, rfl⟩
    · cases hy : handler w e with
      | none => exact .none
      | some y => exact .some ((hh w e y hy).alike hl)
    · rw [quiet, quiet]
      exact .none

theorem catching_lift {z : Run α} {handler : World → Failure → Option (Eval α)} (hx : (Eval.lift z).SoundOn S c s P)
    (hh : ∀ w e y, handler w e = some y → y.SoundOn S c t P) (rest : ∀ w e, s.Allows e → handler w e = none → t.Allows e) :
    (Eval.catching (Eval.lift z) handler).SoundOn S c t P where
  keeps := .catching hx.keeps (fun w e y hy => (hh w e y hy).keeps) rest
  alike hl := by
    intro w k k' hw hk
    have run := hx.alike hl w k k' hw hk
    unfold Eval.catching Comp.catching
    unfold Eval.lift at run ⊢
    dsimp only at run ⊢
    generalize z w = o at run ⊢
    cases o with
    | done a w' => exact run
    | failed e w' =>
      have fits : c.Fits w' := by cases run with | failed fits _ => exact fits
      dsimp only
      cases hy : handler w' e with
      | none => exact .failed fits rfl
      | some y => exact (hh w' e y hy).alike hl w' k k' fits hk
    | exhausted => exact .exhausted

theorem located {intro : Option String} (hx : x.SoundOn S c .fault P) : (Eval.located intro n x).SoundOn S c t P := by
  refine .catching hx (fun w e y hy => ?_) (fun w e he hn => ?_) fun _ _ => rfl
  · split at hy
    · cases hy; exact .locate
    · cases hy
  · cases e with
    | fault cause target => cases hn
    | reflect m => exact he.elim
    | hostCall m v => exact he.elim
    | _ => exact Tier.allows_of_not_isLow rfl

theorem forEach {xs : List β} {f : β → Eval Unit} (h : ∀ a ∈ xs, (f a).SoundOn S c t fun _ => True) :
    (ScriptCore.forEach xs f).SoundOn S c t fun _ => True := by
  induction xs with
  | nil => exact .pure trivial
  | cons a rest ih =>
    exact .bind (h a List.mem_cons_self) fun _ _ => ih fun b hb => h b (List.mem_cons_of_mem _ hb)

theorem collect {xs : List β} {f : β → Eval α} (h : ∀ a ∈ xs, (f a).SoundOn S c t P) :
    (ScriptCore.collect xs f).SoundOn S c t fun ys => ∀ y ∈ ys, P y := by
  induction xs with
  | nil => exact .pure nofun
  | cons a rest ih =>
    refine .bind (h a List.mem_cons_self) fun y hy => ?_
    refine .bind (ih fun b hb => h b (List.mem_cons_of_mem _ hb)) fun ys hys => ?_
    exact .pure fun z hz => (List.mem_cons.mp hz).elim (fun h => h ▸ hy) (hys z)

theorem withFrame {r : ScopeId} (hx : x.Sound c t P) : (Eval.withFrame r x).SoundOn S c t P :=
  ⟨.withFrame hx.keeps, fun hl => .withFrame (hx.alike hl)⟩

end Eval.SoundOn

namespace Eval.Sound

theorem unwound_eq_self {depth : Nat} {fs : List ScopeId} (h : fs.length ≤ depth) : Eval.unwound depth fs = fs := by
  cases fs with
  | nil => rfl
  | cons s rest => exact if_neg (Nat.not_lt.mpr h)

theorem unwindTo_own (w : World) (k : CallStack) : Eval.unwindTo k.frames.length ⟨w, .own k⟩ = .done () ⟨w, .own k⟩ := by
  change Outcome.done () (EvalState.mk w (.own ⟨Eval.unwound k.frames.length k.frames⟩)) = _
  rw [unwound_eq_self (Nat.le_refl _)]

theorem unwindTo {c : Terms} {depth : Nat} {w₀ : World} {k : CallStack} {σ : EvalState} {F : Failure → EvalState → Prop}
    (h : c.Kept w₀ k σ) (hd : c.Discreet → k.frames.length ≤ depth) :
    (Eval.unwindTo depth).Meets σ (fun _ σ' => c.Kept w₀ k σ') F := by
  refine ⟨h.fits.setFrames _, h.since.trans (Terms.since_setFrames c σ _), fun hd' => ?_, h.started⟩
  rw [h.frames hd', unwound_eq_self (hd hd')]
  simp [EvalState.setFrames, h.stack hd']

end Eval.Sound

namespace Evaluator.Sound

variable {α : Type} {ev : Evaluator} {S : CallStack → CallStack → Prop} {c : Terms} {may : May} {s t : Tier}

variable (h : ev.Sound c)
include h

theorem reaches (hm : ∀ {w w' : World}, may.step w w' → ev.Step w w') {w w' : World}
    (hr : Reaches may w w') (hw : c.Fits w) : c.Fits w' ∧ c.Since w w' := by
  refine hr.preserves (p := fun v => c.Fits v ∧ c.Since w v) (fun calm hv => ?_) (fun hs hv => ?_) ⟨hw, .refl w⟩
  · exact ⟨hv.1.of_calm calm, hv.2.trans (.of_calm calm)⟩
  · cases hm hs with
    | retype hi => exact ⟨hv.1.of_inert hi, hv.2.trans (.of_inert hi)⟩
    | request r hl =>
      obtain ⟨fits, same⟩ := h.answer r hl hv.1
      exact ⟨fits, hv.2.trans same⟩

theorem passes_may [i : May.Within may ev.may] {w : World} (hw : c.Fits w) {e : Failure}
    (he : ∃ u, Reaches may w u ∧ may.passes u e) : c.passes e := by
  obtain ⟨u, hr, hp⟩ := he
  exact (i.passes hp).elim (c.lapses e) (h.passes (h.reaches i.step hr hw).1)

theorem lift_meets [i : May.Within may ev.may] [Tier.Within s t] (x : Action may s α)
    {P : World → α → Prop} (hx : ∀ w, x.run.Meets w (fun a _ => P w a) fun _ _ => True) :
    (monadLift x : Eval α).SoundOn S c t fun a => ∃ w, c.Fits w ∧ P w a := by
  refine .lift fun w hw => ((hx w).and (x.meets w)).mono (fun a w' ran => ?_) fun e w' ran => ?_
  · exact ⟨h.reaches i.step ran.2 hw, w, hw, ran.1⟩
  · refine ⟨h.reaches i.step ran.2.1 hw, fun k => ⟨Tier.Within.le ran.2.2.allowed, fun he hd hv => ?_, fun ho => ?_⟩⟩
    · exact h.raises (i.raises (ran.2.2.raised he hd hv))
    · exact .inl (h.passes_may hw (ran.2.2.passed ho))

theorem lift_passing [Tier.Within s t] (x : Action ev.placing s α) (hx : ∀ w, x.run.Meets w (fun _ _ => True) fun e _ =>
      e.isOutright → ∃ u, Reaches ev.may w u ∧ ev.may.passes u e) :
    (monadLift x : Eval α).SoundOn S c t fun _ => True := by
  refine .lift fun w hw => ((hx w).and (x.meets w)).mono (fun a w' ran => ?_) fun e w' ran => ?_
  · exact ⟨h.reaches id ran.2 hw, trivial⟩
  · exact ⟨h.reaches id ran.2.1 hw, fun k => ⟨Tier.Within.le ran.2.2.allowed, fun he hd hv =>
      h.raises (ran.2.2.raised he hd hv),
      fun ho => .inl (h.passes_may hw (ran.1 ho))⟩⟩

theorem lift [May.Within may ev.may] [Tier.Within s t] (x : Action may s α) :
    (monadLift x : Eval α).SoundOn S c t fun _ => True :=
  (h.lift_meets x fun w => (x.meets w).impDone fun _ _ _ => trivial).imp fun _ _ => trivial

theorem keeps_lift [May.Within may ev.may] [Tier.Within s t] (x : Action may s α) :
    (monadLift x : Eval α).Keeps c t fun _ => True :=
  (h.lift (S := CallStack.SameTop) x).keeps

theorem lift_found [May.Within may ev.may] [Tier.Within s t] {x : Action may s (Option Method)} (hx : Run.FindsKept x) :
    (monadLift x : Eval (Option Method)).SoundOn S c t fun r => ∀ m, r = some m → c.Allows .branch m.body := by
  refine (h.lift_meets x hx).imp fun r ⟨w, hw, hr⟩ m hm => ?_
  rcases hr m hm with he | hh
  · rw [he]; exact .absent
  · exact hw.code _ hh

theorem eval {n : Node} (hn : c.Allows .expression n) : (ev.eval n).Sound c .proper fun _ => True := by
  exact .bind (h.exec n hn.statement) fun r hr => .asValue fun ho => (hr ho).expression (hn.orderly ho)

theorem perform {n : Node} (hn : c.Allows .statement n) : (ev.perform n).Sound c .proper fun _ => True :=
  .bind (h.exec n hn) fun _ _ => .pure trivial

end Evaluator.Sound

namespace Eval.SoundOn

variable {S : CallStack → CallStack → Prop} {c : Terms} {t : Tier}

theorem modify {f : World → World} (hf : ∀ w : World, c.Fits w → c.Fits (f w) ∧ c.Since w (f w)) :
    (monadLift (Run.modify f) : Eval Unit).SoundOn S c t fun _ => True :=
  .lift fun w hw => ⟨hf w hw, trivial⟩

theorem lift_bind {α β : Type} {x : Run α} {f : α → Run β} {P : β → Prop}
    (h : (monadLift x >>= fun a => monadLift (f a) : Eval β).SoundOn S c t P) :
      (monadLift (x >>= f) : Eval β).SoundOn S c t P := by
  have same : (monadLift (x >>= f) : Eval β) = monadLift x >>= fun a => monadLift (f a) := by
    funext σ
    change Eval.lift (Comp.bind x f) σ = Comp.bind (Eval.lift x) (fun a => Eval.lift (f a)) σ
    unfold Eval.lift Comp.bind
    dsimp only
    cases x σ.world <;> rfl
  rw [same]
  exact h

theorem setMethod {ev : Evaluator} (h : ev.Sound c) {s : ScopeId} {m : Method} (hm : c.Allows .branch m.body) :
    (monadLift (Run.setMethod s m) : Eval Unit).SoundOn S c t fun _ => True := by
  refine lift_bind (.bind (h.lift (Run.declaringScope s)) fun r _ =>
    lift_bind (.bind (.modify fun w hw => ?_) fun _ _ => ?_))
  · refine ⟨hw.modifyScope r fun x n hn => ?_, .modifyScope w r (fun _ => ⟨rfl, rfl, rfl, rfl⟩) fun _ => rfl⟩
    rcases Run.code_addMethod x m n hn with hx | rfl
    · exact .inl hx
    · exact .inr hm
  · exact h.lift (Run.forgetNames r)

end Eval.SoundOn

end ScriptCore
