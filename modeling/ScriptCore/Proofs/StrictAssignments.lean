import ScriptCore.Proofs.FailedStorage
import ScriptCore.Proofs.InstanceFields
import ScriptCore.Proofs.QuietAccess

namespace ScriptCore

theorem List.dropLast_sublist_of_suffix {α : Type} {l m : List α} (h : l <:+ m) : l.dropLast.Sublist m.dropLast := by
  obtain ⟨before, rfl⟩ := h
  by_cases empty : l = []
  · simp [empty]
  · rw [List.dropLast_append_of_ne_nil empty]
    exact List.sublist_append_right before _

theorem Value.eq_void_of_isVoid {v : Value} (h : v.isVoid) : v = .void := by
  cases v with
  | void => rfl
  | _ => cases h

namespace World

variable {w w' w'' : World} {names : List String}

/-- No variable is gone, and the new ones have one of the names. -/
structure Gains (names : List String) (w w' : World) : Prop where
  kept : ∀ u y, (w.scope u).vars.contains y → (w'.scope u).vars.contains y
  new : ∀ u y, (w'.scope u).vars.contains y → (w.scope u).vars.contains y ∨ y ∈ names

theorem SameHeld.gains (h : w.SameHeld w') :
    w.Gains names w' := ⟨fun u y => by rw [h u y]; exact id, fun u y => by rw [h u y]; exact .inl⟩

theorem Gains.trans {more : List String} (h : w.Gains names w') (k : w'.Gains more w'') : w.Gains (names ++ more) w'' where
  kept u y held := k.kept u y (h.kept u y held)
  new u y held := by
    rcases k.new u y held with held | new
    · exact (h.new u y held).imp_right (List.mem_append_left _)
    · exact .inr (List.mem_append_right _ new)

theorem Gains.mono {more : List String} (h : w.Gains names w') (sub : names ⊆ more) : w.Gains more w' :=
  ⟨h.kept, fun u y held => (h.new u y held).imp_right fun m => sub m⟩

theorem Gains.sameHeld (h : w.Gains [] w') : w.SameHeld w' := fun u y =>
  Bool.eq_iff_iff.mpr ⟨fun held => (h.new u y held).resolve_right nofun, h.kept u y⟩

instance (names : List String) : StoreRelation (Gains names) where
  refl _ := (WorldRelation.refl (R := SameHeld) _).gains
  trans h k := (h.trans k).mono (by simp)
  beside h := (WorldRelation.beside (R := SameHeld) h).gains
  objects hs hr hm := (StoreRelation.objects (R := SameHeld) hs hr hm).gains
  description w u f hf := (StoreRelation.description (R := SameHeld) w u hf).gains
  assigned s x value declaring w :=
    (StoreRelation.assigned (R := SameHeld) s x value declaring w).mono (fun _ _ h => h.gains) fun _ _ h => h.gains

/-- A closure is made for a name that stands for nothing. -/
inductive OwnerMade (name : String) (w w' : World) : Prop
  | intro {view : View} {k : Walk} {s : ScopeId} {special : Bool} {depth : Nat} {w₁ w₂ : World} {c : Value}
      (unknown : (Run.segmentValue view k s name special).run w = .done (.void, depth) w₁) (meanwhile : w₁.Quiet w₂)
      (made : (Run.autoAllocate s name).run w₂ = .done c w')

inductive OwnersMade : List String → World → World → Prop
  | nil {w w' : World} (h : w.Quiet w') : OwnersMade [] w w'
  | cons {name : String} {names : List String} {w w₁ w₂ w' : World} (before : w.Quiet w₁) (made : w₁.OwnerMade name w₂)
      (rest : OwnersMade names w₂ w') : OwnersMade (name :: names) w w'

end World

namespace Run

open World

variable {may : May} {tier : Tier} {α : Type} {w : World} {s : ScopeId} {name : String}

theorem gains_declareVariable (s : ScopeId) (name : String) (type : Ty) (value : Option Value) (modifiers : Modifiers) :
    Relates (Gains [name]) (declareVariable s name type value modifiers) := by
  refine .bind (.lift (.of_adds (.declaredValue type value modifiers))) fun v w => ?_
  have scope (u : ScopeId) : ((w.setVars s fun vars => vars.put name { type, value := v, modifiers }).modifyMemory s
      Memory.forgotten).scope u = (w.setVars s fun vars => vars.put name { type, value := v, modifiers }).scope u := rfl
  refine Gains.mk (fun u y held => ?_) fun u y held => ?_
  · rw [scope, scope_setVars]
    split
    · exact Table.contains_put _ _ _ _ held
    · exact held
  · rw [scope, scope_setVars] at held
    split at held
    · by_cases same : name = y
      · exact .inr (List.mem_singleton.mpr same.symm)
      · exact .inl (by simpa [Table.contains, Table.get?_put_ne _ _ same] using held)
    · exact .inl held

theorem gains_setVariable (s : ScopeId) (name : String) (value : Value) (strict outwards : Bool) :
    Relates (Gains [name]) (setVariable s name value strict outwards) := by
  intro w
  unfold setVariable
  simp only [Action.meets_bind, Action.run_lift, meets_get]
  exact relates_bindIn value strict _ (fun _ _ u _ v p => (allowsPackage_sameHeld u v p).gains) fun _ _ =>
    gains_declareVariable _ name .untyped _ {} w

theorem staysStrict_of_setsField {target x : Value} {field : String} {act : Action may tier α}
    (h : SetsField target field x act) (on : ∀ w, countsAsTrue w x = true) : Relates StaysStrict act := by
  refine fun w => (h w).mono (fun _ w' set => ?_) fun _ _ h => WorldRelation.beside h.toBeside
  cases set with
  | beside h => exact WorldRelation.beside h
  | configured beside run =>
    refine WorldRelation.trans (WorldRelation.beside beside) fun strict => ?_
    cases run
    dsimp only
    split
    · exact on _
    all_goals exact strict
  | described u only h => exact h ▸ id
  | packaged u p named scope h => exact h ▸ id
  | assigned t given run =>
    rcases (assignVariable_beside t field given false w).of_done run with rfl | ⟨x, stored, v, -, -, beside, rfl⟩
    · exact id
    · exact WorldRelation.trans (WorldRelation.beside beside) (id : StaysStrict v _)

theorem staysStrict_setVariable (s : ScopeId) (name : String) (c : ScopeId) (strict outwards : Bool) :
    Relates StaysStrict (setVariable s name (.closure c) strict outwards) := by
  refine .bind (.lift (.read _)) fun w => ?_
  refine .bind (.lift (.of_adds (.findBinding _ name _))) fun found => ?_
  cases found with
  | none =>
    dsimp only
    split
    · exact .lift (.fault _)
    · exact .lift (.bind (.lift (.of_adds (.declaredValue _ _ _))) fun _ _ => id)
  | some b =>
    cases b with
    | held t n =>
      refine .lift fun w => (assignVariable_beside t n _ false w).mono (fun _ w' h => ?_) fun _ _
        h => WorldRelation.beside h
      rcases h with rfl | ⟨x, stored, v, -, -, beside, rfl⟩
      · exact id
      · exact WorldRelation.trans (WorldRelation.beside beside) (id : StaysStrict v _)
    | field target n => exact staysStrict_of_setsField (.writeField target n (.closure c)) fun _ => rfl

theorem meets_autoAllocate (s : ScopeId) (name : String) (w : World) :
    (autoAllocate s name).run.Meets w (fun v w' => (∃ c, v = .closure c) ∧ w.Gains [name] w' ∧ w.StaysStrict w')
      fun _ w' => w.Quiet w' := by
  unfold autoAllocate
  simp only [Action.meets_bind, Action.run_lift]
  refine (Relates.newChild s _ w).imp fun c w₁ quiet => ?_
  refine ((gains_setVariable s name (.closure c) false true w₁).and ((staysStrict_setVariable s name c false true w₁).and
    (FailsClean.setVariable s name (.closure c) false true w₁))).mono ?_ fun _ _ h =>
      quiet.trans (.of_beside h.2.2.toBeside)
  rintro _ w' ⟨gains, strict, -⟩
  exact ⟨⟨c, rfl⟩, WorldRelation.trans quiet.held.gains gains, WorldRelation.trans quiet.strict strict⟩

end Run

namespace World

variable {w w' w'' : World} {name : String} {names : List String}

theorem OwnerMade.gains (h : w.OwnerMade name w') : w.Gains [name] w' ∧ w.StaysStrict w' := by
  obtain ⟨unknown, meanwhile, made⟩ := h
  have quiet := ((Run.Relates.segmentValue _ _ _ _ _ w).of_done unknown).trans meanwhile
  obtain ⟨-, gains, strict⟩ := (Run.meets_autoAllocate _ _ _).of_done made
  exact ⟨WorldRelation.trans quiet.held.gains gains, WorldRelation.trans quiet.strict strict⟩

namespace OwnersMade

theorem gains (h : OwnersMade names w w') : w.Gains names w' ∧ w.StaysStrict w' := by
  induction h with
  | nil h => exact ⟨h.held.gains, h.strict⟩
  | cons before made rest ih =>
    obtain ⟨first, strict⟩ := made.gains
    have nothing : Gains [] _ _ := before.held.gains
    exact ⟨nothing.trans (first.trans ih.1), WorldRelation.trans before.strict (WorldRelation.trans strict ih.2)⟩

theorem quiet_trans (h : w.Quiet w') (k : OwnersMade names w' w'') : OwnersMade names w w'' := by
  cases k with
  | nil k => exact .nil (h.trans k)
  | cons before made rest => exact .cons (h.trans before) made rest

theorem trans_quiet (h : OwnersMade names w w') (k : w'.Quiet w'') : OwnersMade names w w'' := by
  induction h with
  | nil h => exact .nil (h.trans k)
  | cons before made rest ih => exact .cons before made (ih k)

end OwnersMade

def OwnersAmong (candidates : List String) (w w' : World) :
    Prop := ∃ names, names.Sublist candidates ∧ OwnersMade names w w'

namespace OwnersAmong

variable {candidates : List String}

theorem of_quiet (h : w.Quiet w') : w.OwnersAmong candidates w' := ⟨[], List.nil_sublist _, .nil h⟩

theorem trans_quiet (h : w.OwnersAmong candidates w') (k : w'.Quiet w'') : w.OwnersAmong candidates w'' := by
  obtain ⟨names, sub, made⟩ := h
  exact ⟨names, sub, made.trans_quiet k⟩

theorem quiet_trans (h : w.Quiet w') (k : w'.OwnersAmong candidates w'') : w.OwnersAmong candidates w'' := by
  obtain ⟨names, sub, made⟩ := k
  exact ⟨names, sub, made.quiet_trans h⟩

theorem strict (h : w.OwnersAmong candidates w') : w.StaysStrict w' := by
  obtain ⟨names, -, made⟩ := h
  exact made.gains.2

end OwnersAmong

/-- Closures are made for owners that the dotted name names, and then `last` happens, which makes no
variable. -/
inductive OwnersThen (path : String) (last : World → World → Prop) (w w' : World) : Prop
  | intro {w₁ : World} (owners : w.OwnersAmong (Path.segments path).dropLast w₁) (same : w₁.SameHeld w') (done : last w₁ w')

theorem OwnersAmong.only {path : String} (h : w.OwnersAmong (Path.segments path).dropLast w') :
    w.OwnersThen path (fun _ _ => True) w' := .intro h (WorldRelation.refl w') trivial

end World

namespace Run

open World

variable {may : May} [May.Within .retype may] {field : Value → String → Action may .fault Value} {s b : ScopeId}
  {full name : String} {k : Walk} {w : World}

/-- What a step may do: nothing is made and some of the segments are left, or a closure is made for
the first of them. -/
def Stepped (k : Walk) (w : World) (r : Value × Walk) (w' : World) : Prop :=
  w.Quiet w' ∧ r.2.rest <:+ k.rest ∨ w.OwnerMade (k.rest.headD "") w' ∧ r.2.rest = k.rest.tail

theorem meets_stepTo (k : Walk) (name : String) (rest : List String) (v : Value) (w : World) :
    (stepTo k name rest v).run.Meets w (fun r w' => w' = w ∧ r.2.rest = rest) fun _ w' => w' = w := by
  unfold stepTo
  split
  · rfl
  · exact ⟨rfl, rfl⟩

theorem stepped_stepTo (k : Walk) (name : String) (v : Value) {depth : Nat} {u : World} (h : w.Quiet u) :
    (stepTo { k with depth } name k.rest.tail v).run.Meets u (Stepped k w) fun _ w' => w.Quiet w' := by
  refine (meets_stepTo _ name _ v u).mono ?_ fun _ _ same => same ▸ h
  rintro r _ ⟨rfl, left⟩
  exact .inl ⟨h, left ▸ List.tail_suffix _⟩

theorem stepped_stepFrom (quiet : ∀ v name, Relates Quiet (field v name)) (base : Value) (name : String) (w : World) :
    (stepFrom field s full false k base name).run.Meets w (Stepped k w) fun _ w' => w.Quiet w' := by
  have member {x : Action may .fault Value} (hx : Relates Quiet x) :
      (x >>= fun v => stepTo k name k.rest.tail v).run.Meets w (Stepped k w) fun _ w' => w.Quiet w' := by
    simp only [Action.meets_bind, Action.run_lift]
    exact (hx w).imp fun v u h => stepped_stepTo k name v h
  unfold stepFrom
  split
  · exact Quiet.of_eq rfl rfl
  · exact .refl w
  · exact .refl w
  · simp only [Action.meets_bind, Action.run_lift, meets_read]
    split
    · exact member (.lift (.of_oblivious (.staticMember _ _ _)))
    · simp only [Bool.false_eq_true, if_false]
      split
      · exact member (.lift (.of_oblivious (.getVariable _ _ _)))
      · exact member (quiet _ _)

theorem stepped_autoAllocate {u v : World} {view : View} {j : Walk} {special : Bool} {depth : Nat}
    (unknown : (segmentValue view j b (k.rest.headD "") special).run w = .done (.void, depth) u) (h : u.Quiet v) :
    (autoAllocate b (k.rest.headD "")).run.Meets v (fun c v' =>
      (stepTo k (k.rest.headD "") k.rest.tail c).run.Meets v' (Stepped k w) fun _ w' => w.Quiet w')
      fun _ w' => w.Quiet w' := by
  have quiet : w.Quiet v := ((Relates.segmentValue _ _ _ _ _ w).of_done unknown).trans h
  refine ((Comp.meets_self _ v).and (meets_autoAllocate b (k.rest.headD "") v)).mono ?_ fun _ _
    failed => quiet.trans failed.2
  rintro _ w' ⟨made, ⟨c, rfl⟩, -⟩
  exact .inr ⟨⟨unknown, h, made⟩, rfl⟩

theorem stepped_firstStep (view : View) (k : Walk) (w : World) :
    (firstStep view s false true k (k.rest.headD "")).run.Meets w (Stepped k w) fun _ w' => w.Quiet w' := by
  unfold firstStep
  simp only [Bool.false_eq_true, if_false, Action.run_bind, Action.run_lift, Comp.meets_bind]
  refine ((Comp.meets_self _ w).and (Relates.segmentValue view k s (k.rest.headD "") false w)).mono ?_ fun _ _ h => h.2
  rintro ⟨v, depth⟩ u ⟨unknown, quiet⟩
  dsimp only
  split
  · exact stepped_stepTo k _ v quiet
  · next isVoid =>
    obtain rfl := Value.eq_void_of_isVoid (by simpa using isVoid)
    simp only [Action.run_bind, Action.run_lift, Comp.meets_bind]
    refine (Relates.leadingClass s k.rest u).mono (fun found v search => ?_) fun _ _ h => quiet.trans h
    cases found with
    | none =>
      simp only [Bool.not_false, Bool.and_self, if_true, Action.run_bind, Action.run_lift, Comp.meets_bind]
      exact stepped_autoAllocate unknown search
    | some e =>
      obtain ⟨i, c⟩ := e
      simp only [Action.run_bind, Action.run_lift, Comp.meets_bind]
      have found := quiet.trans search
      refine (Relates.of_adds (.alloc rfl) v : (newClassId c).run.Meets v _ _).mono
        (fun id v' made => ?_) fun _ _ h => found.trans h
      refine (meets_stepTo k _ (k.rest.drop i) id v').mono ?_ fun _ _ same => same ▸ found.trans made
      rintro r _ ⟨rfl, left⟩
      exact .inl ⟨found.trans made, left ▸ List.drop_suffix i _⟩

theorem stepped_closureStep (view : View) (k : Walk) (w : World) :
    (closureStep view field s b full false true k (k.rest.headD "")).run.Meets w (Stepped k w) fun _ w' => w.Quiet w' := by
  unfold closureStep
  simp only [Bool.false_eq_true, if_false, Action.meets_bind, Action.run_lift]
  refine ((Comp.meets_self _ w).and (Relates.segmentValue view k b (k.rest.headD "") true w)).mono ?_ fun _ _ h => h.2
  rintro ⟨v, depth⟩ u ⟨unknown, quiet⟩
  dsimp only
  split
  · exact stepped_stepTo k _ v quiet
  · next isVoid =>
    obtain rfl := Value.eq_void_of_isVoid (by simpa using isVoid)
    simp only [Bool.not_false, Bool.and_self, if_true, Action.meets_bind, Action.run_lift]
    exact stepped_autoAllocate unknown (.refl u)

theorem stepped_step (quiet : ∀ v name, Relates Quiet (field v name)) (view : View) (k : Walk) (w : World) :
    (step view field s full false true k).run.Meets w (Stepped k w) fun _ w' => w.Quiet w' := by
  unfold step
  dsimp only
  split
  · exact stepped_firstStep view k w
  · exact stepped_closureStep view k w
  · exact stepped_stepFrom quiet _ _ w

/-- By induction on the steps: closures are made for segments that are not the last, in their order.
-/
theorem ownersAmong_walkToOwner (quiet : ∀ v name, Relates Quiet (field v name)) (view : View)
    (fuel : Nat) (v : Value) (k : Walk) (w : World) :
    (walkToOwner view field s full fuel v k).run.Meets w (fun _ w' => w.OwnersAmong k.rest.dropLast w')
      fun _ w' => w.OwnersAmong k.rest.dropLast w' := by
  induction fuel generalizing v k w with
  | zero => trivial
  | succ fuel ih =>
    unfold walkToOwner
    split
    · exact .of_quiet (.refl w)
    · next long =>
      simp only [Action.meets_bind]
      refine (stepped_step quiet view k w).mono (fun r u stepped => ?_) fun _ _ h => .of_quiet h
      have later {w' : World} (h : u.OwnersAmong r.2.rest.dropLast w') : w.OwnersAmong k.rest.dropLast w' := by
        obtain ⟨names, sub, made⟩ := h
        rcases stepped with ⟨quiet, left⟩ | ⟨first, left⟩
        · exact ⟨names, sub.trans (List.dropLast_sublist_of_suffix left), made.quiet_trans quiet⟩
        · refine ⟨k.rest.headD "" :: names, ?_, .cons (.refl w) first made⟩
          rw [left] at sub
          rcases segments : k.rest with _ | ⟨x, _ | ⟨y, rest⟩⟩
          · simp [segments] at long
          · simp [segments] at long
          · simpa [segments, List.dropLast_cons_cons] using sub
      exact (ih _ _ u).mono (fun _ _ h => later h) fun _ _ h => later h

end Run

namespace Run

open World

variable {may may' : May} [May.Within .retype may] [May.Within .retype may']
  [May.Within .halting may'] [May.Within may may']
  {field : Value → String → Action may .fault Value} {s : ScopeId}

theorem ownersAmong_resolvePlace (quiet : ∀ v name, Relates Quiet (field v name)) (view : View)
    (name : String) (w : World) :
    (resolvePlace view field s name : Action may' .fault Place).run.Meets w
      (fun p w' => p.IsOfName ∧ w.OwnersAmong (Path.segments name).dropLast w')
      fun _ w' => w.OwnersAmong (Path.segments name).dropLast w' := by
  unfold resolvePlace
  split
  · split
    · exact .of_quiet (.refl w)
    · exact ⟨trivial, .of_quiet (.refl w)⟩
  · extract_lets segments found
    have owner : found.run.Meets w (fun _ w' => w.OwnersAmong segments.dropLast w') fun _ w' =>
        w.OwnersAmong segments.dropLast w' := by
      refine Action.meets_catching.mpr ((ownersAmong_walkToOwner quiet view _ _ _ w).mono
        (fun _ _ h => h) fun e w' made => ?_)
      split
      · next handled =>
        split at handled
        · cases handled
          exact made
        · cases handled
      · exact made
    simp only [Action.meets_bind, Action.run_lift]
    refine owner.imp fun r u made => ?_
    obtain ⟨owner, k⟩ := r
    dsimp only
    split
    · simp only [Action.meets_bind, Action.run_lift, meets_read]
      split <;> exact made
    · next last _ _ =>
      exact (meets_fieldPlace name k owner last u).mono (fun _ _ h => ⟨h.1, made.trans_quiet h.2⟩) fun _ _ h =>
        made.trans_quiet h

theorem updates_setVariable (s : ScopeId) (name : String) (value : Value) (outwards : Bool)
    (w : World) :
    (setVariable s name value true outwards).run.Meets w
      (fun _ w' => w.SameHeld w' ∧ ∃ t far b, (findBinding t name far).run w = .done (some b) w ∧
        (writeBinding b value).run w = .done () w')
      fun _ w' => w.SameHeld w' := by
  unfold setVariable
  simp only [Action.meets_bind, Action.run_lift, meets_get]
  generalize w.bindingScope s name = t
  generalize (outwards && !(w.scope t).isBlock) = far
  have same : (bindIn t name value true far).run.Meets w (fun _ w' => w.SameHeld w') fun _ w' => w.SameHeld w' :=
    relates_bindIn value true far (fun _ _ u _ => allowsPackage_sameHeld u) (by simp)
  suffices stored : (bindIn t name value true far).run.Meets w
      (fun _ w' => ∃ b, (findBinding t name far).run w = .done (some b) w ∧ (writeBinding b value).run w = .done () w')
      fun _ _ => True from
    (same.and stored).mono (fun _ _ h => ⟨h.1, t, far, h.2⟩) fun _ _ h => h.1
  unfold bindIn
  split
  · trivial
  · simp only [Action.meets_bind, Action.run_lift]
    refine (relates_findBinding (R := SameHeld) t name far w).impDone ?_
    rintro r _ ⟨found, rfl, -⟩
    cases r with
    | none => trivial
    | some b => exact (Comp.meets_self _ _).impDone fun _ _ stored => ⟨b, found, stored⟩

end Run

theorem Eval.meets_located_state {α : Type} {σ : EvalState} {Q : α → EvalState → Prop} {P : EvalState → Prop}
    {intro : Option String} {node : Node} {x : Eval α} (h : x.Meets σ Q fun _ => P) :
    (Eval.located intro node x).Meets σ Q fun _ => P := by
  refine meets_catching.mpr (h.mono (fun _ _ h => h) fun e σ' held => ?_)
  split
  · next hy =>
    split at hy
    · cases hy
      exact held
    · cases hy
  · exact held

theorem Eval.quiet_view (name : String) (σ : EvalState) :
    (Eval.view name).Meets σ (fun _ σ' => σ.world.Quiet σ'.world) fun _ σ' => σ.world.Quiet σ'.world := by
  unfold Eval.view
  simp only [Comp.meets_bind, meets_frames]
  split
  · simp only [Comp.meets_bind]
    unfold Comp.Meets Eval.share
    cases σ.running with
    | own k => exact .of_eq rfl rfl
    | shared n => exact .refl _
  · exact .refl _

namespace Outcome

variable {σ α : Type} {p : σ → Prop}

open Classical in
noncomputable def onlyIf (p : σ → Prop) : Outcome σ α → Outcome σ α
  | done a s => if p s then done a s else exhausted
  | failed e s => if p s then failed e s else exhausted
  | exhausted => exhausted

theorem onlyIf_cases (p : σ → Prop) (out : Outcome σ α) :
    out.onlyIf p = exhausted ∨ out.onlyIf p = out ∧ ∀ s, out.state? = some s → p s := by
  cases out with
  | done a s =>
    by_cases h : p s
    · exact .inr ⟨if_pos h, by rintro _ ⟨⟩; exact h⟩
    · exact .inl (if_neg h)
  | failed e s =>
    by_cases h : p s
    · exact .inr ⟨if_pos h, by rintro _ ⟨⟩; exact h⟩
    · exact .inl (if_neg h)
  | exhausted => exact .inl rfl

theorem lawful_onlyIf {may : May} {t : Tier} {w : World} {p : World → Prop} {out : Outcome World α}
    (h : Lawful may t w out) : Lawful may t w (out.onlyIf p) := by
  rcases out.onlyIf_cases p with cut | ⟨same, -⟩
  · rw [cut]
    trivial
  · rw [same]
    exact h

theorem meets_onlyIf (x : Comp σ α) (q : σ → σ → Prop) (s : σ) :
    Comp.Meets (fun s => (x s).onlyIf (q s)) s (fun _ s' => q s s') fun _ s' => q s s' := by
  unfold Comp.Meets
  rcases (x s).onlyIf_cases (q s) with cut | ⟨same, wanted⟩
  · simp only [cut]
  · simp only [same]
    cases ran : x s with
    | done a s' => exact wanted s' (by rw [ran]; rfl)
    | failed e s' => exact wanted s' (by rw [ran]; rfl)
    | exhausted => trivial

theorem onlyIf_of_meets {x : Comp σ α} {s : σ} (h : x.Meets s (fun _ => p) fun _ => p) : (x s).onlyIf p = x s := by
  unfold Comp.Meets at h
  cases ran : x s with
  | done a s' => rw [ran] at h; exact if_pos h
  | failed e s' => rw [ran] at h; exact if_pos h
  | exhausted => rfl

end Outcome

namespace Evaluator

open World

/-- A value has been stored in what a name stands for, or has been given to a host value for one of
its fields. -/
inductive Updates (ev : Evaluator) (v : Value) (w w' : World) : Prop
  | binding {s : ScopeId} {name : String} {outwards : Bool} {b : Binding}
      (found : (Run.findBinding s name outwards).run w = .done (some b) w) (stored :
        (Run.writeBinding b v).run w = .done () w')
  | hostField {target : Value} {name : String} (stored : (ev.setField target name v).run w = .done () w')

namespace Discreet

variable {ev : Evaluator} (h : ev.Discreet) {p : Place}
include h

theorem read (hp : p.IsOfName) : Run.Relates Quiet (p.read ev) := by
  cases p with
  | named s name isLocal => exact .lift (.of_oblivious (.getVariable s name _))
  | field target key =>
    refine .reflected (.bind (.lift ?_) fun name => .lift (h.getField target name))
    refine .bind (.read _) fun w => ?_
    split
    · exact .pure _
    · exact .raise _
  | _ => exact hp.elim

theorem updates_assign (hp : p.IsOfName) (value : Value) (w : World) :
    (p.assign ev value true).run.Meets w
    (fun v w' => v = value ∧ w.SameHeld w' ∧ ev.Updates value w w') fun _ w' => w.SameHeld w' := by
  unfold Place.assign
  cases p with
  | named s name isLocal =>
    simp only [Action.meets_bind, Action.run_lift]
    refine (Run.updates_setVariable s name value _ w).imp ?_
    rintro _ w' ⟨same, t, far, b, found, stored⟩
    exact ⟨rfl, same, .binding found stored⟩
  | field target key =>
    dsimp only
    split
    · simp only [Action.meets_bind, Action.run_lift]
      exact (h.request _ w).mono (fun _ _ h => h.held) fun _ _ h => h.held
    · have given : (do
          let name ← Place.assignedName ev key
          ev.setField target name value : Action ev.may .any Unit).run.Meets w
          (fun _ w' => w.SameHeld w' ∧ ev.Updates value w w') fun _ w' => w.SameHeld w' := by
        unfold Place.assignedName
        simp only [Action.meets_bind, Action.run_lift, Run.meets_get]
        split
        · exact ((Comp.meets_self _ w).and (h.setField target _ value w)).mono (fun _ _ k =>
            ⟨k.2, .hostField k.1⟩) fun _ _ k => k.2
        · simp only [Action.meets_bind, Action.run_lift]
          exact (h.request _ w).mono (fun _ _ k => k.held) fun _ _ k => k.held
      simp only [Action.meets_bind]
      refine Action.meets_converting.mpr (given.mono (fun _ _ k => ⟨rfl, k⟩) fun e u same => ?_)
      split
      · next handled =>
        split at handled
        · cases handled
          exact same
        · cases handled
          exact same
        · cases handled
      · exact same
  | _ => exact hp.elim

theorem ownersAmong_placeOf (o : Origin) (path : String) (σ : EvalState) :
    (ev.placeOf (.name o path)).Meets σ
      (fun p σ' => p.IsOfName ∧ σ.world.OwnersAmong (Path.segments path).dropLast σ'.world)
      fun _ σ' => σ.world.OwnersAmong (Path.segments path).dropLast σ'.world := by
  unfold placeOf Evaluator.resolvePlace
  refine Eval.meets_located_state ?_
  simp only [Eval.top, Comp.meets_bind, Eval.meets_frames, Comp.meets_pure, Eval.monadLift_action, Eval.meets_lift]
  refine (Run.Relates.resolverFor _ path σ.world).mono (fun _ w₁ quiet => ?_) fun _ _ h => .of_quiet h
  refine (Eval.quiet_view path _).mono (fun view σ₂ seen => ?_) fun _ _ seen => .of_quiet (quiet.trans seen)
  have quiet := quiet.trans seen
  exact (Run.ownersAmong_resolvePlace h.hostField view path σ₂.world).mono (fun _ _ k => ⟨k.1, k.2.quiet_trans quiet⟩)
    fun _ _ k => k.quiet_trans quiet

theorem quiet_eval (n : Node) (σ : EvalState) :
    (ev.eval n).Meets σ (fun _ σ' => σ.world.Quiet σ'.world) fun _ σ' => σ.world.Quiet σ'.world := by
  unfold Evaluator.eval
  simp only [Comp.meets_bind]
  refine (h.exec n σ).imp fun r σ' quiet => ?_
  unfold Eval.asValue
  split
  · exact quiet
  · exact quiet
  · exact quiet.trans (.of_eq rfl rfl)

theorem meets_assignment (node value : Node) (o : Origin) (path : String) (op : AssignOp)
    {σ : EvalState} (strict : σ.world.settings.strict = true) :
    (ev.assignment node (.name o path) op value).Meets σ
      (fun v σ' => σ.world.OwnersThen path (ev.Updates v) σ'.world)
      fun _ σ' => σ.world.OwnersThen path (fun _ _ => True) σ'.world := by
  have stored {p : Place} (hp : p.IsOfName) (result : Value) {w : World}
      (made : σ.world.OwnersAmong (Path.segments path).dropLast w) :
      (p.assign ev result true).run.Meets w (fun v w' => σ.world.OwnersThen path (ev.Updates v) w')
        fun _ w' => σ.world.OwnersThen path (fun _ _ => True) w' := by
    refine (h.updates_assign hp result w).mono ?_ fun _ _ same => ⟨made, same, trivial⟩
    rintro _ w' ⟨rfl, same, updates⟩
    exact ⟨made, same, updates⟩
  refine Comp.meets_bind.mpr ((h.ownersAmong_placeOf o path σ).mono ?_ fun _ _ made => made.only)
  rintro p σ₁ ⟨hp, made⟩
  extract_lets finish
  -- What follows once the old value has been read, if there is need for it.
  have finish (old : Option (Value × BinaryOp)) (σ₂ : EvalState)
      (made : σ.world.OwnersAmong (Path.segments path).dropLast σ₂.world) :
      (finish old).Meets σ₂ (fun v σ' => σ.world.OwnersThen path (ev.Updates v) σ'.world)
        fun _ σ' => σ.world.OwnersThen path (fun _ _ => True) σ'.world := by
    dsimp only [finish]
    split
    · exact made.only
    · simp only [Comp.meets_bind]
      refine (h.quiet_eval value σ₂).mono (fun v σ₃ quiet => ?_) fun _ _ quiet => (made.trans_quiet quiet).only
      have made := made.trans_quiet quiet
      split
      · exact made.only
      · simp only [Comp.meets_bind, Eval.monadLift_action, Eval.meets_lift, Run.meets_read, made.strict strict]
        refine Eval.meets_located_state ?_
        cases old with
        | none => exact Eval.meets_lift.mpr (stored hp _ made)
        | some e =>
          simp only [Comp.meets_bind, Eval.meets_lift]
          exact (h.compoundOp e.1 _ e.2 σ₃.world).mono (fun result _ quiet => stored hp result (made.trans_quiet quiet))
            fun _ _ quiet => (made.trans_quiet quiet).only
  split
  · exact finish none σ₁ made
  · refine Comp.meets_bind.mpr (Eval.meets_located_state ?_)
    simp only [Comp.meets_bind, Comp.meets_pure, Eval.monadLift_action, Eval.meets_lift]
    exact (h.read hp σ₁.world).mono (fun v w quiet => finish (some (v, _)) _ (made.trans_quiet quiet)) fun _ _ quiet =>
      (made.trans_quiet quiet).only

end Discreet

/-- The evaluator that does what `ev` does, except that it comes to no end where that would make or
remove variables or give up strictness. -/
noncomputable def discreet (ev : Evaluator) : Evaluator where
  fuel := ev.fuel
  exec n σ := (ev.exec n σ).onlyIf fun σ' => σ.world.Quiet σ'.world
  answer r :=
    { run := fun w => ((ev.answer r).run w).onlyIf w.Quiet
      lawful := fun w => Outcome.lawful_onlyIf ((ev.answer r).lawful w) }

theorem discreet_discreet (ev : Evaluator) : ev.discreet.Discreet where
  exec n := Outcome.meets_onlyIf (ev.exec n) fun σ σ' => σ.world.Quiet σ'.world
  answer r := Outcome.meets_onlyIf (ev.answer r).run World.Quiet

theorem discreet_eq_self {ev : Evaluator} (h : ev.Discreet) : ev.discreet = ev := by
  have exec (n : Node) (σ : EvalState) : (ev.exec n σ).onlyIf (fun σ' => σ.world.Quiet σ'.world) = ev.exec n σ :=
    Outcome.onlyIf_of_meets (h.exec n σ)
  have answer {α : Type} (r : Request α) (w : World) : ((ev.answer r).run w).onlyIf w.Quiet = (ev.answer r).run w :=
    Outcome.onlyIf_of_meets (h.answer r w)
  obtain ⟨fuel, run, reply⟩ := ev
  simp only [discreet, exec, answer]

end Evaluator

/-- An assignment in a strict interpreter, where neither the evaluation of its value nor what host
code asks for on the way makes or removes variables: all variables that are new afterwards are
closures made for segments before the last that stood for nothing, be the assignment refused or not.
Where none is made, and for simple names in particular, the variables of all scopes are what they
were. -/
theorem strict_assignment_adds_only_owners (ev : Evaluator) (node value : Node) (o : Origin)
    (path : String) (op : AssignOp) (σ : EvalState) (strict : σ.world.settings.strict = true)
    (plain : ev.discreet.assignment node (.name o path) op value σ = ev.assignment node (.name o path) op value σ) :
    (ev.assignment node (.name o path) op value).Meets σ
      (fun v σ' => σ.world.OwnersThen path (ev.discreet.Updates v) σ'.world)
      (fun _ σ' => σ.world.OwnersThen path (fun _ _ => True) σ'.world) ∧
    ∀ σ', (ev.assignment node (.name o path) op value).Leads σ σ' →
      ∃ owners, owners.Sublist (Path.segments path).dropLast ∧ σ.world.Gains owners σ'.world ∧
        (owners = [] → σ.world.SameHeld σ'.world) ∧ (Path.isCompound path = false → owners = []) := by
  have run := ev.discreet_discreet.meets_assignment node value o path op strict
  unfold Comp.Meets at run
  rw [plain] at run
  change (ev.assignment node (.name o path) op value).Meets σ _ _ at run
  refine ⟨run, fun σ' leads => ?_⟩
  have after : σ.world.OwnersThen path (fun _ _ => True) σ'.world := by
    refine (run.mono (fun _ _ h => ?_) fun _ _ h => h).of_leads leads
    obtain ⟨owners, same, -⟩ := h
    exact ⟨owners, same, trivial⟩
  obtain ⟨⟨owners, among, made⟩, same, -⟩ := after
  have gains : σ.world.Gains owners σ'.world := WorldRelation.trans made.gains.1 same.gains
  refine ⟨owners, among, gains, fun none => (none ▸ gains).sameHeld, fun simple => ?_⟩
  have undotted : '.' ∉ path.toList := by simpa [Path.isCompound] using simple
  rw [Path.segments_of_plain undotted] at among
  exact List.sublist_nil.mp among

def EvalState.strictBare : EvalState :=
  { world := { World.bare with settings := { World.bare.settings with strict := true } }, running := .own ⟨[0]⟩ }

def Evaluator.constant (v : Value) : Evaluator := { exhausted with exec := fun _ => pure (.value v) }

/-- The name `a` stands for nothing, and the assignment to `a.b` is refused. It has made a variable,
and that can be `a` only. -/
theorem strict_assignment_adds_only_owners_dotted :
    let assigned := (Evaluator.constant (.ofInt 1)).assignment .absent (.name {} "a.b") .plain .absent
    ∃ e σ', assigned .strictBare = .failed e σ' ∧ (σ'.world.scope 0).vars.contains "a" ∧
      ∃ owners, owners.Sublist ["a"] ∧ EvalState.strictBare.world.Gains owners σ'.world := by
  intro assigned
  have discreet : (Evaluator.constant (.ofInt 1)).Discreet := ⟨fun _ σ => .refl σ.world, fun _ _ => trivial⟩
  have run : (assigned .strictBare).failedWith fun _ σ' => (σ'.world.scope 0).vars.contains "a" := by rfl
  obtain ⟨e, σ', failed, made⟩ := Outcome.exists_of_failedWith run
  obtain ⟨-, bounds⟩ := strict_assignment_adds_only_owners (.constant (.ofInt 1)) .absent .absent {}
    "a.b" .plain .strictBare rfl
    (by rw [Evaluator.discreet_eq_self discreet])
  obtain ⟨owners, among, gains, -⟩ := bounds σ' (.failed e failed)
  exact ⟨e, σ', failed, made, owners, among, gains⟩

theorem strict_assignment_can_add_variables :
    ¬∀ (ev : Evaluator) (node value : Node) (o : Origin) (path : String) (op : AssignOp) (σ σ' : EvalState),
      σ.world.settings.strict = true → (∀ τ, ∃ v, ev.exec value τ = .done (.value v) τ) →
      (ev.assignment node (.name o path) op value).Leads σ σ' → σ.world.SameHeld σ'.world := by
  intro always
  let one : Node := .literal {} (.ofInt 1)
  have run : ((Evaluator.ofFuel 1).assignment .absent (.name {} "a.b") .plain one .strictBare).failedWith
      fun _ σ' => (σ'.world.scope 0).vars.contains "a" := by rfl
  obtain ⟨e, σ', failed, made⟩ := Outcome.exists_of_failedWith run
  have same := always (.ofFuel 1) .absent one {} "a.b" .plain .strictBare σ' rfl (fun τ =>
    ⟨.ofInt 1, rfl⟩) (.failed e failed) 0 "a"
  rw [made] at same
  cases same

end ScriptCore
