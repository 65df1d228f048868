import ScriptCore.Proofs.Conformance
import ScriptCore.Proofs.Gives
import ScriptCore.Scope.Binding

namespace ScriptCore

namespace World

def fits (w : World) (x : Variable) : Bool :=
  match x.value with
  | none => decide (x.type = .untyped) || x.isFinal
  | some v => w.conforms v x.type

def Typed (w : World) : Prop := ∀ s, ∀ x ∈ (w.scope s).vars.values, w.fits x

theorem typed_iff {w : World} : w.Typed ↔ ∀ sc ∈ w.scopes.toList, ∀ x ∈ sc.vars.values, w.fits x := by
  constructor
  · intro h sc hsc x hx
    obtain ⟨s, hs⟩ := Array.mem_iff_getElem?.mp (Array.mem_toList_iff.mp hsc)
    exact h s x (by simpa [scope, hs] using hx)
  · intro h s x hx
    unfold scope at hx
    cases hs : w.scopes[s]? with
    | none => rw [hs] at hx; cases hx
    | some sc =>
      rw [hs] at hx
      exact h sc (Array.mem_toList_iff.mpr (Array.mem_iff_getElem?.mpr ⟨s, hs⟩)) x hx

instance (w : World) : Decidable w.Typed := decidable_of_iff _ typed_iff.symm

variable {w w' : World} {x : Variable} {s : ScopeId} {name : String}

theorem Lasting.fits (h : w.Lasting w') (hx : w.fits x) : w'.fits x := by
  unfold World.fits at hx ⊢
  split
  · next hn => simpa only [hn] using hx
  · next v hv => exact h.conforms (by simpa only [hv] using hx)

theorem Typed.of_lasting (hw : w.Typed) (h : w.Lasting w')
    (hv : ∀ s, (w'.scope s).vars = (w.scope s).vars) : w'.Typed := by
  intro s x hx
  rw [hv s] at hx
  exact h.fits (hw s x hx)

theorem Typed.of_calm (hw : w.Typed) (h : w.Calm w') : w'.Typed := hw.of_lasting h.lasting h.vars

theorem Typed.setVars (hw : w.Typed) {f : Table Variable → Table Variable}
    (hf : ∀ x ∈ (f (w.scope s).vars).values, w.fits x) : (w.setVars s f).Typed := by
  intro t x hx
  refine (w.lasting_setVars s f).fits ?_
  rw [scope_setVars] at hx
  split at hx
  · next h => obtain ⟨rfl, -⟩ := h; exact hf x hx
  · exact hw t x hx

theorem Typed.put (hw : w.Typed) (hx : w.fits x) : (w.setVars s fun vars => vars.put name x).Typed := by
  refine hw.setVars fun y hy => ?_
  rcases Table.mem_values_put hy with rfl | hy
  · exact hx
  · exact hw s y hy

theorem Typed.erase (hw : w.Typed) (s : ScopeId) (name : String) : (w.setVars s fun vars => vars.erase name).Typed :=
  hw.setVars fun y hy => hw s y (Table.values_erase_subset _ name hy)

theorem Typed.fits_of_get? (hw : w.Typed) (h : (w.scope s).vars.get? name = some x) : w.fits x :=
  hw s x (Table.mem_values_of_get? h)

def Wrote (w w' : World) (s : ScopeId) (name : String) (x : Variable) : Prop :=
  ∃ v : World, w.Calm v ∧ v.fits x ∧ (v.setVars s fun vars => vars.put name x).Calm w'

theorem Wrote.typed (h : w.Wrote w' s name x) (hw : w.Typed) : w'.Typed := by
  obtain ⟨v, before, hx, after⟩ := h
  exact ((hw.of_calm before).put hx).of_calm after

theorem Wrote.typed_of_put {x y : Variable} (hs : s < w.scopes.size)
    (h : (w.setVars s fun vars => vars.put name y).Wrote w' s name x) (hw : w.Typed) : w'.Typed := by
  obtain ⟨v, before, hx, after⟩ := h
  refine Typed.of_calm (fun t z hz => ?_) after
  have lasting := ((w.lasting_setVars s _).trans before.lasting).trans
    (v.lasting_setVars s fun vars => vars.put name x)
  have hv : s < v.scopes.size := Nat.lt_of_lt_of_le (by simpa [setVars, modifyScope] using hs) before.scopes.size
  rw [scope_setVars] at hz
  by_cases ht : s = t
  · subst ht
    rw [if_pos ⟨rfl, hv⟩] at hz
    simp only [before.vars s, scope_setVars, hs, and_self, if_true, Table.put_put] at hz
    rcases Table.mem_values_put hz with rfl | hz
    · exact (v.lasting_setVars s _).fits hx
    · exact lasting.fits (hw s z hz)
  · rw [if_neg fun h => ht h.1, before.vars t, scope_setVars, if_neg fun h => ht h.1] at hz
    exact lasting.fits (hw t z hz)

end World

namespace Run

variable {w : World}

@[simp] theorem meets_putVariable {s : ScopeId} {name : String} {x : Variable}
    {Q : Unit → World → Prop} {F : Failure → World → Prop} :
    (putVariable s name x).run.Meets w Q F ↔ Q () (w.setVars s fun vars => vars.put name x) := Iff.rfl

theorem meets_forgetNames {s : ScopeId} {Q : Unit → World → Prop} {F : Failure → World → Prop}
    (h : ∀ w', w.Calm w' → Q () w') : (forgetNames s).run.Meets w Q F :=
  h _ (World.calm_modifyMemory s .forgotten)

theorem meets_declaredValue (type : Ty) (value : Option Value) (modifiers : Modifiers) (w : World) :
    (declaredValue type value modifiers).run.Meets w (fun r w' => w'.fits { type, value := r, modifiers })
      fun _ _ => True := by
  unfold declaredValue
  split
  · next h =>
    simp only [Bool.and_eq_true] at h
    simp [World.fits, Variable.isFinal, h.1]
  · simp only [Action.meets_bind]
    exact meets_cast _ type .cast w

variable (s : ScopeId) (name : String)

theorem meets_declareVariable (type : Ty) (value : Option Value) (modifiers : Modifiers)
    (w : World) :
    (declareVariable s name type value modifiers).run.Meets w
      (fun _ w' => ∃ r, w.Wrote w' s name { type, value := r, modifiers }) fun _ w' => w.Calm w' := by
  unfold declareVariable
  simp only [Action.meets_bind, Action.run_lift, meets_putVariable]
  refine ((Action.meets_calm _ w).and (meets_declaredValue type value modifiers w)).mono ?_ fun _ _ h => h.1
  rintro r v ⟨before, hr⟩
  exact meets_forgetNames fun w' after => ⟨r, v, before, hr, after⟩

theorem meets_assignVariable (value : Value) (declaring : Bool) (w : World) :
    (assignVariable s name value declaring).run.Meets w
      (fun _ w' =>
        match (w.scope s).vars.get? name with
        | none => w' = w
        | some x => ∃ r, w.Wrote w' s name { x with value := some r })
      fun _ w' => w.Calm w' := by
  unfold assignVariable
  simp only [Action.meets_bind, Action.run_lift, meets_read]
  cases (w.scope s).vars.get? name with
  | none => exact rfl
  | some x =>
    dsimp only
    split
    · exact .refl w
    · simp only [Action.meets_bind, Action.run_lift, meets_putVariable]
      refine ((Action.meets_calm _ w).and (meets_cast value x.type _ w)).mono ?_ fun _ _ h => h.1
      rintro r v ⟨before, hr⟩
      exact ⟨r, v, before, hr, .refl _⟩

theorem typed_assignVariable (value : Value) (declaring : Bool) (hw : w.Typed) :
    (assignVariable s name value declaring).run.Meets w (fun _ w' => w'.Typed) fun _ w' => w'.Typed := by
  refine (meets_assignVariable s name value declaring w).mono (fun _ w' h => ?_) fun _ _ h => hw.of_calm h
  split at h
  · rw [h]
    exact hw
  · obtain ⟨r, h⟩ := h
    exact h.typed hw

theorem typed_declareVariable (type : Ty) (value : Option Value) (modifiers : Modifiers)
    (hw : w.Typed) :
    (declareVariable s name type value modifiers).run.Meets w (fun _ w' => w'.Typed) fun _ w' => w'.Typed :=
  (meets_declareVariable s name type value modifiers w).mono (fun _ _ ⟨_, h⟩ => h.typed hw) fun _ _ h => hw.of_calm h

theorem typed_unsetVariable (hw : w.Typed) :
    (unsetVariable s name).run.Meets w (fun _ w' => w'.Typed) fun _ w' => w'.Typed := by
  unfold unsetVariable
  simp only [Action.meets_bind, Action.run_lift, meets_read]
  split
  · simp only [Action.meets_bind, Action.run_lift, meets_updateVars]
    exact meets_forgetNames fun w' h => (hw.erase s name).of_calm h
  · exact hw

end Run

/-- What a search for a name can come upon: a variable of that name, or a field of an imported
value. -/
inductive Binding.Found (w : World) (name : String) : Binding → Prop
  | held {s : ScopeId} {x : Variable} (h : (w.scope s).vars.get? name = some x) : Found w name (.held s name)
  | field {s : ScopeId} {target : Value} (h : target ∈ w.importTargets s) : Found w name (.field target name)

namespace Run

variable {w : World} {name : String} {target : Value} {i : ObjectId}

theorem meets_firstSome {α β : Type} {f : α → Plain (Option β)} {P : β → Prop} {F : Failure → World → Prop} {xs : List α}
    (h : ∀ x ∈ xs, (f x).run.Meets w (fun r w' => w' = w ∧ ∀ b ∈ r, P b) F) :
    (firstSome xs f).run.Meets w (fun r w' => w' = w ∧ ∀ b ∈ r, P b) F := by
  induction xs with
  | nil => exact ⟨rfl, nofun⟩
  | cons x rest ih =>
    unfold firstSome
    simp only [Action.meets_bind]
    refine (h x List.mem_cons_self).imp ?_
    rintro r _ ⟨rfl, hr⟩
    cases r with
    | none => exact ih fun y hy => h y (List.mem_cons_of_mem _ hy)
    | some b => exact ⟨rfl, hr⟩

theorem meets_resolveMember (b : Bridge) (target : Value) (name : String) (w : World) :
    (resolveMember b target name).run.Meets w (fun _ w' => w' = w) fun _ w' => w.Calm w' := by
  unfold resolveMember memberBy heldAttribute
  split
  · exact rfl
  split
  · exact rfl
  simp only [Action.meets_bind, meets_read]
  split
  case h_2 => exact meets_raise fun _ _ h => h
  all_goals exact rfl

theorem meets_importedBinding {inScope : ScopeId → Plain (Option Binding)} {s : ScopeId}
    (h : ∀ t, (inScope t).run.Meets w (fun r w' => w' = w ∧ ∀ b ∈ r, b.Found w name) fun _ w' => w.Calm w')
    (hm : target ∈ w.importTargets s) (b : Bridge) :
    (importedBinding inScope b name target).run.Meets w
    (fun r w' => w' = w ∧ ∀ b ∈ r, b.Found w name) fun _ w' => w.Calm w' := by
  unfold importedBinding
  split
  · exact h _
  · simp only [Action.meets_bind]
    refine (meets_resolveMember b target name w).imp ?_
    rintro r _ rfl
    cases r with
    | none => exact ⟨rfl, fun _ h => by cases h⟩
    | some m =>
      refine ⟨rfl, fun b hb => ?_⟩
      split at hb
      · cases hb
      · cases hb
        exact .field hm

theorem meets_localBinding (fuel : Nat) (s : ScopeId) (name : String) (w : World) :
    (localBinding fuel s name).run.Meets w (fun r w' => w' = w ∧ ∀ b ∈ r, b.Found w name) fun _ w' => w.Calm w' := by
  induction fuel generalizing s with
  | zero => trivial
  | succ fuel ih =>
    unfold localBinding
    simp only [Action.meets_bind, meets_get]
    have own : ∀ b ∈ if (w.scope s).vars.contains name then some (Binding.held s name) else none, b.Found w name := by
      intro b hb
      split at hb
      · next h =>
        cases hb
        obtain ⟨x, hx⟩ := Option.isSome_iff_exists.mp h
        exact .held hx
      · cases hb
    have imported := meets_firstSome fun target hm => meets_importedBinding (s := s) ih hm (w.bridge s)
    split
    · simp only [Action.meets_bind]
      refine imported.imp ?_
      rintro r _ ⟨rfl, hr⟩
      cases r with
      | none => exact ⟨rfl, own⟩
      | some b => exact ⟨rfl, hr⟩
    · split
      · next b hb => exact ⟨rfl, fun c hc => own c (by rw [hb]; exact hc)⟩
      · exact imported

theorem meets_findBinding (s : ScopeId) (name : String) (outwards : Bool) (w : World) :
    (findBinding s name outwards).run.Meets w (fun r w' => w' = w ∧ ∀ b ∈ r, b.Found w name) fun _ w' => w.Calm w' := by
  unfold findBinding
  simp only [Action.meets_bind, meets_read]
  refine meets_firstSome fun t _ => ?_
  unfold localBindingOf
  simp only [Action.meets_bind, meets_read]
  exact meets_localBinding _ t name w

theorem localBindingOf_unknown {s : ScopeId} (imports : w.importTargets s = [])
    (new : (w.scope s).vars.contains name = false) : (localBindingOf s name).run w = .done none w := by
  have here : (localBinding (w.scopes.size + 1) s name).run w = .done none w := by
    unfold localBinding
    rw [Action.run_bind_of_done (x := get) rfl]
    simp only [imports, new, firstSome, Bool.false_eq_true, if_false]
    split <;> rfl
  exact here

theorem typed_retype {p : Payload} (hw : w.Typed)
    (h : ∀ t, (w.obj i).payload.component? = some t → p.component? = some t) :
    (retype i p).run.Meets w (fun _ w' => w'.Typed) fun _ w' => w'.Typed :=
  hw.of_lasting (World.lasting_setPayload h) fun _ => rfl

theorem typed_of_calm {α : Type} {t : Tier} (x : Action .nothing t α) (hw : w.Typed) :
    x.run.Meets w (fun _ w' => w'.Typed) fun _ w' => w'.Typed :=
  (x.meets_calm w).mono (fun _ _ h => hw.of_calm h) fun _ _ h => hw.of_calm h

theorem typed_lift {α : Type} {may : May} {s t : Tier} [Tier.Within s t] (x : Action .nothing s α) (hw : w.Typed) :
    (monadLift x : Action may t α).run.Meets w (fun _ w' => w'.Typed) fun _ w' => w'.Typed :=
  typed_of_calm x hw

variable (x : Value)

theorem typed_setArguments (hw : w.Typed) (hn : (w.obj i).payload.component? = none)
    (hd : w.obj i ≠ default) : (setArguments i x).run.Meets w (fun _ w' => w'.Typed) fun _ w' => w'.Typed := by
  unfold setArguments
  simp only [Action.meets_bind, Action.run_lift, meets_get]
  split
  · exact typed_of_calm _ hw
  · next items _ =>
    simp only [Action.meets_bind, Action.run_lift]
    refine (Action.meets_calm (newTuple items) w).mono (fun held w' h => ?_) fun _ _ h => hw.of_calm h
    have none : (w'.obj i).payload.component? = none := by
      rcases h.obj i with r | r
      · rw [r.component, hn]
      · exact absurd r hd
    split <;> exact typed_retype (hw.of_calm h) fun t ht => by rw [none] at ht; cases ht

theorem typed_setInitial (hw : w.Typed)
    (hc : name = "component_type" → (w.obj i).payload.component? = none) :
    (setInitial i name x).run.Meets w (fun _ w' => w'.Typed) fun _ w' => w'.Typed := by
  have plain {p : Payload} (hp : (w.obj i).payload.component? = none) :
      (retype i p).run.Meets w (fun _ w' => w'.Typed) fun _ w' => w'.Typed :=
    typed_retype hw fun t ht => by rw [hp] at ht; cases ht
  unfold setInitial
  simp only [Action.meets_bind, Action.run_lift, meets_get]
  split
  · next hp => exact typed_retype hw fun t ht => by simpa [hp, Payload.component?] using ht
  · next hp => simp [hp, Payload.component?] at hc
  · next hp => exact plain (by rw [hp]; rfl)
  · next hp => exact plain (by rw [hp]; rfl)
  · next hp =>
    simp only [Action.meets_bind]
    exact typed_setArguments x hw (by rw [hp]; rfl) fun hd => by rw [hd] at hp; cases hp
  · next hp =>
    simp only [Action.meets_bind]
    exact typed_setArguments x hw (by rw [hp]; rfl) fun hd => by rw [hd] at hp; cases hp
  · exact hw

theorem typed_setOwnAttr (hw : w.Typed)
    (hc : name = "component_type" → (w.obj i).payload.component? = none) :
    (setOwnAttr i name x).run.Meets w (fun _ w' => w'.Typed) fun _ w' => w'.Typed := by
  unfold setOwnAttr
  simp only [Action.meets_bind, Action.run_lift, meets_read]
  split
  · exact typed_lift _ hw
  · exact typed_lift _ hw
  · simp only [Action.meets_bind]
    refine (typed_setInitial x hw hc).imp fun set w' hw' => ?_
    split
    · exact hw'
    split
    · simp only [Action.meets_bind, Action.run_lift]
      refine (typed_of_calm _ hw').imp fun _ w'' hw'' => ?_
      split
      · exact typed_lift _ hw''
      · exact hw''
    · exact typed_lift _ hw'

theorem typed_setScriptedAttr (hw : w.Typed)
    (hc : name = "component_type" → (w.obj i).payload.component? = none) :
    (setScriptedAttr i name x).run.Meets w (fun _ w' => w'.Typed) fun _ w' => w'.Typed := by
  unfold setScriptedAttr
  simp only [Action.meets_bind, Action.run_lift, meets_read]
  split
  · exact typed_setOwnAttr x hw hc
  · next t _ =>
    simp only [Action.meets_bind, Action.run_lift, meets_read]
    refine Action.meets_converting.mpr ?_
    refine (typed_assignVariable t name (w.wrap x) false hw).mono (fun _ _ h => h) fun e w' hw' => ?_
    cases e with
    | fault c target => exact typed_of_calm (raise ⟨.typeError, c.message⟩) hw'
    | _ => exact hw'

theorem typed_setAttr {v : Value} (x : Value) (hw : w.Typed)
    (hc : name = "component_type" → ∀ i, v = .object i → (w.obj i).payload.component? = none) :
    (setAttr v name x).run.Meets w (fun _ w' => w'.Typed) fun _ w' => w'.Typed := by
  unfold setAttr
  split
  · simp only [Action.meets_bind, Action.run_lift, meets_read]
    split
    · exact typed_lift _ hw
    · exact typed_lift _ hw
    · exact typed_lift _ hw
    · exact typed_lift _ hw
  · exact typed_lift _ hw
  · next i =>
    simp only [Action.meets_bind, Action.run_lift, meets_read]
    split
    · exact typed_setScriptedAttr x hw fun h => hc h i rfl
    · exact typed_setOwnAttr x hw fun h => hc h i rfl
  · exact typed_lift _ hw
  · exact typed_lift _ hw
  · exact typed_lift _ hw
  · simp only [Action.meets_bind, Action.run_lift, meets_read]
    split
    · exact typed_lift _ hw
    · exact typed_lift _ hw
    · exact typed_lift _ hw

theorem typed_setField (value : Value) (hw : w.Typed)
    (hc : name = "component_type" → ∀ i, target = .object i → (w.obj i).payload.component? = none) :
    (setField target name value).run.Meets w (fun _ w' => w'.Typed) fun _ w' => w'.Typed := by
  refine Action.meets_catching.mpr ?_
  refine (typed_setAttr value.unwrap hw hc).mono (fun _ _ h => h) fun e w' hw' => ?_
  cases hostException? w' e with
  | none => exact hw'
  | some toException =>
    dsimp only
    split
    · next h =>
      split at h
      · cases h
        simp only [Action.meets_bind, Action.run_lift, meets_read]
        exact (typed_of_calm toException hw').imp fun _ _ h => h
      · cases h
        simp only [Action.meets_bind, Action.run_lift]
        exact (typed_of_calm toException hw').imp fun _ _ h => h
    · exact hw'

theorem typed_writeField (value : Value) (hw : w.Typed)
    (hc : name = "component_type" → ∀ i, target = .object i → (w.obj i).payload.component? = none) :
    (writeField target name value).run.Meets w (fun _ w' => w'.Typed) fun _ w' => w'.Typed := by
  unfold writeField
  split
  · exact hw
  · exact hw
  · refine Action.meets_converting.mpr ?_
    refine (typed_setField value hw hc).mono (fun _ _ h => h) fun e w' hw' => ?_
    cases w'.seen e <;> exact hw'

end Run

/-- Some scope imports an array as an object whose fields can be named. -/
def World.ImportsArray (w : World) : Prop :=
  ∃ s i t, .object i ∈ w.importTargets s ∧ (w.obj i).payload.component? = some t

namespace Run

variable {w : World} {name : String}

theorem typed_bindIn (s : ScopeId) (value : Value) (strict outwards : Bool) (hw : w.Typed)
    (hc : name = "component_type" → ¬w.ImportsArray) :
    (bindIn s name value strict outwards).run.Meets w (fun _ w' => w'.Typed) fun _ w' => w'.Typed := by
  unfold bindIn
  split
  · exact hw
  simp only [Action.meets_bind, Action.run_lift]
  refine (meets_findBinding s name outwards w).mono ?_ fun _ _ h => hw.of_calm h
  rintro r _ ⟨rfl, hr⟩
  cases r with
  | none =>
    dsimp only
    split
    · exact hw
    · exact typed_declareVariable s name .untyped _ {} hw
  | some b =>
    cases hr b rfl with
    | held => exact typed_assignVariable _ name _ false hw
    | field hm =>
      refine typed_writeField _ hw fun hn i hi => ?_
      subst hi
      refine Option.eq_none_iff_forall_ne_some.mpr fun t ht => hc hn ⟨_, i, t, hm, ht⟩

theorem typed_setVariable (s : ScopeId) (value : Value) (strict outwards : Bool) (hw : w.Typed)
    (hc : name = "component_type" → ¬w.ImportsArray) :
    (setVariable s name value strict outwards).run.Meets w (fun _ w' => w'.Typed) fun _ w' => w'.Typed := by
  unfold setVariable
  simp only [Action.meets_bind, Action.run_lift, meets_get]
  exact typed_bindIn _ value strict _ hw hc

/-- A declaration that comes upon a variable of the same type first gives it the new modifiers. -/
theorem run_setTypedVariable_again {s t : ScopeId} {type : Ty} {x : Variable} (value : Option Value)
    (modifiers : Modifiers) (hb : (findBinding s name false).run w = .done (some (.held t name)) w)
    (hx : (w.scope t).vars.get? name = some x) (ht : x.type = type) (hu : type ≠ .untyped) :
    (setTypedVariable s name type value modifiers).run w =
      (match value with
        | none => pure ()
        | some v => assignVariable t name v true : Storing Unit).run
        (w.setVars t fun vars => vars.put name { x with modifiers }) := by
  subst ht
  unfold setTypedVariable
  have found : (read fun w => ((w.scope t).vars.get? name).getD {}).run w = .done x w := by
    show Outcome.done (((w.scope t).vars.get? name).getD {}) w = _
    rw [hx]
    rfl
  refine (Comp.bind_of_done hb).trans ((Comp.bind_of_done found).trans ?_)
  simp only [hu, if_false, ne_eq, not_true_eq_false]
  rfl

/-- A declaration makes a new variable, unless it comes upon a typed one. That has to be of the same
type, and is given the modifiers first. -/
theorem meets_setTypedVariable {s : ScopeId} {type : Ty} {value : Option Value}
    {modifiers : Modifiers} {Q : Unit → World → Prop} {F : Failure → World → Prop}
    (stopped : ∀ e w', (findBinding s name false).run w = .failed e w' → F e w') (refused : ∀ e, F e w)
    (declared : ∀ r, (findBinding s name false).run w = .done r w →
      (∀ t x, r = some (.held t name) → (w.scope t).vars.get? name = some x → x.type = .untyped) →
      (declareVariable s name type value modifiers).run.Meets w Q F)
    (again : ∀ t x, (findBinding s name false).run w = .done (some (.held t name)) w →
      (w.scope t).vars.get? name = some x → x.type = type → type ≠ .untyped →
      (value = none → Q () (w.setVars t fun vars => vars.put name { x with modifiers })) ∧
        ∀ v, value = some v →
          (assignVariable t name v true).run.Meets (w.setVars t fun vars => vars.put name { x with modifiers }) Q F) :
    (setTypedVariable s name type value modifiers).run.Meets w Q F := by
  unfold setTypedVariable
  simp only [Action.meets_bind, Action.run_lift]
  refine ((Comp.meets_self _ w).and (meets_findBinding s name false w)).mono ?_ fun e w' h => stopped e w' h.1
  rintro r _ ⟨run, rfl, found⟩
  cases r with
  | none => exact declared _ run fun _ _ h => by cases h
  | some b =>
    cases found b rfl with
    | field => exact declared _ run fun _ _ h => by cases h
    | @held t x hx =>
      simp only [Action.meets_bind, Action.run_lift, meets_read, hx, Option.getD_some]
      split
      · next loose =>
        refine declared _ run fun u y h hy => ?_
        cases h
        cases hx.symm.trans hy
        exact loose
      · next typed =>
        split
        · exact refused _
        · next same =>
          have same : x.type = type := Decidable.not_not.mp same
          simp only [Action.meets_bind, Action.run_lift, meets_putVariable]
          obtain ⟨kept, given⟩ := again t x run hx same (same ▸ typed)
          cases value with
          | none => exact kept rfl
          | some v => exact given v rfl

theorem typed_setTypedVariable_new {s : ScopeId} {type : Ty} (value : Option Value) (modifiers : Modifiers)
    (hw : w.Typed) (hn : ∀ t x, (findBinding s name false).run w = .done (some (.held t name)) w →
      (w.scope t).vars.get? name = some x → x.type = type → type = .untyped) :
    (setTypedVariable s name type value modifiers).run.Meets w (fun _ w' => w'.Typed) fun _ w' => w'.Typed :=
  meets_setTypedVariable (fun _ _ h => hw.of_calm ((meets_findBinding s name false w).of_failed h)) (fun _ => hw)
    (fun _ _ _ => typed_declareVariable s name type value modifiers hw) fun t x hb hx ht hu => absurd (hn t x hb hx ht) hu

end Run

end ScriptCore
