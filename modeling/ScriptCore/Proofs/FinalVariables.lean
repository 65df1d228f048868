import ScriptCore.Proofs.AssignedCell

namespace ScriptCore

namespace World

variable {w w' w'' : World} {s t : ScopeId} {name : String}

def Fixed (w : World) (t : ScopeId) (name : String) (type : Ty) (v : Value) : Prop :=
  ∃ x, (w.scope t).vars.get? name = some x ∧ x.isFinal ∧ x.type = type ∧ x.value = some v

def KeepsFixed (t : ScopeId) (name : String) (w w' : World) : Prop :=
  ∀ type v, w.Fixed t name type v → w'.Fixed t name type v

theorem head_searched (w : World) (s : ScopeId) (outwards : Bool) :
    ∃ rest, (if outwards then w.ancestry s else [s]) = s :: rest := by
  cases outwards with
  | true => exact w.head_ancestry s
  | false => exact ⟨[], rfl⟩

theorem get?_setVars_put {x : Variable} (held : (w.scope t).vars.get? name = some x) (y : Variable) :
    ((w.setVars t fun vars => vars.put name y).scope t).vars.get? name = some y := by
  rw [scope_setVars, if_pos ⟨rfl, inside_of_held held⟩]
  exact Table.get?_put_self _ _ _

namespace KeepsFixed

theorem of_get? (h : (w'.scope t).vars.get? name = (w.scope t).vars.get? name) : KeepsFixed t name w w' := by
  rintro type v ⟨x, held, kept⟩
  exact ⟨x, h.trans held, kept⟩

theorem of_vars (h : (w'.scope t).vars = (w.scope t).vars) : KeepsFixed t name w w' := of_get? (by rw [h])

theorem trans (h : KeepsFixed t name w w') (k : KeepsFixed t name w' w'') : KeepsFixed t name w w'' :=
  fun type v fixed => k type v (h type v fixed)

theorem of_beside (h : w.Beside w') : KeepsFixed t name w w' := by
  obtain ⟨proxies, same⟩ := h.scope t
  exact of_vars (by rw [same])

theorem put_apart {y : String} (apart : s ≠ t ∨ y ≠ name) (x : Variable) :
    KeepsFixed t name w (w.setVars s fun vars => vars.put y x) := by
  refine of_get? ?_
  rw [scope_setVars]
  split
  · next here => rw [Table.get?_put_ne _ _ (apart.resolve_left fun ne => ne here.1)]
  · rfl

theorem put_free {x y : Variable} (held : (w.scope t).vars.get? name = some x)
    (free : (x.isFinal && x.value.isSome) = false) :
    KeepsFixed t name w (w.setVars t fun vars => vars.put name y) := by
  rintro type v ⟨z, hz, final, -, value⟩
  cases held.symm.trans hz
  rw [final, value] at free
  cases free

theorem put_final {x : Variable} {modifiers : Modifiers} (held : (w.scope t).vars.get? name = some x)
    (final : modifiers.has "final") : KeepsFixed t name w (w.setVars t fun vars => vars.put name { x with modifiers }) := by
  rintro type v ⟨y, hy, -, same, value⟩
  cases held.symm.trans hy
  exact ⟨{ x with modifiers }, get?_setVars_put held _, final, same, value⟩

end KeepsFixed

end World

instance {t : ScopeId} {name : String} : StoreRelation (World.KeepsFixed t name) where
  refl _ := .of_vars rfl
  trans := .trans
  beside := .of_beside
  objects hs _ _ := .of_vars (by rw [World.scope, World.scope, hs])
  description w u f hf := by
    refine .of_vars ?_
    rw [World.scope_modifyScope]
    split
    · obtain ⟨n, c, m, same⟩ := hf (w.scope t)
      rw [same]
    · rfl
  assigned s x value declaring w := by
    refine (Run.assignVariable_beside s x value declaring w).mono (fun _ w' h => ?_) fun _ _ h => .of_beside h
    rcases h with rfl | ⟨var, stored, v, held, free, beside, rfl⟩
    · exact .of_vars rfl
    · refine .trans (.of_beside beside) ?_
      by_cases here : s = t ∧ x = name
      · obtain ⟨rfl, rfl⟩ := here
        obtain ⟨proxies, same⟩ := beside.scope s
        exact .put_free (by rw [same]; exact held) free
      · exact .put_apart (Decidable.not_and_iff_or_not.mp here) _

namespace Run

variable {w : World} {s t : ScopeId} {name : String}

theorem allowsPackage_keepsFixed (u : ScopeId) : AllowsPackage (World.KeepsFixed t name) u := by
  intro w p
  refine .of_vars ?_
  rw [World.scope_modifyScope]
  split <;> rfl

theorem localBindingOf_ne_none (held : (w.scope s).vars.contains name) :
    (localBindingOf s name).run.Meets w (fun r _ => r ≠ none) fun _ _ => True := by
  change (localBinding (w.scopes.size + 1) s name).run.Meets w _ _
  unfold localBinding
  simp only [Action.meets_bind, meets_get, held, if_true]
  split
  · simp only [Action.meets_bind]
    refine Comp.meets_of_forall (fun r _ => ?_) fun _ _ => trivial
    cases r <;> simp
  · simp

theorem not_contains_of_findBinding {outwards : Bool} (h : (findBinding s name outwards).run w = .done none w) :
    (w.scope s).vars.contains name = false := by
  rw [Bool.eq_false_iff]
  intro held
  obtain ⟨rest, first⟩ := w.head_searched s outwards
  have search : (findBinding s name outwards).run.Meets w (fun r _ => r ≠ none) fun _ _ => True := by
    unfold findBinding
    simp only [Action.meets_bind, meets_read]
    rw [first]
    unfold firstSome
    simp only [Action.meets_bind]
    refine (localBindingOf_ne_none held).impDone fun r _ some => ?_
    cases r with
    | none => exact absurd rfl some
    | some b => simp
  exact search.of_done h rfl

theorem keepsFixed_declareVariable {y : String} (apart : s ≠ t ∨ y ≠ name) (type : Ty) (value : Option Value)
    (modifiers : Modifiers) : Relates (World.KeepsFixed t name) (declareVariable s y type value modifiers) :=
  .bind (.lift (.of_adds (.declaredValue type value modifiers))) fun _ _ => .trans (.put_apart apart _) (.of_vars rfl)

end Run

namespace StorageCall

variable {w w' : World} {t : ScopeId} {name : String} {type : Ty} {s : ScopeId}

/-- The call declares a variable anew, so that it may lose what it was. -/
inductive Reopens (w : World) (t : ScopeId) (name : String) : StorageCall → Prop
  /-- It comes upon the variable, with the same type, and does not say that it is final. -/
  | loosened {s : ScopeId} {type : Ty} {value : Option Value} {modifiers : Modifiers} {x : Variable}
      (found : (Run.findBinding s name false).run w = .done (some (.held t name)) w)
      (held : (w.scope t).vars.get? name = some x) (same : x.type = type) (typed : type ≠ .untyped)
      (dropped : modifiers.has "final" = false) : Reopens w t name (.declare s name type value modifiers)
  /-- It comes upon nothing typed. -/
  | replaced {type : Ty} {value : Option Value} {modifiers : Modifiers} {r : Option Binding}
      (found : (Run.findBinding t name false).run w = .done r w)
      (loose : ∀ u x, r = some (.held u name) → (w.scope u).vars.get? name = some x → x.type = .untyped) :
      Reopens w t name (.declare t name type value modifiers)

/-- The call would give the variable a value, as an assignment or as a declaration that comes upon
it with its type. -/
def Supplies (w : World) (t : ScopeId) (name : String) : StorageCall → Prop
  | assign s n _ _ outwards =>
    n = name ∧ (Run.findBinding (w.bindingScope s n) n
      (outwards && !(w.scope (w.bindingScope s n)).isBlock)).run w = .done (some (.held t n)) w
  | assignInBlock s n _ => n = name ∧ (Run.findBinding s n false).run w = .done (some (.held t n)) w
  | declare s n _ value _ =>
    n = name ∧ value.isSome ∧ (Run.findBinding s n false).run w = .done (some (.held t n)) w ∧
      ∀ x, (w.scope t).vars.get? n = some x → x.type ≠ .untyped
  | remove .. => False

theorem keepsFixed_bindIn (s : ScopeId) (y : String) (value : Value) (strict outwards : Bool) :
    (Run.bindIn s y value strict outwards).run.Meets w (fun _ w' => w.KeepsFixed t name w')
      fun _ w' => w.KeepsFixed t name w' := by
  refine Run.relates_bindIn value strict outwards (fun _ _ u _ => Run.allowsPackage_keepsFixed u) fun _ unknown => ?_
  have new := Run.not_contains_of_findBinding unknown
  by_cases here : s = t ∧ y = name
  · obtain ⟨rfl, rfl⟩ := here
    -- There is no such variable, so that nothing is claimed about it.
    refine Comp.meets_of_forall (fun _ _ => ?_) fun _ _ => ?_ <;>
    · rintro type v ⟨x, held, -⟩
      rw [Table.contains, held] at new
      cases new
  · exact Run.keepsFixed_declareVariable (Decidable.not_and_iff_or_not.mp here) _ _ _ w

theorem keepsFixed_setTypedVariable {y : String} {value : Option Value} {modifiers : Modifiers}
    (stays : ¬Reopens w t name (.declare s y type value modifiers)) :
    (Run.setTypedVariable s y type value modifiers).run.Meets w (fun _ w' => w.KeepsFixed t name w')
      fun _ w' => w.KeepsFixed t name w' := by
  refine Run.relates_setTypedVariable type value modifiers (fun r found loose => ?_) fun u x found held same typed => ?_
  · by_cases here : s = t ∧ y = name
    · obtain ⟨rfl, rfl⟩ := here
      exact absurd (.replaced found loose) stays
    · exact Run.keepsFixed_declareVariable (Decidable.not_and_iff_or_not.mp here) type value modifiers w
  · by_cases here : u = t ∧ y = name
    · obtain ⟨rfl, rfl⟩ := here
      have final : modifiers.has "final" := Bool.not_eq_false _ ▸ fun dropped =>
        stays (.loosened found held same typed dropped)
      exact .put_final held final
    · exact .put_apart (Decidable.not_and_iff_or_not.mp here) _

/-- A final variable keeps its value when another one is removed, and when anything is assigned, or
declared without reopening it. -/
theorem keepsFixed {c : StorageCall} (h : c.run.Leads w w') (stays : ¬c.Reopens w t name)
    (keeps : ∀ s y, c = .remove s y → s ≠ t ∨ y ≠ name) : w.KeepsFixed t name w' := by
  refine Comp.Meets.of_leads ?_ h
  cases c with
  | assign s y value strict outwards =>
    change (Run.setVariable s y value strict outwards).run.Meets w _ _
    unfold Run.setVariable
    simp only [Action.meets_bind, Action.run_lift, Run.meets_get]
    exact keepsFixed_bindIn _ y value strict _
  | assignInBlock s y value => exact keepsFixed_bindIn s y value false false
  | declare s y type value modifiers => exact keepsFixed_setTypedVariable stays
  | remove s y =>
    change (Run.unsetVariable s y).run.Meets w _ _
    unfold Run.unsetVariable
    simp only [Action.meets_bind, Action.run_lift, Run.meets_read]
    split
    · refine .of_get? ?_
      change (((w.setVars s fun vars => vars.erase y).scope t).vars.get? name) = _
      rw [World.scope_setVars]
      split
      · next here => rw [Table.get?_erase_ne _ ((keeps s y rfl).resolve_left fun ne => ne here.1)]
      · rfl
    · exact .of_vars rfl

theorem assignVariable_refused {v : Value} (fixed : w.Fixed t name type v) (value : Value) (declaring : Bool) :
    (Run.assignVariable t name value declaring).run w = .failed (.fault (.finalReassigned name) none) w := by
  obtain ⟨x, held, final, -, has⟩ := fixed
  rw [Run.run_assignVariable held, final, has]
  rfl

theorem bindIn_refused {v : Value} {outwards : Bool} (fixed : w.Fixed t name type v)
    (found : (Run.findBinding s name outwards).run w = .done (some (.held t name)) w) (value : Value) (strict : Bool) :
    ∃ e, (Run.bindIn s name value strict outwards).run w = .failed e w := by
  unfold Run.bindIn
  split
  · exact ⟨_, rfl⟩
  · rw [Action.run_liftM_bind_of_done found]
    exact ⟨_, assignVariable_refused fixed value false⟩

theorem setTypedVariable_refused {x : Variable}
    (found : (Run.findBinding s name false).run w = .done (some (.held t name)) w)
    (held : (w.scope t).vars.get? name = some x) (typed : x.type ≠ .untyped) (other : x.type ≠ type) (value : Option Value)
    (modifiers : Modifiers) : (Run.setTypedVariable s name type value modifiers).run w =
      .failed (.fault (.declaredBefore name (w.typeName x.type)) none) w := by
  have known : (Run.read fun w => ((w.scope t).vars.get? name).getD {}).run w = .done x w := by
    change Outcome.done (((w.scope t).vars.get? name).getD {}) w = _
    rw [held]
    rfl
  unfold Run.setTypedVariable
  rw [Action.run_liftM_bind_of_done found]
  dsimp only
  rw [Action.run_liftM_bind_of_done known]
  simp only [typed, other, if_false, ne_eq, not_false_eq_true, if_true]
  rfl

/-- Whoever would give a fixed variable another value is refused, unless the variable is declared
anew. -/
theorem refused {c : StorageCall} {v : Value} (fixed : w.Fixed t name type v) (supplies : c.Supplies w t name)
    (stays : ¬c.Reopens w t name) : ∃ e w', c.run w = .failed e w' := by
  cases c with
  | assign s y value strict outwards =>
    obtain ⟨rfl, found⟩ := supplies
    obtain ⟨e, run⟩ := bindIn_refused fixed found value strict
    refine ⟨e, w, ?_⟩
    change (Run.setVariable s y value strict outwards).run w = _
    unfold Run.setVariable
    rw [Action.run_get_bind]
    exact run
  | assignInBlock s y value =>
    obtain ⟨rfl, found⟩ := supplies
    obtain ⟨e, run⟩ := bindIn_refused fixed found value false
    exact ⟨e, w, run⟩
  | remove s y => exact absurd supplies id
  | declare s y type' given modifiers =>
    obtain ⟨rfl, some, found, typed⟩ := supplies
    obtain ⟨value, rfl⟩ := Option.isSome_iff_exists.mp some
    have ⟨x, held, _⟩ := fixed
    by_cases same : x.type = type'
    · have kept : modifiers.has "final" :=
        Bool.not_eq_false _ ▸ fun dropped => stays (.loosened found held same (same ▸ typed x held) dropped)
      have run := Run.run_setTypedVariable_again (.some value) modifiers found held same (same ▸ typed x held)
      have still := World.KeepsFixed.put_final held kept type v fixed
      exact ⟨_, _, run.trans (assignVariable_refused still value true)⟩
    · exact ⟨_, w, setTypedVariable_refused found held (typed x held) same (.some value) modifiers⟩

theorem not_fixed_of_loosened {value : Option Value} {modifiers : Modifiers} {x : Variable}
    (found : (Run.findBinding s name false).run w = .done (some (.held t name)) w)
    (held : (w.scope t).vars.get? name = some x) (same : x.type = type) (typed : type ≠ .untyped)
    (dropped : modifiers.has "final" = false) (h : (declare s name type value modifiers).run.Leads w w') (type' : Ty)
    (v : Value) : ¬w'.Fixed t name type' v := by
  have put := World.get?_setVars_put held { x with modifiers }
  -- The modifiers are exchanged before the value is looked at.
  have open' : (declare s name type value modifiers).run.Meets w
      (fun _ u => ∃ y, (u.scope t).vars.get? name = some y ∧ y.modifiers = modifiers)
      fun _ u => ∃ y, (u.scope t).vars.get? name = some y ∧ y.modifiers = modifiers := by
    unfold Comp.Meets
    rw [run, Run.run_setTypedVariable_again value modifiers found held same typed]
    cases value with
    | none => exact ⟨_, put, rfl⟩
    | some value =>
      refine (Run.assignVariable_beside t name value true _).mono (fun _ u h => ?_) fun _ u beside => ?_
      · rcases h with rfl | ⟨y, stored, u, hy, -, beside, rfl⟩
        · exact ⟨_, put, rfl⟩
        · cases put.symm.trans hy
          obtain ⟨proxies, same⟩ := beside.scope t
          have there : (u.scope t).vars.get? name = some { x with modifiers } := by rw [same]; exact put
          exact ⟨_, World.get?_setVars_put there _, rfl⟩
      · obtain ⟨proxies, same⟩ := beside.scope t
        exact ⟨_, by rw [same]; exact put, rfl⟩
  rintro ⟨y, hy, final, -⟩
  obtain ⟨z, hz, mods⟩ := open'.of_leads h
  cases hy.symm.trans hz
  rw [Variable.isFinal, mods, dropped] at final
  cases final

end StorageCall

/-- One world leads to another by calls that neither take a variable out of its scope nor declare it
anew. What changes no variables may happen in between. -/
inductive SparingCalls (t : ScopeId) (name : String) : World → World → Prop
  | nil (w : World) : SparingCalls t name w w
  | store {w w' w'' : World} (c : StorageCall) (h : c.run.Leads w w') (stays : ¬c.Reopens w t name)
      (keeps : ∀ s y, c = .remove s y → s ≠ t ∨ y ≠ name) (rest : SparingCalls t name w' w'') : SparingCalls t name w w''
  | clear {w w' w'' : World} (s : ScopeId) (h : (Run.clearScope s).run.Leads w w') (apart : s ≠ t)
      (rest : SparingCalls t name w' w'') : SparingCalls t name w w''
  | other {w w' w'' : World} {tier : Tier} {α : Type} (x : Action .nothing tier α) (h : x.run.Leads w w')
      (rest : SparingCalls t name w' w'') : SparingCalls t name w w''

theorem SparingCalls.keepsFixed {w w' : World} {t : ScopeId} {name : String}
    (h : SparingCalls t name w w') : w.KeepsFixed t name w' := by
  induction h with
  | nil w => exact .of_vars rfl
  | store c h stays keeps _ ih => exact .trans (StorageCall.keepsFixed h stays keeps) ih
  | @clear w _ _ s h apart _ ih =>
    have cleared := ((Run.redone_clearScope s w).mono (fun _ _ h => h.1) fun _ _ h => False.elim h).of_leads h
    exact .trans (.of_vars (congrArg Scope.vars (cleared.scope t (Ne.symm apart)))) ih
  | @other w _ _ _ _ x h _ ih => exact .trans (.of_vars (((Action.meets_calm x w).of_leads h).vars t)) ih

theorem World.Fixed.getVariable {w : World} {t : ScopeId} {name : String} {type : Ty} {v : Value}
    (fixed : w.Fixed t name type v) (first : (w.scope t).isClass = false ∨ w.importTargets t = []) (outwards : Bool) :
    (Run.getVariable t name outwards).run w = .done v w := by
  obtain ⟨x, held, -, -, value⟩ := fixed
  have known : (w.scope t).vars.contains name := by
    rw [Table.contains, held]
    rfl
  obtain ⟨rest, scopes⟩ := w.head_searched t outwards
  have found : (Run.findBinding t name outwards).run w = .done (some (.held t name)) w := by
    change (firstSome (if outwards then w.ancestry t else [t]) fun u => Run.localBindingOf u name).run w = _
    rw [scopes]
    unfold firstSome
    rw [Action.run_bind_of_done (Run.localBindingOf_own first known)]
    rfl
  rw [Run.getVariable_of_found found held, value]
  rfl

/-- Once a final variable has a value, it keeps it until it is taken out of its scope or declared
anew. A declaration that comes upon it with the same type, and does not say that it is final, takes
the protection away. -/
theorem final_variable_keeps_value {w w' : World} {t : ScopeId} {name : String} {type : Ty}
    {v : Value} (fixed : w.Fixed t name type v) (calls : SparingCalls t name w w') :
    w'.Fixed t name type v ∧
    ((w'.scope t).isClass = false ∨ w'.importTargets t = [] →
      ∀ outwards, (Run.getVariable t name outwards).run w' = .done v w') ∧
    (∀ c : StorageCall, c.Supplies w' t name → ¬c.Reopens w' t name →
      ∃ e w'', c.run w' = .failed e w'' ∧ w''.Fixed t name type v) ∧
    ∀ s value modifiers, (Run.findBinding s name false).run w' = .done (some (.held t name)) w' → type ≠ .untyped →
      modifiers.has "final" = false → ∀ w'', (StorageCall.declare s name type value modifiers).run.Leads w' w'' →
      ∀ type' v', ¬w''.Fixed t name type' v' := by
  have still := calls.keepsFixed type v fixed
  refine ⟨still, fun first => still.getVariable first, fun c supplies stays => ?_, ?_⟩
  · obtain ⟨e, w'', run⟩ := StorageCall.refused still supplies stays
    have keeps : ∀ s y, c = .remove s y → s ≠ t ∨ y ≠ name := by
      rintro s y rfl
      exact absurd supplies id
    exact ⟨e, w'', run, StorageCall.keepsFixed (.failed e run) stays keeps type v still⟩
  · obtain ⟨x, held, -, same, -⟩ := still
    intro s value modifiers found typed dropped w'' h
    exact StorageCall.not_fixed_of_loosened found held same typed dropped h

/-- A final variable of a scope is read and assigned to in a block inside it. The assignment is
refused before the block is opened and in it. -/
theorem final_variable_keeps_value_in_block :
    let w : World := { World.bare with
      scopes := #[{ vars := ⟨[("x", { type := .prim .int, value := some (.ofInt 1), modifiers := ⟨["final"]⟩ })]⟩ }] }
    let assigned : StorageCall := .assign 0 "x" (.ofInt 2) false true
    let inside : StorageCall := .assign 1 "x" (.ofInt 2) false true
    w.Fixed 0 "x" (.prim .int) (.ofInt 1) ∧
      ∃ w', SparingCalls 0 "x" w w' ∧ (assigned.run w).isFailed ∧ (Run.getVariable 0 "x" true).run
        w' = .done (.ofInt 1) w' ∧
        inside.Supplies w' 0 "x" ∧ ∃ e w'', inside.run w' = .failed e w'' ∧ w''.Fixed 0 "x" (.prim .int) (.ofInt 1) := by
  intro w assigned inside
  have fixed : w.Fixed 0 "x" (.prim .int) (.ofInt 1) := ⟨_, rfl, by decide, rfl, rfl⟩
  have first : (assigned.run w).state? = some w := rfl
  obtain ⟨w', opened⟩ : ∃ w', (Run.newBlock 0 none).run w = .done 1 w' := ⟨_, rfl⟩
  have stays (u : World) (s : ScopeId) : ¬(StorageCall.assign s "x" (.ofInt 2) false true).Reopens u 0 "x" := nofun
  have calls : SparingCalls 0 "x" w w' :=
    .store assigned (Comp.leads_of_state? first) (stays w 0) nofun <|
    .other (Run.newBlock 0 none) (.done 1 opened) (.nil w')
  have supplies : inside.Supplies w' 0 "x" := by
    cases opened
    exact ⟨rfl, rfl⟩
  have plain : (w'.scope 0).isClass = false := by
    cases opened
    rfl
  obtain ⟨-, read, refused, -⟩ := final_variable_keeps_value fixed calls
  exact ⟨fixed, w', calls, rfl, read (.inl plain) true, supplies, refused inside supplies (stays w' 1)⟩

/-- `final int x = 1` and then `int x = 2`, both in one scope: the variable has the second value. -/
theorem redeclaration_can_replace_final :
    ∃ w w', (StorageCall.declare 0 "x" (.prim .int) (some (.ofInt 1)) ⟨["final"]⟩).run .bare = .done () w ∧
      w.Fixed 0 "x" (.prim .int) (.ofInt 1) ∧
      (StorageCall.declare 0 "x" (.prim .int) (some (.ofInt 2)) {}).run w = .done () w' ∧
      (Run.getVariable 0 "x" true).run w' = .done (.ofInt 2) w' :=
  ⟨_, _, rfl, ⟨_, rfl, by decide, rfl, rfl⟩, rfl, rfl⟩

end ScriptCore
