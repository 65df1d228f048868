import ScriptCore.Proofs.FinalVariables
import ScriptCore.Proofs.StorageCalls

namespace ScriptCore

namespace Table

variable {α : Type}

theorem update_of_lookup {l : List (String × α)} {k : String} {v : α} (h : lookup l k = some v) : update l k v = l := by
  induction l with
  | nil => cases h
  | cons e rest ih =>
    obtain ⟨n, x⟩ := e
    by_cases here : n = k
    · simp_all [lookup, update]
    · simp_all [lookup, update]

theorem put_of_get? {t : Table α} {k : String} {v : α} (h : t.get? k = some v) : t.put k v = t :=
  congrArg Table.mk (update_of_lookup h)

end Table

namespace Run

variable {may : May} {tier : Tier} {α β : Type}

def FailsClean (x : Action may tier α) : Prop := ∀ w, x.run.Meets w (fun _ _ => True) fun _ w' => w.Adds w'

namespace FailsClean

theorem fail {e : Failure} (he : tier.Makes e) : FailsClean (Action.fail e he : Action may tier α) := World.Adds.refl

theorem lift {may' : May} {tier' : Tier} [May.Within may may'] [Tier.Within tier tier']
    {x : Action may tier α} (hx : FailsClean x) : FailsClean (liftM x : Action may' tier' α) := hx

theorem after {tier' : Tier} [May.Within .nothing may] [Tier.Within tier' tier] {x : Action .nothing tier' α}
    {f : α → Action may tier β} (hx : OnlyAdds x) (hf : ∀ a, FailsClean (f a)) :
    FailsClean ((liftM x : Action may tier α) >>= f) := by
  intro w
  simp only [Action.meets_bind]
  refine Comp.Meets.mono (hx w) (fun a w' added => ?_) fun _ _ h => h
  exact (hf a w').mono (fun _ _ _ => trivial) fun _ _ h => added.trans h

theorem of_setsField {target : Value} {field : String} {x : Value} {act : Action may tier α}
    (h : SetsField target field x act) : FailsClean act := fun w => (h w).imp fun _ _ _ => trivial

variable (s : ScopeId) (name : String)

theorem assignVariable (value : Value) (declaring : Bool) :
    FailsClean (Run.assignVariable s name value declaring) := adds_assignVariable s name value declaring

theorem declareVariable (type : Ty) (value : Option Value) (modifiers : Modifiers) :
    FailsClean (Run.declareVariable s name type value modifiers) :=
  .after (.declaredValue type value modifiers) fun _ _ => trivial

theorem unsetVariable : FailsClean (Run.unsetVariable s name) := by
  refine .after (.read _) fun held => ?_
  split <;> exact fun _ => trivial

theorem bindIn (value : Value) (strict outwards : Bool) :
    FailsClean (Run.bindIn s name value strict outwards) := by
  unfold Run.bindIn
  split
  · exact fun _ => .refl _
  refine .after (.findBinding s name outwards) fun r => ?_
  cases r with
  | none =>
    dsimp only
    split
    · exact .lift (.fail _)
    · exact .lift (.declareVariable _ _ _ _ _)
  | some b =>
    cases b with
    | held t n => exact .lift (.assignVariable t n _ false)
    | field target n => exact .of_setsField (.writeField target n _)

theorem setVariable (value : Value) (strict outwards : Bool) :
    FailsClean (Run.setVariable s name value strict outwards) := .after (.read _) fun _ => .bindIn _ name value strict _

end FailsClean

end Run

namespace StorageCall

variable {w w' : World} {t : ScopeId} {name : String} {x y : Variable} {c : StorageCall} {e : Failure}

/-- The call declares a variable again that is there with the same type, but with other modifiers:
`x` becomes `y`. -/
inductive Remodifies (w : World) (t : ScopeId) (name : String) (x : Variable) : Variable → StorageCall → Prop
  | again {s : ScopeId} {type : Ty} {value : Option Value} {modifiers : Modifiers}
      (found : (Run.findBinding s name false).run w = .done (some (.held t name)) w)
      (held : (w.scope t).vars.get? name = some x) (same : x.type = type) (typed : type ≠ .untyped)
      (other : x.modifiers ≠ modifiers) : Remodifies w t name x { x with modifiers } (.declare s name type value modifiers)

/-- A declaration that comes upon a variable of its type and fails has given it the modifiers. -/
theorem adds_of_again {s : ScopeId} {type : Ty} {value : Option Value} {modifiers : Modifiers}
    (failed : (declare s name type value modifiers).run w = .failed e w')
    (found : (Run.findBinding s name false).run w = .done (some (.held t name)) w)
    (held : (w.scope t).vars.get? name = some x) (same : x.type = type) (typed : type ≠ .untyped) :
    (w.setVars t fun vars => vars.put name { x with modifiers }).Adds w' := by
  rw [run, Run.run_setTypedVariable_again value modifiers found held same typed] at failed
  cases value with
  | none => cases failed
  | some v => exact (Run.FailsClean.assignVariable t name v true _).of_failed failed

theorem adds_of_new {s : ScopeId} {type : Ty} {value : Option Value} {modifiers : Modifiers}
    (failed : (declare s name type value modifiers).run w = .failed e w')
    (new : ∀ t x, (Run.findBinding s name false).run w = .done (some (.held t name)) w →
      (w.scope t).vars.get? name = some x → x.type = type → type = .untyped) : w.Adds w' := by
  suffices h : (Run.setTypedVariable s name type value modifiers).run.Meets w (fun _ _ => True) fun _ w' => w.Adds w' from
    h.of_failed failed
  exact Run.meets_setTypedVariable (fun _ _ h => (Run.OnlyAdds.findBinding s name false w).of_failed h) (fun _ => .refl w)
    (fun _ _ _ => Run.FailsClean.declareVariable s name type value modifiers w)
    fun t x found held same typed => absurd (new t x found held same) typed

theorem adds_put_same (held : (w.scope t).vars.get? name = some x) : w.Adds (w.setVars t fun vars => vars.put name x) := by
  refine ⟨⟨rfl, rfl, rfl, by simp [World.setVars, World.modifyScope], fun u => ⟨(w.scope u).proxies, ?_⟩⟩, .of_eq rfl,
    (World.Adds.refl w).empty⟩
  rw [World.scope_setVars]
  split
  · next here =>
    obtain ⟨rfl, -⟩ := here
    rw [Table.put_of_get? held]
  · rfl

theorem adds_of_failed (failed : c.run w = .failed e w')
    (steady : ¬∃ t name x y, c.Remodifies w t name x y) : w.Adds w' := by
  cases c with
  | assign s n value strict outwards => exact (Run.FailsClean.setVariable s n value strict outwards w).of_failed failed
  | assignInBlock s n value => exact (Run.FailsClean.bindIn s n value false false w).of_failed failed
  | remove s n => exact (Run.FailsClean.unsetVariable s n w).of_failed failed
  | declare s n type value modifiers =>
    by_cases again : ∃ t x, (Run.findBinding s n false).run w = .done (some (.held t n)) w ∧
        (w.scope t).vars.get? n = some x ∧ x.type = type ∧ type ≠ .untyped
    · obtain ⟨t, x, found, held, same, typed⟩ := again
      have kept : x.modifiers = modifiers :=
        Decidable.byContradiction fun other => steady ⟨t, n, x, _, .again found held same typed other⟩
      have put := adds_of_again failed found held same typed
      rw [← kept] at put
      exact (adds_put_same held).trans put
    · exact adds_of_new failed fun t x found held same => Decidable.byContradiction fun typed =>
        again ⟨t, x, found, held, same, typed⟩

theorem vars_of_adds (h : w.Adds w') (s : ScopeId) : (w'.scope s).vars = (w.scope s).vars := by
  obtain ⟨proxies, same⟩ := h.scope s
  rw [same]

end StorageCall

/-- A call that fails leaves all variables of all scopes with their types, values and modifiers,
unless it declares one of them again with other modifiers; then these have been exchanged, and
nothing else. -/
theorem failed_storage_keeps_variables {c : StorageCall} {w w' : World} {e : Failure} (failed : c.run w = .failed e w') :
    ((∀ s, (w'.scope s).vars = (w.scope s).vars) ↔ ¬∃ t name x y, c.Remodifies w t name x y) ∧
    ((¬∃ t name x y, c.Remodifies w t name x y) → w.Adds w') ∧
    ∀ t name x y, c.Remodifies w t name x y → (w.setVars t fun vars => vars.put name y).Adds w' := by
  have exchanged (t name x y) (h : c.Remodifies w t name x y) : (w.setVars t fun vars => vars.put name y).Adds w' := by
    cases h with
    | again found held same typed other => exact StorageCall.adds_of_again failed found held same typed
  refine ⟨⟨?_, fun steady => StorageCall.vars_of_adds (StorageCall.adds_of_failed failed steady)⟩,
    StorageCall.adds_of_failed failed, exchanged⟩
  rintro kept ⟨t, name, x, y, h⟩
  have put := StorageCall.vars_of_adds (exchanged t name x y h) t
  cases h with
  | @again s type value modifiers found held same typed other =>
    have new := World.get?_setVars_put held { x with modifiers }
    rw [← put, kept t, held] at new
    exact other (congrArg Variable.modifiers (Option.some.inj new))

def World.holdingTransient : World :=
  .setVars .bare 0 fun vars => vars.put "x" { type := .prim .int, value := some (.ofInt 1), modifiers := ⟨["transient"]⟩ }

/-- An assignment of a text to the variable fails and leaves it as it is; a declaration without
modifiers fails as well, but takes the modifier away. -/
theorem failed_storage_keeps_variables_transient :
    let assigned : StorageCall := .assign 0 "x" (.ofString "abc") false true
    let again : StorageCall := .declare 0 "x" (.prim .int) (some (.ofString "abc")) {}
    (∃ e w', assigned.run .holdingTransient = .failed e w' ∧ ∀ s, (w'.scope s).vars =
      (World.holdingTransient.scope s).vars) ∧
      ∃ e w', again.run .holdingTransient = .failed e w' ∧
        ¬∀ s, (w'.scope s).vars = (World.holdingTransient.scope s).vars := by
  intro assigned again
  have assigning (t name x y) : ¬assigned.Remodifies .holdingTransient t name x y := by
    unfold assigned
    rintro ⟨⟩
  have first : (assigned.run .holdingTransient).isFailed := by rfl
  have second : (again.run .holdingTransient).isFailed := by rfl
  obtain ⟨e, u, first⟩ := Outcome.exists_of_isFailed first
  obtain ⟨f, v, second⟩ := Outcome.exists_of_isFailed second
  refine ⟨⟨e, u, first, (failed_storage_keeps_variables first).1.mpr fun ⟨t, name, x, y, h⟩ =>
    assigning t name x y h⟩, f, v,
    second, fun kept => ?_⟩
  exact (failed_storage_keeps_variables second).1.mp kept ⟨0, "x", _, _, .again rfl rfl rfl (by decide) (by decide)⟩

/-- A declaration that fails can change the modifiers of a variable, in a scope that was made by
declarations. -/
theorem failed_declaration_can_change_modifiers :
    ¬∀ (c : StorageCall) (w w' : World) (e : Failure), StorageCalls .bare w → c.run w =
      .failed e w' → ∀ s, (w'.scope s).vars = (w.scope s).vars := by
  intro always
  let declared : StorageCall := .declare 0 "x" (.prim .int) (some (.ofInt 1)) ⟨["transient"]⟩
  let again : StorageCall := .declare 0 "x" (.prim .int) (some (.ofString "abc")) {}
  let modifiers (w : World) : Option Modifiers := ((w.scope 0).vars.get? "x").map Variable.modifiers
  have run : ((declared.run .bare).state?.bind fun w =>
      (again.run w).state?.map fun w' => ((again.run w).isFailed, modifiers w, modifiers w')) =
        some (true, some ⟨["transient"]⟩, some {}) := by rfl
  obtain ⟨w, hw, run⟩ := Option.bind_eq_some_iff.mp run
  obtain ⟨w', hw', run⟩ := Option.map_eq_some_iff.mp run
  simp only [Prod.mk.injEq] at run
  obtain ⟨fails, before, after⟩ := run
  obtain ⟨e, u, failed⟩ := Outcome.exists_of_isFailed fails
  rw [failed] at hw'
  cases hw'
  -- The first declaration comes upon nothing.
  have kept : ¬declared.Abandons .bare := by
    rintro ⟨t, x, found, -⟩
    have unknown : (Run.findBinding 0 "x" false).run .bare = .done none .bare := rfl
    rw [unknown] at found
    cases found
  have same := always again w w' e (.cons declared (Comp.leads_of_state? hw) id kept (.nil w)) failed 0
  have : modifiers w' = modifiers w := congrArg (fun vars => (vars.get? "x").map Variable.modifiers) same
  rw [before, after] at this
  cases this

end ScriptCore
