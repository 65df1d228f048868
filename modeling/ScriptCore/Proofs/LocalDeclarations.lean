import ScriptCore.Proofs.ConversionCases
import ScriptCore.Proofs.FinalVariables
import ScriptCore.Proofs.ProxyReuse
import ScriptCore.Proofs.StorageCalls

namespace ScriptCore

namespace World

variable {w w' w'' : World}

/-- The change from one world to another touches no object or class that was there, no attribute of
a class, and neither settings nor registries. -/
structure SparesHost (w w' : World) : Prop extends w.Spares w' where
  known : w.classes.size ≤ w'.classes.size
  classes : ∀ n < w.classes.size, w'.made n = w.made n
  attributes : w'.assigned = w.assigned
  settings : w'.settings = w.settings
  registries : w'.registries = w.registries

namespace SparesHost

theorem of_classes (objects : w.Spares w') (beside : w'.settings = w.settings ∧ w'.registries = w.registries)
    (classes : w'.classes = w.classes ∧ w'.assigned = w.assigned) : w.SparesHost w' where
  toSpares := objects
  known := Nat.le_of_eq (congrArg Array.size classes.1).symm
  classes n _ := by rw [made, classes.1]; rfl
  attributes := classes.2
  settings := beside.1
  registries := beside.2

theorem refl (w : World) : w.SparesHost w := .of_classes (.of_eq rfl) ⟨rfl, rfl⟩ ⟨rfl, rfl⟩

theorem trans (h : w.SparesHost w') (k : w'.SparesHost w'') : w.SparesHost w'' where
  toSpares := h.toSpares.trans k.toSpares
  known := Nat.le_trans h.known k.known
  classes n hn := (k.classes n (Nat.lt_of_lt_of_le hn h.known)).trans (h.classes n hn)
  attributes := k.attributes.trans h.attributes
  settings := k.settings.trans h.settings
  registries := k.registries.trans h.registries

theorem pushClass (w : World) (c : MadeClass) : w.SparesHost { w with classes := w.classes.push c } where
  toSpares := .of_eq rfl
  known := by simp
  classes n hn := by simp [made, Array.getElem?_push, Nat.ne_of_lt hn]
  attributes := rfl
  settings := rfl
  registries := rfl

theorem setVars (h : w.SparesHost w') (t : ScopeId) (f : Table Variable → Table Variable) : w.SparesHost (w'.setVars t f) :=
  h.trans (.of_classes (.of_eq rfl) ⟨rfl, rfl⟩ ⟨rfl, rfl⟩)

end SparesHost

end World

namespace Run

variable {w w' : World} {s : ScopeId} {name : String} {v r : Value} {t : Ty} {mode : Conversion}

def KeepsHost {may : May} {tier : Tier} {α : Type} (x : Action may tier α) : Prop :=
  ∀ w, x.run.Meets w (fun _ w' => w.SparesHost w') fun _ _ => True

namespace KeepsHost

variable {α β : Type} {tier : Tier}

theorem of_leavesClasses {x : Action .nothing tier α} (adds : OnlyAdds x) (leaves : LeavesClasses x)
    : KeepsHost x := fun w =>
  ((adds w).and (leaves w)).impDone fun _ _ h => .of_classes h.1.toSpares ⟨h.1.settings, h.1.registries⟩ h.2

theorem bind {x : Action .nothing tier α} {f : α → Action .nothing tier β} (hx : KeepsHost x)
    (hf : ∀ a, KeepsHost (f a)) : KeepsHost (x >>= f) := by
  intro w
  simp only [Action.meets_bind]
  refine (hx w).imp fun a w' h => ?_
  exact (hf a w').imp fun _ _ k => h.trans k

theorem pure (a : α) : KeepsHost (Pure.pure a : Action .nothing tier α) := World.SparesHost.refl

theorem read (f : World → α) : KeepsHost (Run.read f) := World.SparesHost.refl

theorem raise (e : HostError) : KeepsHost (Run.raise e : Plain α) := .of_leavesClasses (.raise e) (.raise e)

theorem make (spec : ClassSpec) : KeepsHost spec.make := by
  refine .bind (.read _) fun built => ?_
  cases built with
  | error m => exact .pure _
  | ok c => exact .bind (fun w => .pushClass w _) fun _ => .pure _

theorem proxyClass (classes : List ClassRef) : KeepsHost (Run.proxyClass classes) := by
  have member (members : Table Value) (name : String) (g : Generated) : KeepsHost (Run.addMember members name g) :=
    .of_leavesClasses (.addMember members name g) (.addMember members name g)
  refine .bind (.read _) fun known => ?_
  split
  · exact .pure _
  · refine .bind (.read _) fun answered => .bind (.of_leavesClasses (.addAnswers _ _) (.addAnswers _ _)) fun _ =>
      .bind (member _ _ _) fun _ => .bind (member _ _ _) fun _ => .bind (member _ _ _) fun _ =>
        .bind (member _ _ _) fun _ =>
      .bind (.read _) fun _ => .bind (.make _) fun made => ?_
    split
    · exact .raise _
    · exact .pure _

theorem proxyOf (s : ScopeId) (classes : List ClassRef) : KeepsHost (Run.proxyOf s classes) := by
  unfold Run.proxyOf
  split
  · exact .raise _
  refine .bind (.proxyClass classes) fun c => .bind (.read _) fun known => ?_
  split
  · exact .pure _
  · intro w
    simp only [Action.meets_bind]
    refine ((OnlyAdds.newInstance c w).and (LeavesClasses.newInstance c w)).impDone ?_
    rintro v w₁ ⟨⟨added, new⟩, leaves⟩
    have host : w.SparesHost w₁ := .of_classes added.toSpares ⟨added.settings, added.registries⟩ leaves
    split
    · next i =>
      simp only [Action.meets_bind, meets_updateObj, meets_updateScope]
      have targeted : w.Adds (w₁.modifyObj i fun o => { o with target := some s }) :=
        added.modifyObj (new i rfl) fun _ => rfl
      exact { host with toSpares := targeted.toSpares.trans (.of_eq rfl) }
    · exact host

end KeepsHost

theorem sparesHost_cast (h : (cast v t mode).run w = .done r w') : w.SparesHost w' := by
  cases cast_done_iff.mp h with
  | presented _ _ _ _ made => exact (KeepsHost.proxyOf _ _ w).of_done made
  | _ => exact .refl _

theorem sparesHost_declaredValue {type : Ty} {value held : Option Value} {modifiers : Modifiers}
    (h : (declaredValue type value modifiers).run w = .done held w') : w.SparesHost w' := by
  unfold declaredValue at h
  split at h
  · cases h
    exact .refl w
  · obtain ⟨stored, v, run, rest⟩ := Comp.bind_done_iff.mp h
    cases rest
    exact sparesHost_cast run

theorem declaredAgain_done {t : ScopeId} {x : Variable} {value : Value} {modifiers : Modifiers}
    (held : (w.scope t).vars.get? name = some x)
    (h : (assignVariable t name value true).run
    (w.setVars t fun vars => vars.put name { x with modifiers }) = .done () w') :
    ∃ stored, w.WroteOnly w' t name { x with value := some stored, modifiers } ∧ w.SparesHost w' := by
  have inside := World.inside_of_held held
  have put := World.wroteOnly_put (.refl w) inside name { x with modifiers }
  obtain ⟨-, stored, v, run, rfl⟩ := assignVariable_put put.written h
  have beside := ((OnlyAdds.cast value x.type .cast _).of_done run).toBeside
  exact ⟨stored, put.trans (World.wroteOnly_put beside (World.inside_of_held put.written) name _),
    (((World.SparesHost.refl w).setVars t _).trans (sparesHost_cast run)).setVars t _⟩

end Run

/-- Looking for the name, the scope comes upon a typed variable of another scope. -/
structure World.Borrows (w : World) (s : ScopeId) (name : String) (t : ScopeId) (x : Variable) : Prop where
  other : t ≠ s
  found : (Run.findBinding s name false).run w = .done (some (.held t name)) w
  held : (w.scope t).vars.get? name = some x
  typed : x.type ≠ .untyped

/-- A declaration that succeeds writes one variable, which has the declared type and modifiers then,
and changes nothing else. It is a variable of the scope itself exactly if the scope borrows no typed
one of the name; if it does, it is that one, which had the declared type before. -/
theorem declaration_writes_one_variable {w w' : World} {s : ScopeId} {name : String} {type : Ty}
    {value : Option Value} {modifiers : Modifiers} (inside : s < w.scopes.size)
    (declared : (Run.setTypedVariable s name type value modifiers).run w = .done () w') :
    ∃ t x, w.WroteOnly w' t name x ∧ x.type = type ∧ x.modifiers = modifiers ∧ w.SparesHost w' ∧
      (t = s ↔ ∀ u y, ¬w.Borrows s name u y) ∧ ∀ u y, w.Borrows s name u y → t = u ∧ y.type = type := by
  suffices h : (Run.setTypedVariable s name type value modifiers).run.Meets w (fun _ w' => ∃ t x, w.WroteOnly w' t name x ∧
      x.type = type ∧ x.modifiers = modifiers ∧ w.SparesHost w' ∧ (t = s ↔ ∀ u y, ¬w.Borrows s name u y) ∧
      ∀ u y, w.Borrows s name u y → t = u ∧ y.type = type) fun _ _ => True from h.of_done declared
  refine Run.meets_setTypedVariable (fun _ _ _ => trivial) (fun _ => trivial) (fun r found loose => ?_)
    fun t x found held same typed => ?_
  · -- The search has come upon no typed variable.
    have own (u y) (h : w.Borrows s name u y) : False := by
      cases found.symm.trans h.found
      exact h.typed (loose u y rfl h.held)
    refine (Comp.meets_self _ w).mono (fun _ w' run => ?_) fun _ _ _ => trivial
    obtain ⟨value, v, given, rfl, wrote⟩ := Run.declareVariable_done inside run
    have host := (Run.sparesHost_declaredValue given).setVars s fun vars => vars.put name { type, value, modifiers }
    exact ⟨s, _, wrote, rfl, rfl, { host with }, iff_of_true rfl own, fun u y h => (own u y h).elim⟩
  · have there : (t = s ↔ ∀ u y, ¬w.Borrows s name u y) ∧ ∀ u y, w.Borrows s name u y → t = u ∧ y.type = type := by
      have only (u y) (h : w.Borrows s name u y) : t = u ∧ y.type = type := by
        cases found.symm.trans h.found
        cases held.symm.trans h.held
        exact ⟨rfl, same⟩
      refine ⟨⟨fun here u y h => h.other ((only u y h).1.symm.trans here), fun none => ?_⟩, only⟩
      exact Decidable.byContradiction fun other => none t x ⟨other, found, held, same ▸ typed⟩
    refine ⟨fun _ => ⟨t, _, World.wroteOnly_put (.refl w) (World.inside_of_held held) name _, same, rfl,
      (World.SparesHost.refl w).setVars t _, there⟩, fun v _ => (Comp.meets_self _ _).mono
        (fun _ w' run => ?_) fun _ _ _ => trivial⟩
    obtain ⟨stored, wrote, host⟩ := Run.declaredAgain_done held run
    exact ⟨t, _, wrote, same, rfl, host, there⟩

def World.importingInteger : World :=
  { World.bare with
    scopes := #[{ importedObjects := [.closure 1] },
      { parent := some 0, vars := ⟨[("x", { type := .prim .int, value := some (.boxed (.int 1) 0) })]⟩ }] }

/-- The scope that imports an integer variable `x` can declare a variable of another name, which
becomes its own. Declaring `x` again changes the imported variable instead. -/
theorem declaration_writes_one_variable_importing :
    (∃ w' x, (Run.setTypedVariable 0 "y" (.prim .int) (some (.ofInt 5)) {}).run .importingInteger = .done () w' ∧
        World.importingInteger.WroteOnly w' 0 "y" x ∧ x.type = .prim .int) ∧
      ∃ w' x, (Run.setTypedVariable 0 "x" (.prim .int) (some (.ofInt 2)) {}).run .importingInteger = .done () w' ∧
        World.importingInteger.WroteOnly w' 1 "x" x ∧ x.type = .prim .int := by
  have inside : 0 < World.importingInteger.scopes.size := by decide
  obtain ⟨⟨⟩, w₁, first⟩ := Outcome.exists_of_isDone (o :=
    (Run.setTypedVariable 0 "y" (.prim .int) (some (.ofInt 5)) {}).run
    .importingInteger) rfl
  obtain ⟨⟨⟩, w₂, second⟩ := Outcome.exists_of_isDone (o :=
    (Run.setTypedVariable 0 "x" (.prim .int) (some (.ofInt 2)) {}).run
    .importingInteger) rfl
  obtain ⟨t, x, wrote, type, -, -, own, -⟩ := declaration_writes_one_variable inside first
  obtain ⟨u, y, again, type', -, -, -, there⟩ := declaration_writes_one_variable inside second
  have here : t = 0 := own.mpr fun u y h => by cases h.found
  obtain ⟨rfl, -⟩ := there 1 _ ⟨by decide, rfl, rfl, by decide⟩
  exact ⟨⟨w₁, x, first, here ▸ wrote, type⟩, w₂, y, second, again, type'⟩

/-- A declaration can change a variable of another scope, and leave the scope without one of the
name. -/
theorem declaration_can_change_imported_variable :
    ¬∀ (w w' : World) (s : ScopeId) (name : String) (type : Ty) (value : Option Value) (modifiers : Modifiers),
      s < w.scopes.size → (Run.setTypedVariable s name type value modifiers).run w = .done () w' →
        (∀ t ≠ s, (w'.scope t).vars = (w.scope t).vars) ∧ ∃ x, (w'.scope s).vars.get? name = some x ∧ x.type = type := by
  intro always
  obtain ⟨⟨⟩, w', run⟩ := Outcome.exists_of_isDone (o := (Run.setTypedVariable 0 "x" (.prim .int) (some (.ofInt 2)) {}).run
    .importingInteger) rfl
  obtain ⟨-, x, held, -⟩ := always _ w' 0 "x" _ _ _ (by decide) run
  cases run
  cases held

end ScriptCore
