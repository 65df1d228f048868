import ScriptCore.Proofs.SettledNames
import ScriptCore.Proofs.StorageCalls
import ScriptCore.Proofs.StoreRelations

namespace ScriptCore

namespace World

variable {w w' w'' : World} {s t : ScopeId} {name : String}

def CallsThrough (w : World) (s : ScopeId) (name : String) : Prop :=
  ∃ e ∈ (w.memory s).resolvers.entries, e.2.staticClass.isSome ∧ (Path.through e.1).headD "" = name

instance : Decidable (w.CallsThrough s name) := inferInstanceAs (Decidable (∃ e ∈ _, _))

/-- A scope remembers what it did, and would find it again. -/
structure Keeps (w w' : World) (s : ScopeId) : Prop where
  memory : w'.memory s = w.memory s
  around : w.SameAround w' s
  registry : (w.registryAt (w.registryId s)).Extends (w'.registryAt (w.registryId s))
  unbound : ∀ name, w.CallsThrough s name → w.Unbound s name → w'.Unbound s name

theorem Settled.of_keeps (hw : w.Settled) (registry : ∀ s, (w'.scope s).registry.getD 0 < w'.registries.size)
    (h : ∀ s, (w'.memory s).IsBlank ∨ w.Keeps w' s) : w'.Settled := by
  refine ⟨registry, fun s => ?_⟩
  rcases h s with blank | keeps
  · exact .of_isBlank blank
  · rw [keeps.memory]
    refine (hw.backs s).of_same keeps.around keeps.registry fun path r held static free => ?_
    exact keeps.unbound _ ⟨(path, r), Table.mem_of_lookup held, static, rfl⟩ free

/-- Names go on to mean what they did, but that one name may have come to stand for a variable of a
scope. -/
structure Stored (t : ScopeId) (name : String) (w w' : World) : Prop where
  registries : w'.registries = w.registries
  ground : ∀ s, (w.scope s).SameGround (w'.scope s)
  imports : ∀ s, w'.importTargets s = w.importTargets s
  memory : ∀ s, w'.memory s = w.memory s ∨ (w'.memory s).IsBlank
  vars : ∀ s x, (w'.scope s).vars.contains x →
    (w.scope s).vars.contains x ∨ s = t ∧ x = name ∧ (w'.memory t).IsBlank

namespace Stored

theorem of_scope (hr : w'.registries = w.registries) (hm : w'.memories = w.memories)
    (ground : ∀ s, (w.scope s).SameGround (w'.scope s)) (imports : ∀ s, w'.importTargets s = w.importTargets s)
    (vars : ∀ s x, (w'.scope s).vars.contains x → (w.scope s).vars.contains x) : Stored t name w w' where
  registries := hr
  ground := ground
  imports := imports
  memory s := .inl (by rw [World.memory, World.memory, hm])
  vars s x hx := .inl (vars s x hx)

theorem of_eq (hs : w'.scopes = w.scopes) (hr : w'.registries = w.registries)
    (hm : w'.memories = w.memories) : Stored t name w w' := by
  have scope (s : ScopeId) : w'.scope s = w.scope s := by rw [World.scope, World.scope, hs]
  refine .of_scope hr hm (fun s => ?_) (fun s => ?_) fun s x hx => ?_
  · rw [scope]
    exact .refl _
  · rw [importTargets, importTargets, scope]
  · exact scope s ▸ hx

theorem refl (w : World) : Stored t name w w := .of_eq rfl rfl rfl

theorem trans (h : Stored t name w w') (k : Stored t name w' w'') : Stored t name w w'' where
  registries := k.registries.trans h.registries
  ground s := (h.ground s).trans (k.ground s)
  imports s := (k.imports s).trans (h.imports s)
  memory s := by
    rcases k.memory s with same | blank
    · rw [same]
      exact h.memory s
    · exact .inr blank
  vars s x hx := by
    rcases k.vars s x hx with before | new
    · rcases h.vars s x before with before | ⟨hs, hx, blank⟩
      · exact .inl before
      · refine .inr ⟨hs, hx, ?_⟩
        rcases k.memory t with same | blank'
        · exact same ▸ blank
        · exact blank'
    · exact .inr new

theorem of_beside (h : w.Beside w') : Stored t name w w' := by
  refine .of_scope h.registries h.memories (fun s => ?_) (fun s => ?_) fun s x hx => ?_
  · obtain ⟨p, hp⟩ := h.scope s
    rw [hp]
    exact ⟨rfl, rfl, rfl, rfl, rfl⟩
  · obtain ⟨p, hp⟩ := h.scope s
    rw [importTargets, importTargets, hp]
  · obtain ⟨p, hp⟩ := h.scope s
    rw [hp] at hx
    exact hx

theorem modifyScope (s : ScopeId) {f : Scope → Scope} (ground : ∀ x : Scope, x.SameGround (f x))
    (imports : ∀ x : Scope, (f x).importedObjects = x.importedObjects ∧ (f x).importedStatic = x.importedStatic)
    (vars : ∀ x, ((f (w.scope s)).vars.contains x → (w.scope s).vars.contains x)) :
    Stored t name w (w.modifyScope s f) := by
  refine .of_scope rfl rfl (fun u => ?_) (fun u => ?_) fun u x hx => ?_
  · rw [scope_modifyScope]
    split
    · exact ground _
    · exact .refl _
  · rw [importTargets, importTargets, scope_modifyScope]
    split
    · rw [(imports _).1, (imports _).2]
    · rfl
  · rw [scope_modifyScope] at hx
    split at hx
    · next h =>
      obtain ⟨rfl, -⟩ := h
      exact vars x hx
    · exact hx

theorem setVars (s : ScopeId) {f : Table Variable → Table Variable}
    (vars : ∀ x, (f (w.scope s).vars).contains x → (w.scope s).vars.contains x) : Stored t name w (w.setVars s f) :=
  .modifyScope s (fun _ => ⟨rfl, rfl, rfl, rfl, rfl⟩) (fun _ => ⟨rfl, rfl⟩) vars

theorem put (t : ScopeId) (name : String) (x : Variable) :
    Stored t name w ((w.setVars t fun vars => vars.put name x).forgetting t) where
  registries := rfl
  ground s := by
    rw [scope_forgetting, scope_setVars]
    split
    · exact ⟨rfl, rfl, rfl, rfl, rfl⟩
    · exact .refl _
  imports s := by
    rw [importTargets, importTargets, scope_forgetting, scope_setVars]
    split <;> rfl
  memory := memory_forgetting _ t
  vars s y hy := by
    rw [scope_forgetting, scope_setVars] at hy
    split at hy
    · next h =>
      obtain ⟨rfl, -⟩ := h
      by_cases same : name = y
      · exact .inr ⟨rfl, same.symm, isBlank_forgetting _ t⟩
      · left
        simpa [Table.contains, Table.get?_put_ne _ _ same] using hy
    · exact .inl hy

end Stored

theorem Settled.stored (hw : w.Settled) (h : Stored t name w w')
    (heard : (w.scope t).vars.contains name = false → (w'.scope t).vars.contains name →
      ∀ s, s ≠ t → t ∈ w.ancestry s → ¬w.CallsThrough s name) : w'.Settled := by
  have around (s : ScopeId) : w.SameAround w' s := fun u _ => h.ground u
  refine hw.of_keeps (fun s => ?_) fun s => ?_
  · rw [(h.ground s).registry, h.registries]
    exact hw.registry s
  rcases h.memory s with same | blank
  · by_cases forgot : (w'.memory s).IsBlank
    · exact .inl forgot
    refine .inr ⟨same, around s, ?_, fun x calls free u hu => ?_⟩
    · rw [registryAt, registryAt, h.registries]
      exact .refl _
    · rw [(around s).ancestry] at hu
      refine ⟨(h.imports u).trans (free u hu).1, ?_⟩
      cases bound : (w'.scope u).vars.contains x with
      | false => rfl
      | true =>
        rcases h.vars u x bound with before | ⟨rfl, rfl, gone⟩
        · rw [(free u hu).2] at before
          cases before
        · have apart : s ≠ u := fun same => forgot (same ▸ gone)
          exact absurd calls (heard (free u hu).2 bound s apart hu)
  · exact .inl blank

theorem Settled.stored_known (hw : w.Settled) (h : Stored t name w w')
    (known : (w'.scope t).vars.contains name → (w.scope t).vars.contains name) : w'.Settled := by
  refine hw.stored h fun new bound => ?_
  rw [known bound] at new
  cases new

theorem Settled.redone_methods (hw : w.Settled) (s : ScopeId) {f : Scope → Scope}
    (hf : ∀ x : Scope, x.SameGround (f x) ∧ (f x).importedObjects = x.importedObjects ∧
      (f x).importedStatic = x.importedStatic ∧ (f x).vars = x.vars) :
    ((w.modifyScope s f).forgetting s).Settled := by
  have changed : Stored s "" w (w.modifyScope s f) :=
    .modifyScope s (fun x => (hf x).1) (fun x => ⟨(hf x).2.1, (hf x).2.2.1⟩) fun x hx => (hf _).2.2.2 ▸ hx
  refine (hw.stored_known changed ?_).forgetting s
  rw [scope_modifyScope]
  split
  · rw [(hf _).2.2.2]
    exact id
  · exact id

end World

theorem Run.stored_assignVariable {t : ScopeId} {name : String} (s : ScopeId) (x : String)
    (value : Value) (declaring : Bool) (w : World) :
    (Run.assignVariable s x value declaring).run.Meets w (fun _ w' => w.Stored t name w') fun _
    w' => w.Stored t name w' := by
  refine (assignVariable_beside s x value declaring w).mono (fun _ w' h => ?_) fun _ _ h => .of_beside h
  rcases h with rfl | ⟨var, stored, v, held, -, beside, rfl⟩
  · exact .refl _
  · refine (World.Stored.of_beside beside).trans (.setVars s fun y hy => ?_)
    by_cases same : x = y
    · subst same
      obtain ⟨p, hp⟩ := beside.scope s
      rw [hp, Table.contains, held]
      rfl
    · simpa [Table.contains, Table.get?_put_ne _ _ same] using hy

instance {t : ScopeId} {name : String} : StoreRelation (World.Stored t name) where
  refl := .refl
  trans := .trans
  beside := .of_beside
  objects := .of_eq
  description w u f hf := by
    refine .modifyScope u (fun y => ?_) (fun y => ?_) fun z hz => ?_
    · obtain ⟨n, c, m, hy⟩ := hf y
      rw [hy]
      exact ⟨rfl, rfl, rfl, rfl, rfl⟩
    · obtain ⟨n, c, m, hy⟩ := hf y
      rw [hy]
      exact ⟨rfl, rfl⟩
    · obtain ⟨n, c, m, hy⟩ := hf (w.scope u)
      rw [hy] at hz
      exact hz
  assigned := Run.stored_assignVariable

def World.ImportsScope (w : World) : Prop := ∃ s u, .scope u ∈ w.importTargets s

namespace Run

variable {w : World} {s t : ScopeId} {name : String}

theorem stored_declareVariable (s : ScopeId) (name : String) (type : Ty) (value : Option Value) (modifiers : Modifiers) :
    Relates (World.Stored s name) (declareVariable s name type value modifiers) :=
  .bind (.lift (.of_adds (.declaredValue type value modifiers))) fun v _ =>
    World.Stored.put s name { type, value := v, modifiers }

theorem stored_bindIn (value : Value) (strict outwards : Bool) (h : name = "package" → ¬w.ImportsScope) :
    (bindIn s name value strict outwards).run.Meets w (fun _ w' => w.Stored s name w') fun _ w' => w.Stored s name w' :=
  relates_bindIn value strict outwards (fun hp t u hu => absurd ⟨t, u, hu⟩ (h hp))
    fun _ _ => stored_declareVariable s name .untyped _ {} w

theorem stored_setTypedVariable (type : Ty) (value : Option Value) (modifiers : Modifiers) :
    (setTypedVariable s name type value modifiers).run.Meets w (fun _ w' => w.Stored s name w')
      fun _ w' => w.Stored s name w' := by
  refine relates_setTypedVariable type value modifiers (fun _ _ _ => stored_declareVariable s name
    type value modifiers w) ?_
  intro t x _ hx _ _
  refine .setVars t fun y hy => ?_
  by_cases same : name = y
  · rw [← same, Table.contains, hx]
    rfl
  · simpa [Table.contains, Table.get?_put_ne _ _ same] using hy

theorem settled_unsetVariable (hw : w.Settled) :
    (unsetVariable s name).run.Meets w (fun _ w' => w'.Settled) fun _ w' => w'.Settled := by
  have erased (x : String) (hx : ((w.scope s).vars.erase name).contains x) : (w.scope s).vars.contains x :=
    Table.contains_of_erase hx
  unfold unsetVariable
  simp only [Action.meets_bind, Action.run_lift, meets_read]
  split
  · next held => exact (hw.stored_known (.setVars s erased) fun _ => held).forgetting s
  · exact hw

end Run

end ScriptCore
