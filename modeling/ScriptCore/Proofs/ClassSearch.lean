import ScriptCore.Proofs.Oblivious

namespace ScriptCore

namespace Registry

variable {reg reg' reg'' : Registry} {full : String} {found : Option Value}

def known? (reg : Registry) (full : String) : Option (Option Value) :=
  match reg.defined.get? full, reg.aliases.get? full, reg.cache.get? full with
  | some v, _, _ => some (some v)
  | none, some v, _ => some (some v)
  | none, none, hit => hit

def recalled (reg : Registry) : List String → Option (Option Value)
  | [] => some none
  | full :: rest =>
    match reg.known? full with
    | none => none
    | some (some c) => some (some c)
    | some none => reg.recalled rest

def Extends (reg reg' : Registry) : Prop := ∀ full hit, reg.known? full = some hit → reg'.known? full = some hit

theorem Extends.refl (reg : Registry) : reg.Extends reg := fun _ _ h => h

theorem Extends.trans (h : reg.Extends reg') (k : reg'.Extends reg'') : reg.Extends reg'' := fun full hit hf =>
  k full hit (h full hit hf)

theorem Extends.recalled (h : reg.Extends reg') {l : List String} {hit : Option Value}
    (hl : reg.recalled l = some hit) : reg'.recalled l = some hit := by
  induction l with
  | nil => exact hl
  | cons full rest ih =>
    unfold Registry.recalled at hl ⊢
    cases known : reg.known? full with
    | none =>
      rw [known] at hl
      cases hl
    | some r =>
      rw [h full r known]
      rw [known] at hl
      cases r with
      | none => exact ih hl
      | some c => exact hl

theorem known?_learned (h : reg.known? full = none) :
    ({ reg with cache := reg.cache.put full found } : Registry).known? full = some found := by
  unfold known? at h ⊢
  cases hd : reg.defined.get? full with
  | some v => simp [hd] at h
  | none =>
    cases ha : reg.aliases.get? full with
    | some v => simp [hd, ha] at h
    | none => simp

theorem extends_learned (h : reg.known? full = none) : reg.Extends { reg with cache := reg.cache.put full found } := by
  intro other hit hk
  have apart : full ≠ other := by
    rintro rfl
    rw [h] at hk
    cases hk
  unfold known? at hk ⊢
  rw [Table.get?_put_ne _ _ apart]
  exact hk

end Registry

namespace World

variable {w w' w'' : World} {s : ScopeId}

def recalled (w : World) (s : ScopeId) (name : String) : Option (Option Value) :=
  (w.registryAt (w.registryId s)).recalled (w.candidates s name)

/-- All that happened is that registries have learned something. -/
structure Learned (w w' : World) : Prop where
  scopes : w'.scopes = w.scopes
  memories : w'.memories = w.memories
  size : w'.registries.size = w.registries.size
  registry : ∀ r, (w.registryAt r).Extends (w'.registryAt r)

theorem Learned.refl (w : World) : w.Learned w := ⟨rfl, rfl, rfl, fun _ => .refl _⟩

theorem Learned.trans (h : w.Learned w') (k : w'.Learned w'') : w.Learned w'' :=
  ⟨k.scopes.trans h.scopes, k.memories.trans h.memories, k.size.trans h.size, fun r => (h.registry r).trans (k.registry r)⟩

theorem registryAt_modifyRegistry (w : World) (r q : Nat) (f : Registry → Registry) :
    (w.modifyRegistry r f).registryAt q = if r = q ∧ q < w.registries.size then f (w.registryAt q) else w.registryAt q := by
  unfold registryAt modifyRegistry
  rw [Array.getElem?_modify]
  by_cases h : r = q
  · subst h
    by_cases inside : r < w.registries.size
    · simp [inside]
    · simp [inside]
  · simp [h]

theorem learned_put {r : Nat} {full : String} {found : Option Value} (h : (w.registryAt r).known? full = none) :
    w.Learned (w.modifyRegistry r fun reg => { reg with cache := reg.cache.put full found }) := by
  refine ⟨rfl, rfl, by simp [modifyRegistry], fun q => ?_⟩
  rw [registryAt_modifyRegistry]
  split
  · next hq =>
    obtain ⟨rfl, -⟩ := hq
    exact Registry.extends_learned h
  · exact .refl _

end World

structure Scope.SameGround (x y : Scope) : Prop where
  parent : y.parent = x.parent
  classes : y.importedClasses = x.importedClasses
  packages : y.importedPackages = x.importedPackages
  package : y.package = x.package
  registry : y.registry = x.registry

theorem Scope.SameGround.refl (x : Scope) : x.SameGround x := ⟨rfl, rfl, rfl, rfl, rfl⟩

theorem Scope.SameGround.trans {x y z : Scope} (h : x.SameGround y) (k : y.SameGround z) : x.SameGround z :=
  ⟨k.parent.trans h.parent, k.classes.trans h.classes, k.packages.trans h.packages, k.package.trans h.package,
    k.registry.trans h.registry⟩

namespace World

variable {w w' : World} {s : ScopeId}

theorem ancestry_eq (h : ∀ t ∈ w.ancestry s, (w'.scope t).parent = (w.scope t).parent) : w'.ancestry s = w.ancestry s := by
  have nearest (n : Nat) (s : ScopeId) (hn : ∀ t ∈ w.nearestScopes n s, (w'.scope t).parent = (w.scope t).parent) :
      w'.nearestScopes n s = w.nearestScopes n s := by
    induction n generalizing s with
    | zero => rfl
    | succ n ih =>
      unfold nearestScopes at hn ⊢
      cases hp : (w.scope s).parent with
      | none =>
        simp only [hp, List.mem_singleton, forall_eq] at hn
        rw [hn]
      | some p =>
        simp only [hp] at hn
        by_cases older : p < s
        · simp only [older, if_true, List.mem_cons, forall_eq_or_imp] at hn
          simp only [hn.1, hp, older, if_true, ih p hn.2]
        · simp only [older, if_false, List.mem_singleton, forall_eq] at hn
          simp only [hn, hp, older, if_false]
  exact nearest s s h

theorem registryId_eq (parent : ∀ t ∈ w.ancestry s, (w'.scope t).parent = (w.scope t).parent)
    (registry : ∀ t ∈ w.ancestry s, (w'.scope t).registry = (w.scope t).registry) : w'.registryId s = w.registryId s := by
  have last : w.root s ∈ w.ancestry s := by
    obtain ⟨rest, hr⟩ := w.head_ancestry s
    unfold root
    rw [hr, List.getLastD_cons]
    exact List.getLastD_mem_cons
  have root : w'.root s = w.root s := by
    unfold World.root
    rw [ancestry_eq parent]
  unfold World.registryId
  rw [root, registry _ last]

def SameAround (w w' : World) (s : ScopeId) : Prop := ∀ t ∈ w.ancestry s, (w.scope t).SameGround (w'.scope t)

namespace SameAround

theorem of_scopes (h : w'.scopes = w.scopes) (s : ScopeId) : w.SameAround w' s := by
  intro t _
  rw [World.scope, World.scope, h]
  exact .refl _

theorem ancestry (h : w.SameAround w' s) : w'.ancestry s = w.ancestry s := ancestry_eq fun t ht => (h t ht).parent

theorem map_eq {β : Type} (h : w.SameAround w' s) {f : Scope → β} (hf : ∀ x y : Scope, x.SameGround y → f y = f x) :
    ((w'.ancestry s).map fun t => f (w'.scope t)) = (w.ancestry s).map fun t => f (w.scope t) := by
  rw [h.ancestry]
  exact List.map_congr_left fun t ht => hf _ _ (h t ht)

theorem registryId (h : w.SameAround w' s) : w'.registryId s = w.registryId s :=
  registryId_eq (fun t ht => (h t ht).parent) fun t ht => (h t ht).registry

theorem candidates (h : w.SameAround w' s) : w'.candidates s = w.candidates s := by
  have imported (name : String) : w'.importedClass? s name = w.importedClass? s name := by
    have same := h.map_eq (f := Scope.importedClasses) fun _ _ k => k.classes
    simpa only [importedClass?, List.findSome?_map, Function.comp_def] using
      congrArg (List.findSome? fun t => t.get? name) same
  have package : w'.packageOf s = w.packageOf s := by
    have same := h.map_eq (f := Scope.package) fun _ _ k => k.package
    simpa only [packageOf, List.findSome?_map, Function.comp_def, id_eq] using congrArg (List.findSome? id) same
  have packages : w'.importedPackages s = w.importedPackages s := by
    have same := h.map_eq (f := fun x => x.importedPackages.reverse) fun _ _ k => by rw [k.packages]
    simpa only [World.importedPackages, List.flatMap_def] using congrArg List.flatten same
  funext name
  unfold World.candidates
  rw [imported, package, packages]

end SameAround

theorem recalled_of_same (h : w.SameAround w' s)
    (registry : (w.registryAt (w.registryId s)).Extends (w'.registryAt (w.registryId s))) {name : String}
    {hit : Option Value} (hr : w.recalled s name = some hit) : w'.recalled s name = some hit := by
  unfold recalled at hr ⊢
  rw [h.registryId, h.candidates]
  exact registry.recalled hr

theorem recalled_remembering (w : World) (m : Array Memory) (n : Nat) : (w.remembering m n).recalled = w.recalled := by
  funext s name
  have around : w.SameAround (w.remembering m n) s := .of_scopes rfl s
  unfold World.recalled
  rw [around.registryId, around.candidates]
  rfl

end World

namespace Run

variable {w : World} {s : ScopeId} {r : Nat} {name : String}

theorem classForName_of_known {hit : Option Value} (h : (w.registryAt r).known? name = some hit) :
    (classForName r name).run w = .done hit w := by
  unfold classForName
  rw [Action.run_bind_of_done (x := read _) rfl]
  unfold Registry.known? at h
  cases hd : (w.registryAt r).defined.get? name with
  | some v =>
    simp only [hd] at h ⊢
    cases h
    rfl
  | none =>
    cases ha : (w.registryAt r).aliases.get? name with
    | some v =>
      simp only [hd, ha] at h ⊢
      cases h
      rfl
    | none =>
      simp only [hd, ha] at h
      simp only [h]
      rfl

theorem classForName_of_unknown (h : (w.registryAt r).known? name = none) :
    (classForName r name).run w = (do
      let found ← load name
      updateRegistry r fun reg => { reg with cache := reg.cache.put name found }
      pure found : Plain (Option Value)).run w := by
  unfold classForName
  rw [Action.run_bind_of_done (x := read _) rfl]
  unfold Registry.known? at h
  cases hd : (w.registryAt r).defined.get? name with
  | some v => simp only [hd] at h; cases h
  | none =>
    cases ha : (w.registryAt r).aliases.get? name with
    | some v => simp only [hd, ha] at h; cases h
    | none =>
      simp only [hd, ha] at h
      simp only [h]

theorem learned_load (name : String) (w : World) :
    (load name).run.Meets w (fun _ w' => w.Learned w' ∧ w'.registries = w.registries) fun _ w' => w.Learned w' := by
  have learned {v : World} (h : w.Untouched v) (hm : v.memories = w.memories) : w.Learned v := by
    refine ⟨h.scopes, hm, by rw [h.registries], fun r => ?_⟩
    rw [World.registryAt, World.registryAt, h.registries]
    exact .refl _
  have kept := (Oblivious.load name).blind.memories w
  exact (((Oblivious.load name).keeps w).and kept).mono (fun _ _ h => ⟨learned h.1 h.2, h.1.registries⟩)
    fun _ _ h => learned h.1 h.2

theorem learned_classForName (inside : r < w.registries.size) (name : String) :
    (classForName r name).run.Meets w (fun hit w' => w.Learned w' ∧ (w'.registryAt r).known? name = some hit)
      fun _ w' => w.Learned w' := by
  cases known : (w.registryAt r).known? name with
  | some hit =>
    unfold Comp.Meets
    rw [classForName_of_known known]
    exact ⟨.refl w, known⟩
  | none =>
    unfold Comp.Meets
    rw [classForName_of_unknown known]
    change Comp.Meets _ w _ _
    simp only [Action.meets_bind]
    refine (learned_load name w).imp fun found v h => ?_
    have same : v.registryAt r = w.registryAt r := by rw [World.registryAt, World.registryAt, h.2]
    have fresh : (v.registryAt r).known? name = none := same ▸ known
    refine ⟨h.1.trans (World.learned_put fresh), ?_⟩
    change ((v.modifyRegistry r _).registryAt r).known? name = some found
    rw [World.registryAt_modifyRegistry, if_pos ⟨rfl, h.2 ▸ inside⟩]
    exact Registry.known?_learned fresh

theorem searchClass_of_recalled {hit : Option Value} (h : w.recalled s name = some hit) :
    (searchClass s name).run w = .done hit w := by
  have first (l : List String) (hl : (w.registryAt (w.registryId s)).recalled l = some hit) :
      (firstSome l fun full => classForName (w.registryId s) full).run w = .done hit w := by
    induction l with
    | nil =>
      cases hl
      rfl
    | cons full rest ih =>
      unfold Registry.recalled at hl
      cases known : (w.registryAt (w.registryId s)).known? full with
      | none => rw [known] at hl; cases hl
      | some found =>
        rw [known] at hl
        unfold firstSome
        rw [Action.run_bind_of_done (classForName_of_known known)]
        cases found with
        | none => exact ih hl
        | some c =>
          cases hl
          rfl
  exact first _ h

theorem learned_searchClass (inside : w.registryId s < w.registries.size) (name : String) :
    (searchClass s name).run.Meets w (fun hit w' => w.Learned w' ∧ w'.recalled s name = some hit)
    fun _ w' => w.Learned w' := by
  have first (l : List String) (w : World) {r : Nat} (inside : r < w.registries.size) :
      (firstSome l fun full => classForName r full).run.Meets w
        (fun hit w' => w.Learned w' ∧ (w'.registryAt r).recalled l = some hit) fun _ w' => w.Learned w' := by
    induction l generalizing w with
    | nil => exact ⟨.refl w, rfl⟩
    | cons full rest ih =>
      unfold firstSome
      simp only [Action.meets_bind]
      refine (learned_classForName inside full).imp fun found v h => ?_
      cases found with
      | some c =>
        refine ⟨h.1, ?_⟩
        unfold Registry.recalled
        rw [h.2]
      | none =>
        refine (ih v (h.1.size ▸ inside)).mono (fun hit u k => ⟨h.1.trans k.1, ?_⟩) fun _ _ k => h.1.trans k
        unfold Registry.recalled
        rw [k.1.registry r full none h.2]
        exact k.2
  simp only [searchClass, Action.meets_bind, meets_get]
  refine (first (w.candidates s name) w inside).imp fun hit v h => ⟨h.1, ?_⟩
  have around : w.SameAround v s := .of_scopes h.1.scopes s
  unfold World.recalled
  rw [around.registryId, around.candidates]
  exact h.2

theorem scopes_searchClass (s : ScopeId) (name : String) (w : World) :
    (searchClass s name).run.Meets w (fun _ v => v.scopes = w.scopes) fun _ v => v.scopes = w.scopes := by
  have one (full : String) (r : Nat) (w : World) :
      (classForName r full).run.Meets w (fun _ v => v.scopes = w.scopes) fun _ v => v.scopes = w.scopes := by
    unfold classForName
    simp only [Action.meets_bind, meets_read]
    split
    · rfl
    · rfl
    · rfl
    · simp only [Action.meets_bind]
      exact (learned_load full w).mono (fun _ _ h => h.1.scopes) fun _ _ h => h.scopes
  have first (l : List String) (r : Nat) (w : World) :
      (firstSome l fun full => classForName r full).run.Meets w (fun _ v => v.scopes = w.scopes)
        fun _ v => v.scopes = w.scopes := by
    induction l generalizing w with
    | nil => rfl
    | cons full rest ih =>
      unfold firstSome
      simp only [Action.meets_bind]
      refine (one full r w).imp fun found v h => ?_
      cases found with
      | some c => exact h
      | none => exact (ih v).mono (fun _ _ k => k.trans h) fun _ _ k => k.trans h
  simp only [searchClass, Action.meets_bind, meets_get]
  exact first (w.candidates s name) (w.registryId s) w

theorem Blind.searchClass (s : ScopeId) (name : String) : Blind (Run.searchClass s name) := by
  refine .getThen (fun w m n => ?_) fun w => .firstSome fun full => ?_
  · have around : w.SameAround (w.remembering m n) s := .of_scopes rfl s
    rw [around.registryId, around.candidates]
  · refine .bind (.read fun _ _ _ => rfl) fun reg => ?_
    split
    · exact .pure _
    · exact .pure _
    · exact .pure _
    · exact .bind (Oblivious.load full).blind fun _ => .bind (fun _ _ _ => rfl) fun _ => .pure _

end Run

end ScriptCore
