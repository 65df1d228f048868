import ScriptCore.Proofs.Beside
import ScriptCore.Proofs.NameChanges
import ScriptCore.Proofs.TypedStorage

namespace ScriptCore

def Variable.IsSet (x : Variable) : Prop := x.value.getD .none ≠ .none

namespace World

variable {w w' : World} {s t : ScopeId} {name : String} {x : Variable} {before after : List ScopeId}

theorem nearestScopes_of_le {n : Nat} (h : s ≤ n) : w.nearestScopes n s = w.ancestry s := by
  unfold ancestry
  induction s using Nat.strongRecOn generalizing n with
  | ind s ih =>
    cases n with
    | zero => rw [Nat.le_zero.mp h]
    | succ n =>
      cases s with
      | zero =>
        unfold nearestScopes
        split <;> simp
      | succ m =>
        unfold nearestScopes
        split
        · rfl
        · next p _ =>
          split
          · next older =>
            have near : p ≤ m := Nat.le_of_lt_succ older
            rw [ih p older (Nat.le_trans near (Nat.le_of_succ_le_succ h)), ih p older near]
          · rfl

theorem ancestry_of_parent {p : ScopeId} (h : (w.scope s).parent = some p) (older : p < s) :
    w.ancestry s = s :: w.ancestry p := by
  cases s with
  | zero => exact absurd older (Nat.not_lt_zero p)
  | succ n =>
    have outer : w.nearestScopes n p = w.ancestry p := nearestScopes_of_le (Nat.le_of_lt_succ older)
    change w.nearestScopes (n + 1) (n + 1) = _
    rw [nearestScopes, ← outer]
    simp only [h, older, if_true]

theorem ancestry_of_split (h : w.ancestry s = before ++ t :: after) : w.ancestry t = t :: after := by
  induction before generalizing s with
  | nil =>
    obtain ⟨rest, head⟩ := w.head_ancestry s
    have split := h
    rw [head] at split
    cases split
    exact h
  | cons u before ih =>
    cases s with
    | zero =>
      cases before <;> cases h
    | succ n =>
      cases parent : (w.scope (n + 1)).parent with
      | none =>
        unfold ancestry nearestScopes at h
        simp only [parent] at h
        cases before <;> cases h
      | some p =>
        by_cases older : p < n + 1
        · rw [ancestry_of_parent parent older] at h
          exact ih (List.cons.inj h).2
        · unfold ancestry nearestScopes at h
          simp only [parent, older, if_false] at h
          cases before <;> cases h

theorem ancestry_subset (h : t ∈ w.ancestry s) : w.ancestry t ⊆ w.ancestry s := by
  obtain ⟨before, after, split⟩ := List.append_of_mem h
  rw [ancestry_of_split split, split]
  exact List.subset_append_right before (t :: after)

theorem root_mem_ancestry (w : World) (s : ScopeId) : w.root s ∈ w.ancestry s := by
  obtain ⟨rest, head⟩ := w.head_ancestry s
  unfold root
  rw [head, List.getLastD_cons]
  exact List.getLastD_mem_cons

theorem inside_of_held (held : (w.scope s).vars.get? name = some x) : s < w.scopes.size :=
  Nat.lt_of_not_le fun outside => by
    rw [scope, Array.getElem?_eq_none outside] at held
    cases held

/-- Scopes nested in each other: the innermost is there, none imports anything, and the outermost is
no block. -/
structure PlainChain (w : World) (s : ScopeId) : Prop where
  inside : s < w.scopes.size
  imports : ∀ t ∈ w.ancestry s, w.importTargets t = []
  outermost : (w.scope (w.root s)).isBlock = false

def holder? (w : World) (s : ScopeId) (name : String) : Option ScopeId :=
  (w.ancestry s).find? fun t => (w.scope t).vars.contains name

theorem held_of_holder? (h : w.holder? s name = some t) : ∃ x, (w.scope t).vars.get? name = some x := by
  have known := List.find?_some (p := fun t => (w.scope t).vars.contains name) h
  exact Option.isSome_iff_exists.mp known

/-- A variable has been written, and no other one. All else that has changed about scopes are the
proxies that they are presented by. -/
structure WroteOnly (w w' : World) (t : ScopeId) (name : String) (x : Variable) : Prop where
  written : (w'.scope t).vars.get? name = some x
  others : ∀ u y, u ≠ t ∨ y ≠ name → (w'.scope u).vars.get? y = (w.scope u).vars.get? y
  scope : ∀ u, ∃ vars proxies, w'.scope u = { w.scope u with vars, proxies }

theorem WroteOnly.trans {w'' : World} {y : Variable} (h : w.WroteOnly w' t name x)
    (k : w'.WroteOnly w'' t name y) : w.WroteOnly w'' t name y where
  written := k.written
  others u n apart := (k.others u n apart).trans (h.others u n apart)
  scope u := by
    obtain ⟨vars, proxies, same⟩ := h.scope u
    obtain ⟨vars', proxies', same'⟩ := k.scope u
    exact ⟨vars', proxies', by rw [same', same]⟩

theorem wroteOnly_put (h : w.Beside w') (ht : t < w.scopes.size) (name : String) (x : Variable) :
    w.WroteOnly (w'.setVars t fun vars => vars.put name x) t name x := by
  have inside : t < w'.scopes.size := h.size ▸ ht
  refine ⟨?_, fun u y apart => ?_, fun u => ?_⟩
  · rw [scope_setVars, if_pos ⟨rfl, inside⟩]
    exact Table.get?_put_self _ name x
  · obtain ⟨proxies, same⟩ := h.scope u
    rw [scope_setVars]
    split
    · next here =>
      rw [Table.get?_put_ne _ _ (Ne.symm (apart.resolve_left fun ne => ne here.1.symm)), same]
    · rw [same]
  · obtain ⟨proxies, same⟩ := h.scope u
    rw [scope_setVars]
    split
    · exact ⟨_, proxies, by rw [same]⟩
    · exact ⟨_, proxies, same⟩

namespace WroteOnly

variable (h : w.WroteOnly w' t name x)
include h

theorem ancestry (s : ScopeId) : w'.ancestry s = w.ancestry s := by
  refine ancestry_eq fun u _ => ?_
  obtain ⟨vars, proxies, same⟩ := h.scope u
  rw [same]

theorem importTargets (u : ScopeId) : w'.importTargets u = w.importTargets u := by
  obtain ⟨vars, proxies, same⟩ := h.scope u
  rw [World.importTargets, World.importTargets, same]

theorem holder? {before after : List ScopeId} (split : w.ancestry s = before ++ t :: after)
    (none : ∀ u ∈ before, (w.scope u).vars.contains name = false) : w'.holder? s name = some t := by
  have here : (w'.scope t).vars.contains name := by
    rw [Table.contains, h.written]
    rfl
  unfold World.holder?
  rw [h.ancestry s, split]
  clear split
  induction before with
  | nil => simp [here]
  | cons u rest ih =>
    have later := ih fun v hv => none v (List.mem_cons_of_mem _ hv)
    by_cases same : u = t
    · simp [same, here]
    · have absent : (w'.scope u).vars.contains name = false := by
        rw [Table.contains, h.others u name (.inl same)]
        exact none u List.mem_cons_self
      simpa [absent] using later

theorem contains_of_block (old : (w.scope t).isBlock → (w.scope t).vars.contains name) {u : ScopeId} {y : String}
    (block : (w'.scope u).isBlock) (held : (w'.scope u).vars.contains y) : (w.scope u).vars.contains y := by
  obtain ⟨vars, proxies, same⟩ := h.scope u
  have block : (w.scope u).isBlock := by simpa only [same] using block
  by_cases here : u = t ∧ y = name
  · obtain ⟨rfl, rfl⟩ := here
    exact old block
  · rw [Table.contains, h.others u y (Decidable.not_and_iff_or_not.mp here)] at held
    exact held

end WroteOnly

theorem bindingScope_split (outermost : (w.scope (w.root s)).isBlock = false) (name : String) :
    ∃ before after, w.ancestry s = before ++ w.bindingScope s name :: after ∧
      (∀ u ∈ before, (w.scope u).isBlock ∧ (w.scope u).vars.contains name = false) ∧
      ((w.scope (w.bindingScope s name)).isBlock → (w.scope (w.bindingScope s name)).vars.contains name) := by
  have some : ((w.ancestry s).find? fun t => !(w.scope t).isBlock || (w.scope t).vars.contains name).isSome := by
    rw [List.find?_isSome]
    exact ⟨w.root s, w.root_mem_ancestry s, by simp [outermost]⟩
  obtain ⟨t, found⟩ := Option.isSome_iff_exists.mp some
  have here : w.bindingScope s name = t := by
    unfold World.bindingScope
    rw [found]
    rfl
  obtain ⟨holds, before, after, split, passed⟩ := List.find?_eq_some_iff_append.mp found
  rw [here]
  refine ⟨before, after, split, fun u hu => ?_, fun block => ?_⟩
  · simpa using passed u hu
  · simpa [block] using holds

theorem PlainChain.bindingScope (chain : w.PlainChain s) (name : String) :
    ∃ before after, w.ancestry s = before ++ w.bindingScope s name :: after ∧
      (∀ u ∈ before, (w.scope u).isBlock ∧ (w.scope u).vars.contains name = false) ∧
      ((w.scope (w.bindingScope s name)).isBlock → (w.scope (w.bindingScope s name)).vars.contains name) :=
  bindingScope_split chain.outermost name

theorem holder?_of_split (split : w.ancestry s = before ++ t :: after)
    (none : ∀ u ∈ before, (w.scope u).vars.contains name = false) : w.holder? s name = w.holder? t name := by
  have passed : before.find? (fun u => (w.scope u).vars.contains name) = Option.none :=
    List.find?_eq_none.mpr fun u hu => by simp [none u hu]
  unfold holder?
  rw [ancestry_of_split split, split, List.find?_append, passed]
  rfl

theorem enclosing_of_split (split : w.ancestry s = before ++ t :: after)
    (blocks : ∀ u ∈ before, (w.scope u).isBlock) (plain : (w.scope t).isBlock = false) : w.enclosing s = t := by
  have passed : before.find? (fun u => !(w.scope u).isBlock) = none :=
    List.find?_eq_none.mpr fun u hu => by simp [blocks u hu]
  unfold enclosing
  rw [split, List.find?_append, passed]
  simp [plain]

/-- The scope that an assignment goes to sees what the innermost one sees, and is a block only if it
holds the name itself. If nothing is seen, it is the nearest scope that is no block. -/
theorem PlainChain.assigned (chain : w.PlainChain s) (name : String) :
    w.bindingScope s name ∈ w.ancestry s ∧ w.holder? (w.bindingScope s name) name = w.holder? s name ∧
      ((w.scope (w.bindingScope s name)).isBlock → w.holder? s name = some (w.bindingScope s name)) ∧
      (w.holder? s name = none → w.bindingScope s name = w.enclosing s) := by
  obtain ⟨before, after, split, passed, blocks⟩ := chain.bindingScope name
  have same := holder?_of_split split fun u hu => (passed u hu).2
  have here (held : (w.scope (w.bindingScope s name)).vars.contains name) :
      w.holder? s name = some (w.bindingScope s name) := by
    rw [same, holder?, ancestry_of_split split]
    simp [held]
  refine ⟨by simp [split], same.symm, fun block => here (blocks block), fun none => ?_⟩
  refine (enclosing_of_split split (fun u hu => (passed u hu).1) ?_).symm
  -- A block is passed by unless it holds the name.
  rw [Bool.eq_false_iff]
  intro block
  rw [here (blocks block)] at none
  cases none

end World

namespace Run

variable {w w' : World} {s t : ScopeId} {name : String} {value : Value} {x : Variable}

theorem localBindingOf_own (first : (w.scope s).isClass = false ∨ w.importTargets s = [])
    (known : (w.scope s).vars.contains name) : (localBindingOf s name).run w = .done (some (.held s name)) w := by
  change (localBinding (w.scopes.size + 1) s name).run w = _
  unfold localBinding
  rw [Action.run_bind_of_done (x := get) rfl]
  simp only [known, if_true]
  rcases first with plain | imports
  · simp only [plain, Bool.false_eq_true, if_false]
    rfl
  · simp only [imports, firstSome]
    split <;> rfl

theorem localBindingOf_plain (imports : w.importTargets s = []) (name : String) :
    (localBindingOf s name).run w = .done (if (w.scope s).vars.contains name then some (.held s name) else none) w := by
  cases known : (w.scope s).vars.contains name with
  | false => exact localBindingOf_unknown imports known
  | true => exact localBindingOf_own (.inr imports) known

theorem findBinding_plain (imports : ∀ t ∈ w.ancestry s, w.importTargets t = []) (name : String) :
    (findBinding s name true).run w = .done ((w.holder? s name).map (.held · name)) w := by
  have search (l : List ScopeId) (hl : ∀ t ∈ l, w.importTargets t = []) :
      (firstSome l fun t => localBindingOf t name).run w =
        .done ((l.find? fun t => (w.scope t).vars.contains name).map (.held · name)) w := by
    induction l with
    | nil => rfl
    | cons t rest ih =>
      unfold firstSome
      rw [Action.run_bind_of_done (localBindingOf_plain (hl t List.mem_cons_self) name)]
      cases known : (w.scope t).vars.contains name with
      | true =>
        simp only [List.find?_cons, known, if_true]
        rfl
      | false => simpa [known] using ih fun u hu => hl u (List.mem_cons_of_mem _ hu)
  exact search _ imports

theorem getVariable_of_found {outwards : Bool}
    (found : (findBinding s name outwards).run w = .done (some (.held t name)) w)
    (held : (w.scope t).vars.get? name = some x) :
    (getVariable s name outwards).run w = .done (x.value.getD .none) w := by
  unfold getVariable
  rw [Action.run_liftM_bind_of_done found]
  change Outcome.done (((w.scope t).vars.get? name).elim .void fun v => v.value.getD .none) w = _
  rw [held]
  rfl

theorem getVariable_of_wroteOnly {before after : List ScopeId}
    (imports : ∀ t ∈ w.ancestry s, w.importTargets t = []) (split : w.ancestry s = before ++ t :: after)
    (none : ∀ u ∈ before, (w.scope u).vars.contains name = false) (h : w.WroteOnly w' t name x) :
    (getVariable s name true).run w' = .done (x.value.getD .none) w' := by
  have imports : ∀ u ∈ w'.ancestry s, w'.importTargets u = [] := fun u hu =>
    (h.importTargets u).trans (imports u (h.ancestry s ▸ hu))
  have found := findBinding_plain imports name
  rw [h.holder? split none] at found
  exact getVariable_of_found found h.written

theorem assignVariable_put {declaring : Bool} (held : (w.scope t).vars.get? name = some x)
    (h : (assignVariable t name value declaring).run w = .done () w') : (x.isFinal && x.value.isSome) = false ∧
      ∃ stored v, (cast value x.type (if declaring then .cast else .assignment)).run w = .done stored v ∧
        w' = v.setVars t fun vars => vars.put name { x with value := some stored } := by
  rw [run_assignVariable held] at h
  split at h
  · cases h
  · next free =>
    obtain ⟨stored, v, run, rest⟩ := Comp.bind_done_iff.mp h
    cases rest
    exact ⟨Bool.eq_false_iff.mpr free, stored, v, run, rfl⟩

theorem assignVariable_done (held : (w.scope t).vars.get? name = some x)
    (h : (assignVariable t name value false).run w = .done () w') :
    (x.isFinal && x.value.isSome) = false ∧ ∃ stored v, (cast value x.type .assignment).run w = .done stored v ∧
      w.WroteOnly w' t name { x with value := some stored } := by
  obtain ⟨free, stored, v, run, rfl⟩ := assignVariable_put held h
  have beside : w.Beside v := ((OnlyAdds.cast value x.type .assignment w).of_done run).toBeside
  exact ⟨free, stored, v, run, World.wroteOnly_put beside (World.inside_of_held held) name _⟩

theorem declareVariable_done {type : Ty} {given : Option Value} {modifiers : Modifiers} (inside : t < w.scopes.size)
    (h : (declareVariable t name type given modifiers).run w = .done () w') :
    ∃ held v, (declaredValue type given modifiers).run w = .done held v ∧
      w' = (v.setVars t fun vars => vars.put name { type, value := held, modifiers }).modifyMemory t Memory.forgotten ∧
      w.WroteOnly w' t name { type, value := held, modifiers } := by
  obtain ⟨held, v, run, rest⟩ := Comp.bind_done_iff.mp h
  have beside : w.Beside v := ((OnlyAdds.declaredValue type given modifiers w).of_done run).toBeside
  cases rest
  obtain ⟨written, others, scope⟩ := World.wroteOnly_put beside inside name { type, value := held, modifiers }
  exact ⟨held, v, run, rfl, written, others, scope⟩

theorem wroteOnly_declareVariable (inside : t < w.scopes.size)
    (h : (declareVariable t name .untyped (some value) {}).run w = .done () w') :
    w.WroteOnly w' t name { value := some value } := by
  obtain ⟨held, v, run, -, wrote⟩ := declareVariable_done inside h
  cases run
  exact wrote

theorem findBinding_bindingScope (chain : w.PlainChain s) (name : String) :
    (findBinding (w.bindingScope s name) name (!(w.scope (w.bindingScope s name)).isBlock)).run w =
      .done ((w.holder? s name).map (.held · name)) w := by
  obtain ⟨within, same, block, -⟩ := chain.assigned name
  cases kind : (w.scope (w.bindingScope s name)).isBlock with
  | false =>
    rw [← same]
    exact findBinding_plain (fun u hu => chain.imports u (World.ancestry_subset within hu)) name
  | true =>
    have here := block kind
    have holds := List.find?_some here
    have known := localBindingOf_plain (chain.imports _ within) name
    rw [if_pos holds] at known
    rw [here]
    change (firstSome [w.bindingScope s name] fun t => localBindingOf t name).run w = _
    unfold firstSome
    rw [Action.run_bind_of_done known]
    rfl

theorem run_setVariable (chain : w.PlainChain s) (h : value ≠ .none) :
    (setVariable s name value false true).run w =
      match w.holder? s name with
      | some t => (assignVariable t name value false).run w
      | none => (declareVariable (w.enclosing s) name .untyped (some value) {}).run w := by
  unfold setVariable
  rw [Action.run_get_bind]
  simp only [Bool.true_and]
  unfold bindIn
  split
  · exact absurd rfl h
  · rw [Action.run_liftM_bind_of_done (findBinding_bindingScope chain name)]
    cases found : w.holder? s name with
    | some t => rfl
    | none =>
      rw [(chain.assigned name).2.2.2 found]
      rfl

theorem assignVariable_done_iff (held : (w.scope t).vars.get? name = some x) :
    (∃ w', (assignVariable t name value false).run w = .done () w') ↔
      (x.isFinal && x.value.isSome) = false ∧ ∃ stored v, (cast value x.type .assignment).run w = .done stored v := by
  constructor
  · rintro ⟨w', h⟩
    obtain ⟨free, stored, v, run, -⟩ := assignVariable_done held h
    exact ⟨free, stored, v, run⟩
  · rintro ⟨free, stored, v, run⟩
    rw [run_assignVariable held]
    simp only [free, Bool.false_eq_true, if_false]
    rw [Comp.bind_of_done run]
    exact ⟨_, rfl⟩

theorem setVariable_done_iff (chain : w.PlainChain s) :
    (∃ w', (setVariable s name value false true).run w = .done () w') ↔
      value ≠ .none ∧ ∀ t x, w.holder? s name = some t → (w.scope t).vars.get? name = some x →
        (x.isFinal && x.value.isSome) = false ∧ ∃ stored v, (cast value x.type .assignment).run w = .done stored v := by
  by_cases given : value = .none
  · subst given
    exact iff_of_false (fun ⟨_, h⟩ => by cases h) fun h => h.1 rfl
  · rw [run_setVariable chain given]
    cases found : w.holder? s name with
    | none => exact iff_of_true ⟨_, rfl⟩ ⟨given, fun _ _ h => by cases h⟩
    | some t =>
      obtain ⟨x, held⟩ := World.held_of_holder? found
      rw [assignVariable_done_iff held]
      refine ⟨fun h => ⟨given, fun u y hu hy => ?_⟩, fun h => h.2 t x rfl held⟩
      cases hu
      cases held.symm.trans hy
      exact h

end Run

/-- Where nothing is imported, an assignment succeeds if the variable that the name stands for still
takes the value, or there is none. It writes that variable and no other one, or else a new one of
the nearest scope that is no block. -/
theorem assignment_writes_nearest {w : World} {s : ScopeId} (chain : w.PlainChain s) (name : String) (value : Value) :
    (Run.findBinding s name true).run w = .done ((w.holder? s name).map (.held · name)) w ∧
    ((∃ w', (Run.setVariable s name value false true).run w = .done () w') ↔
      value ≠ .none ∧ ∀ t x, w.holder? s name = some t → (w.scope t).vars.get? name = some x →
        (x.isFinal && x.value.isSome) = false ∧ ∃ stored v, (Run.cast value x.type .assignment).run w = .done stored v) ∧
    ∀ w', (Run.setVariable s name value false true).run w = .done () w' →
      ∃ t x stored, w.WroteOnly w' t name x ∧
        (match w.holder? s name with
          | some u => t = u ∧ ∃ old v, (w.scope u).vars.get? name = some old ∧
            (Run.cast value old.type .assignment).run w = .done stored v ∧ x = { old with value := some stored }
          | none => t = w.enclosing s ∧ stored = value ∧ x = { value := some value }) ∧
        (∀ u y, (w'.scope u).isBlock → (w'.scope u).vars.contains y → (w.scope u).vars.contains y) ∧
        (Run.getVariable s name true).run w' = .done stored w' := by
  refine ⟨Run.findBinding_plain chain.imports name, Run.setVariable_done_iff chain, fun w' h => ?_⟩
  have given : value ≠ .none := ((Run.setVariable_done_iff chain).mp ⟨w', h⟩).1
  rw [Run.run_setVariable chain given] at h
  cases found : w.holder? s name with
  | some t =>
    rw [found] at h
    obtain ⟨old, held⟩ := World.held_of_holder? found
    obtain ⟨known, before, after, split, passed⟩ := List.find?_eq_some_iff_append.mp found
    obtain ⟨-, stored, v, run, wrote⟩ := Run.assignVariable_done held h
    have none : ∀ u ∈ before, (w.scope u).vars.contains name = false := fun u hu => by simpa using passed u hu
    exact ⟨t, _, stored, wrote, ⟨rfl, old, v, held, run, rfl⟩, fun u y => wrote.contains_of_block fun _ => known,
      Run.getVariable_of_wroteOnly chain.imports split none wrote⟩
  | none =>
    rw [found] at h
    obtain ⟨before, after, split, passed, blocks⟩ := chain.bindingScope name
    obtain ⟨within, -, -, here⟩ := chain.assigned name
    rw [here found] at split blocks within
    have inside : w.enclosing s < w.scopes.size := by
      rcases World.mem_ancestry within with same | ⟨older, -⟩
      · rw [same]
        exact chain.inside
      · exact Nat.lt_trans older chain.inside
    have wrote := Run.wroteOnly_declareVariable inside h
    exact ⟨w.enclosing s, _, value, wrote, ⟨rfl, rfl, rfl⟩, fun u y => wrote.contains_of_block blocks,
      Run.getVariable_of_wroteOnly chain.imports split (fun u hu => (passed u hu).2) wrote⟩

/-- An integer that is assigned in a block of a block of a scope inside another reaches a long
variable of the outermost one, and a name that is new there becomes a variable of the scope around
the blocks. -/
theorem assignment_writes_nearest_nested :
    let n : Variable := { type := .prim .long, value := some (.boxed (.long 1) 0) }
    let w : World := { World.bare with
      scopes := #[{ vars := ⟨[("n", n)]⟩ }, { parent := some 0 }, { parent := some 1, isBlock := true },
        { parent := some 2, isBlock := true }] }
    w.PlainChain 3 ∧
      (∃ w' stored, (Run.setVariable 3 "n" (.ofInt 5) false true).run w = .done () w' ∧
        w.WroteOnly w' 0 "n" { n with value := some stored } ∧ (Run.getVariable 3 "n" true).run w' = .done stored w') ∧
      ∃ w', (Run.setVariable 3 "k" (.ofInt 5) false true).run w = .done () w' ∧
        w.WroteOnly w' 1 "k" { value := some (.ofInt 5) } ∧ (Run.getVariable 3 "k" true).run w' = .done (.ofInt 5) w' := by
  intro n w
  have chain : w.PlainChain 3 := by
    refine ⟨by decide, fun t ht => ?_, by decide⟩
    have around : w.ancestry 3 = [3, 2, 1, 0] := by decide
    simp only [around, List.mem_cons, List.not_mem_nil, or_false] at ht
    rcases ht with rfl | rfl | rfl | rfl <;> rfl
  refine ⟨chain, ?_, ?_⟩
  · have found : w.holder? 3 "n" = some 0 := by decide
    obtain ⟨-, succeeds, writes⟩ := assignment_writes_nearest chain "n" (.ofInt 5)
    obtain ⟨w', run⟩ := succeeds.mpr ⟨nofun, fun t x ht hx => by
      cases found.symm.trans ht
      cases hx
      exact ⟨by decide, Outcome.exists_of_isDone (by decide +kernel)⟩⟩
    obtain ⟨t, x, stored, wrote, written, -, read⟩ := writes w' run
    rw [found] at written
    obtain ⟨rfl, old, v, held, -, rfl⟩ := written
    cases held
    exact ⟨w', stored, run, wrote, read⟩
  · have found : w.holder? 3 "k" = none := by decide
    obtain ⟨-, succeeds, writes⟩ := assignment_writes_nearest chain "k" (.ofInt 5)
    obtain ⟨w', run⟩ := succeeds.mpr ⟨nofun, fun t x ht => by cases found.symm.trans ht⟩
    obtain ⟨t, x, stored, wrote, written, -, read⟩ := writes w' run
    rw [found] at written
    obtain ⟨rfl, rfl, rfl⟩ := written
    exact ⟨w', run, wrote, read⟩

end ScriptCore
