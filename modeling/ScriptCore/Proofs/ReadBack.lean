import ScriptCore.Proofs.AssignedCell
import ScriptCore.Proofs.InheritedBodies

namespace ScriptCore

namespace World

variable {w w' : World} {s t : ScopeId} {name : String}

def passed (w : World) (s : ScopeId) (name : String) : List ScopeId :=
  (w.ancestry s).takeWhile fun t => (w.scope t).isBlock && !(w.scope t).vars.contains name

theorem ancestry_eq_passed (outermost : (w.scope (w.root s)).isBlock = false) (name : String) :
    w.ancestry s = w.passed s name ++ w.ancestry (w.bindingScope s name) ∧
      ((w.scope (w.bindingScope s name)).isBlock → (w.scope (w.bindingScope s name)).vars.contains name) := by
  obtain ⟨before, after, split, blocks, held⟩ := bindingScope_split outermost name
  have goes : ∀ u ∈ before, ((w.scope u).isBlock && !(w.scope u).vars.contains name) = true := fun u hu => by
    simp [blocks u hu]
  have first : w.passed s name = before := by
    rw [passed, split, List.takeWhile_append_of_pos goes, List.takeWhile_cons_of_neg (by simpa using held), List.append_nil]
  exact ⟨by rw [first, ancestry_of_split split, split], held⟩

/-- Scopes stay where they are and import what they did, and no name is new or gone. -/
structure SameNames (w w' : World) : Prop where
  size : w'.scopes.size = w.scopes.size
  registries : w'.registries = w.registries
  parent : ∀ u, (w'.scope u).parent = (w.scope u).parent
  registry : ∀ u, (w'.scope u).registry = (w.scope u).registry
  imports : ∀ u, w'.importTargets u = w.importTargets u
  names : ∀ u y, (w'.scope u).vars.contains y = (w.scope u).vars.contains y

namespace SameNames

theorem of_scope (size : w'.scopes.size = w.scopes.size) (registries : w'.registries = w.registries)
    (h : ∀ u, ∃ n c m p proxies, w'.scope u =
      { w.scope u with name := n, isClass := c, isMethod := m, package := p, proxies }) : w.SameNames w' where
  size := size
  registries := registries
  parent u := by obtain ⟨n, c, m, p, proxies, same⟩ := h u; rw [same]
  registry u := by obtain ⟨n, c, m, p, proxies, same⟩ := h u; rw [same]
  imports u := by obtain ⟨n, c, m, p, proxies, same⟩ := h u; rw [importTargets, importTargets, same]
  names u y := by obtain ⟨n, c, m, p, proxies, same⟩ := h u; rw [same]

theorem refl (w : World) : w.SameNames w := .of_scope rfl rfl fun _ => ⟨_, _, _, _, _, rfl⟩

theorem trans {w'' : World} (h : w.SameNames w') (k : w'.SameNames w'') : w.SameNames w'' where
  size := k.size.trans h.size
  registries := k.registries.trans h.registries
  parent u := (k.parent u).trans (h.parent u)
  registry u := (k.registry u).trans (h.registry u)
  imports u := (k.imports u).trans (h.imports u)
  names u y := (k.names u y).trans (h.names u y)

theorem of_beside (h : w.Beside w') : w.SameNames w' :=
  .of_scope h.size h.registries fun u => by
    obtain ⟨proxies, same⟩ := h.scope u
    exact ⟨_, _, _, _, proxies, same⟩

theorem modifyScope (w : World) (u : ScopeId) {f : Scope → Scope}
    (hf : ∀ y, ∃ n c m p, f y = { y with name := n, isClass := c, isMethod := m, package := p }) :
    w.SameNames (w.modifyScope u f) := by
  refine .of_scope (by simp [World.modifyScope]) rfl fun v => ?_
  rw [scope_modifyScope]
  split
  · obtain ⟨n, c, m, p, same⟩ := hf (w.scope v)
    exact ⟨n, c, m, p, _, same⟩
  · exact ⟨_, _, _, _, _, rfl⟩

theorem put {x : Variable} (held : (w.scope t).vars.contains name) :
    w.SameNames (w.setVars t fun vars => vars.put name x) := by
  refine ⟨by simp [setVars, World.modifyScope], rfl, fun u => ?_, fun u => ?_, fun u => ?_, fun u y => ?_⟩
  · rw [scope_setVars]; split <;> rfl
  · rw [scope_setVars]; split <;> rfl
  · rw [importTargets, importTargets, scope_setVars]; split <;> rfl
  · rw [scope_setVars]
    split
    · next here =>
      by_cases same : name = y
      · subst same
        rw [here.1] at held
        rw [held, Table.contains, Table.get?_put_self]
        rfl
      · rw [Table.contains, Table.get?_put_ne _ _ same]
        rfl
    · rfl

end SameNames

instance : StoreRelation SameNames where
  refl := .refl
  trans := .trans
  beside := .of_beside
  objects hs hr _ := .of_scope (by rw [hs]) hr fun u => ⟨_, _, _, _, _, by rw [World.scope, hs]; rfl⟩
  description w u f hf := .modifyScope w u fun y => by
    obtain ⟨n, c, m, same⟩ := hf y
    exact ⟨n, c, m, _, same⟩
  assigned s x value declaring w := by
    refine (Run.assignVariable_beside s x value declaring w).mono (fun _ w' h => ?_) fun _ _ h => .of_beside h
    rcases h with rfl | ⟨var, stored, v, held, -, beside, rfl⟩
    · exact .refl _
    · obtain ⟨proxies, same⟩ := beside.scope s
      refine (SameNames.of_beside beside).trans (.put ?_)
      rw [same, Table.contains, held]
      rfl

/-- Imported values keep what they have under a name: a field stays a field, and a method a method.
No scope becomes one of a class or ceases to be one. -/
structure ImportsKeep (w w' : World) (name : String) : Prop where
  isClass : ∀ u, (w'.scope u).isClass = (w.scope u).isClass
  member : ∀ u, ∀ target ∈ w.importTargets u, (∀ t, target ≠ .closure t) → ∀ r,
    (Run.resolveMember (w.bridge u) target name).run w = .done r w →
      ∃ r', (Run.resolveMember (w.bridge u) target name).run w' = .done r' w' ∧
        r'.map Member.isMethod = r.map Member.isMethod

/-- What a name stands for depends on nothing that has changed, but that a scope may hold the name
which did not. -/
structure Carries (fresh : Option ScopeId) (name : String) (w w' : World) : Prop extends ImportsKeep w w' name where
  size : w'.scopes.size = w.scopes.size
  parent : ∀ u, (w'.scope u).parent = (w.scope u).parent
  bridge : ∀ u, w'.bridge u = w.bridge u
  imports : ∀ u, w'.importTargets u = w.importTargets u
  held : ∀ u, (w'.scope u).vars.contains name = ((w.scope u).vars.contains name || decide (fresh = some u))

theorem bridge_eq (registries : w'.registries = w.registries) (parent : ∀ u, (w'.scope u).parent = (w.scope u).parent)
    (registry : ∀ u, (w'.scope u).registry = (w.scope u).registry) (u : ScopeId) : w'.bridge u = w.bridge u := by
  unfold World.bridge World.registry
  rw [registries, registryId_eq (fun t _ => parent t) fun t _ => registry t]

theorem SameNames.carries (h : w.SameNames w') (k : w.ImportsKeep w' name) : Carries none name w w' :=
  { k with
    size := h.size
    parent := h.parent
    bridge := bridge_eq h.registries h.parent h.registry
    imports := h.imports
    held := fun u => by simp [h.names] }

theorem carries_declared (inside : t < w.scopes.size) (x : Variable)
    (h : w' = (w.setVars t fun vars => vars.put name x).modifyMemory t Memory.forgotten) (k : w.ImportsKeep w' name) :
    Carries (some t) name w w' := by
  have scope (u : ScopeId) : w'.scope u = (w.setVars t fun vars => vars.put name x).scope u := by rw [h]; rfl
  have parent (u : ScopeId) : (w'.scope u).parent = (w.scope u).parent := by rw [scope, scope_setVars]; split <;> rfl
  have registry (u : ScopeId) : (w'.scope u).registry = (w.scope u).registry := by rw [scope, scope_setVars]; split <;> rfl
  refine { k with
    size := by rw [h]; simp [setVars, World.modifyScope, modifyMemory]
    parent := parent
    bridge := bridge_eq (by rw [h]; rfl) parent registry
    imports := fun u => by rw [importTargets, importTargets, scope, scope_setVars]; split <;> rfl
    held := fun u => ?_ }
  rw [scope, scope_setVars]
  by_cases here : t = u
  · subst here
    simp [inside, Table.contains]
  · simp [here]

end World

namespace Run

variable {w w' : World} {s t : ScopeId} {name : String} {value : Value} {fresh : Option ScopeId}
  {x x' y z : Plain (Option Binding)}

/-- A search for a name finds the same again in the other world, or the variable that is new there
if it found nothing. If there is a new variable, this is not asked of a search that found something.
-/
def Carried (fresh : Option ScopeId) (name : String) (w w' : World) (x x' : Plain (Option Binding)) : Prop :=
  ∀ r v, x.run w = .done r v → v = w ∧ (fresh = none ∨ r = none →
    ∃ r', x'.run w' = .done r' w' ∧ (r' = r ∨ r = none ∧ r' = fresh.map (.held · name)))

namespace Carried

theorem of_run (hx : x.run w = y.run w) (hx' : x'.run w' = z.run w')
    (h : Carried fresh name w w' y z) : Carried fresh name w w' x x' := fun r v run => by
  rw [hx']
  exact h r v (hx ▸ run)

theorem bind {f f' : Option Binding → Plain (Option Binding)} (hx : Carried fresh name w w' x x')
    (first : ∀ b, f (some b) = pure (some b)) (first' : ∀ b, f' (some b) = pure (some b))
    (rest : Carried fresh name w w' (f none) (f' none)) : Carried fresh name w w' (x >>= f) (x' >>= f') := by
  intro r v run
  obtain ⟨found, u, ran, run⟩ := Comp.bind_done_iff.mp run
  obtain ⟨rfl, again⟩ := hx found u ran
  cases found with
  | some b =>
    rw [first] at run
    cases run
    refine ⟨rfl, fun side => ?_⟩
    obtain ⟨_, ran', rfl | ⟨h, -⟩⟩ := again side
    · refine ⟨some b, ?_, .inl rfl⟩
      rw [Action.run_bind_of_done ran', first']
      rfl
    · cases h
  | none =>
    obtain ⟨rfl, later⟩ := rest r v run
    refine ⟨rfl, fun side => ?_⟩
    obtain ⟨found, ran', same⟩ := again (.inr rfl)
    cases found with
    | none =>
      rw [Action.run_bind_of_done ran']
      exact later side
    | some b =>
      -- The first search comes upon the new variable, so the second one found nothing before.
      have new : some b = fresh.map (.held · name) := same.elim (fun h => by cases h) fun h => h.2
      refine ⟨some b, ?_, .inr ⟨side.resolve_left fun none => ?_, new⟩⟩
      · rw [Action.run_bind_of_done ran', first']
        rfl
      · rw [none] at new
        cases new

theorem firstSome {α : Type} {f : α → Plain (Option Binding)} {l : List α}
    (h : ∀ a ∈ l, Carried fresh name w w' (f a) (f a)) :
    Carried fresh name w w' (ScriptCore.firstSome l f) (ScriptCore.firstSome l f) := by
  induction l with
  | nil =>
    intro r v run
    cases run
    exact ⟨rfl, fun _ => ⟨none, rfl, .inl rfl⟩⟩
  | cons a rest ih =>
    exact .bind (h a List.mem_cons_self) (fun _ => rfl) (fun _ => rfl) (ih fun b hb => h b (List.mem_cons_of_mem _ hb))

variable (h : World.Carries fresh name w w')
include h

theorem own (u : ScopeId) :
    Carried fresh name w w' (pure (if (w.scope u).vars.contains name then some (.held u name) else none))
      (pure (if (w'.scope u).vars.contains name then some (.held u name) else none)) := by
  intro r v run
  cases run
  refine ⟨rfl, fun _ => ⟨_, rfl, ?_⟩⟩
  rw [h.held u]
  cases known : (w.scope u).vars.contains name with
  | true => exact .inl rfl
  | false =>
    by_cases new : fresh = some u
    · exact .inr ⟨rfl, by simp [new]⟩
    · exact .inl (by simp [new])

theorem imported {inScope : ScopeId → Plain (Option Binding)}
    (inside : ∀ t, Carried fresh name w w' (inScope t) (inScope t))
    (u : ScopeId) {target : Value} (offered : target ∈ w.importTargets u) :
    Carried fresh name w w' (importedBinding inScope (w.bridge u) name target)
      (importedBinding inScope (w.bridge u) name target) := by
  unfold importedBinding
  split
  · exact inside _
  · next _ plain =>
    intro r v run
    cases ran : (resolveMember (w.bridge u) target name).run w with
    | failed e v => rw [Action.run_bind, Comp.bind_of_failed ran] at run; cases run
    | exhausted => rw [Action.run_bind, Comp.bind_of_exhausted ran] at run; cases run
    | done member v =>
      have same : v = w := (meets_resolveMember _ _ _ w).of_done ran
      subst same
      obtain ⟨member', ran', kind⟩ := h.member u target offered plain member ran
      rw [Action.run_bind_of_done ran] at run
      rw [Action.run_bind_of_done ran']
      cases member with
      | none =>
        cases member' with
        | some m => cases kind
        | none =>
          cases run
          exact ⟨rfl, fun _ => ⟨_, rfl, .inl rfl⟩⟩
      | some m =>
        cases member' with
        | none => cases kind
        | some m' =>
          have kind : m'.isMethod = m.isMethod := Option.some.inj kind
          cases run
          exact ⟨rfl, fun _ => ⟨_, rfl, .inl (by rw [kind])⟩⟩

theorem localBinding (fuel : Nat) (u : ScopeId) :
    Carried fresh name w w' (Run.localBinding fuel u name) (Run.localBinding fuel u name) := by
  induction fuel generalizing u with
  | zero => exact fun _ _ run => by cases run
  | succ fuel ih =>
    have own := own h u
    have imported := Carried.firstSome fun (target : Value) offered => imported h ih u offered
    unfold Run.localBinding
    refine .of_run (Action.run_bind_of_done (x := get) rfl) (Action.run_bind_of_done (x := get) rfl) ?_
    rw [h.bridge u, h.imports u, h.isClass u]
    dsimp only
    split
    · exact imported.bind (fun _ => rfl) (fun _ => rfl) own
    · let later (r : Option Binding) : Plain (Option Binding) :=
        r.elim (ScriptCore.firstSome (w.importTargets u) (importedBinding (Run.localBinding fuel · name) (w.bridge u) name))
          fun b => pure (some b)
      refine .of_run (y := pure _ >>= later) (z := pure _ >>= later) ?_ ?_ (own.bind (fun _ => rfl) (fun _ => rfl) imported)
      · cases (w.scope u).vars.contains name <;> rfl
      · cases (w'.scope u).vars.contains name <;> rfl

theorem localBindingOf (u : ScopeId) :
    Carried fresh name w w' (Run.localBindingOf u name) (Run.localBindingOf u name) := by
  refine .of_run (y := Run.localBinding (w.scopes.size + 1) u name) (z :=
    Run.localBinding (w.scopes.size + 1) u name) rfl ?_
    (localBinding h _ u)
  rw [← h.size]
  rfl

theorem findBinding (s : ScopeId) :
    Carried fresh name w w' (Run.findBinding s name true) (Run.findBinding s name true) := by
  refine .of_run (y := ScriptCore.firstSome (w.ancestry s) fun t => Run.localBindingOf t name)
    (z := ScriptCore.firstSome (w.ancestry s) fun t => Run.localBindingOf t name) rfl ?_
    (.firstSome fun u _ => localBindingOf h u)
  rw [← World.ancestry_eq fun u _ => h.parent u]
  rfl

end Carried

variable {r : Option Binding}

theorem localBindingOf_isSome {v : World} (known : (w.scope t).vars.contains name)
    (run : (localBindingOf t name).run w = .done r v) : r.isSome := by
  have run : (localBinding (w.scopes.size + 1) t name).run w = .done r v := run
  unfold localBinding at run
  rw [Action.run_bind_of_done (x := get) rfl] at run
  simp only [known, if_true] at run
  split at run
  · generalize (firstSome (w.importTargets t) _ : Plain (Option Binding)) = imported at run
    obtain ⟨found, u, ran, run⟩ := Comp.bind_done_iff.mp run
    cases found <;> cases run <;> rfl
  · cases run
    rfl

theorem firstSome_isSome {α β : Type} {f : α → Plain (Option β)} {l : List α} {a : α} (ha : a ∈ l)
    (steady : ∀ b ∈ l, ∀ r v, (f b).run w = .done r v → v = w) (some : ∀ r v, (f a).run w = .done r v → r.isSome)
    {r : Option β} {v : World} (run : (firstSome l f).run w = .done r v) : r.isSome := by
  induction l with
  | nil => cases ha
  | cons b rest ih =>
    unfold firstSome at run
    obtain ⟨found, u, ran, run⟩ := Comp.bind_done_iff.mp run
    obtain rfl := steady b List.mem_cons_self found u ran
    cases found with
    | some c =>
      cases run
      rfl
    | none =>
      rcases List.mem_cons.mp ha with rfl | later
      · exact absurd (some _ _ ran) (by simp)
      · exact ih later (fun c hc => steady c (List.mem_cons_of_mem _ hc)) run

theorem steady_localBindingOf {v : World} (run : (localBindingOf t name).run w = .done r v) : v = w :=
  ((meets_localBinding (w.scopes.size + 1) t name w).of_done run).1

theorem findBinding_of_first {before after : List ScopeId} {b : Binding} (split : w.ancestry s = before ++ t :: after)
    (quiet : ∀ u ∈ before, (localBindingOf u name).run w = .done none w)
    (here : (localBindingOf t name).run w = .done (some b) w) : (findBinding s name true).run w = .done (some b) w := by
  change (firstSome (w.ancestry s) fun u => localBindingOf u name).run w = _
  rw [split, firstSome_of_none quiet, firstSome, Action.run_bind_of_done here]
  rfl

theorem findBinding_of_passed (outermost : (w.scope (w.root s)).isBlock = false)
    (quiet : ∀ u ∈ w.passed s name, (localBindingOf u name).run w = .done none w)
    (found : (findBinding (w.bindingScope s name) name (!(w.scope (w.bindingScope s name)).isBlock)).run w = .done r w) :
    (findBinding s name true).run w = .done r w := by
  obtain ⟨split, held⟩ := World.ancestry_eq_passed outermost name
  cases kind : (w.scope (w.bindingScope s name)).isBlock with
  | false =>
    rw [kind] at found
    change (firstSome (w.ancestry s) fun u => localBindingOf u name).run w = _
    rw [split, firstSome_of_none quiet]
    exact found
  | true =>
    -- A block takes the assignment only if it holds the name, so the search ends there.
    have here : (localBindingOf (w.bindingScope s name) name).run w = .done r w := by
      rw [kind] at found
      exact (firstSome_singleton _).symm.trans found
    obtain ⟨b, rfl⟩ := Option.isSome_iff_exists.mp (localBindingOf_isSome (held kind) here)
    obtain ⟨rest, head⟩ := w.head_ancestry (w.bindingScope s name)
    exact findBinding_of_first (head ▸ split) quiet here

theorem findBinding_of_carries (h : World.Carries fresh name w w')
    (found : (findBinding s name true).run w = .done r w) (side : fresh = none ∨ r = none)
    (reached : ∀ u, fresh = some u → u ∈ w.ancestry s) :
    (findBinding s name true).run w' = .done (r.or (fresh.map (.held · name))) w' := by
  obtain ⟨r', found', same⟩ := (Carried.findBinding h s r w found).2 side
  cases fresh with
  | none =>
    rcases same with rfl | ⟨rfl, rfl⟩
    · rw [Option.map_none, Option.or_none]
      exact found'
    · exact found'
  | some u =>
    obtain rfl : r = none := side.resolve_left (by simp)
    have known : (w'.scope u).vars.contains name := by simp [h.held u]
    have there : u ∈ w'.ancestry s := World.ancestry_eq (fun v _ => h.parent v) ▸ reached u rfl
    have seen : r'.isSome := firstSome_isSome (f := fun v => localBindingOf v name) there
      (fun _ _ _ _ run => steady_localBindingOf run)
      (fun _ _ run => localBindingOf_isSome known run) found'
    rcases same with rfl | ⟨-, rfl⟩
    · cases seen
    · exact found'

theorem bindIn_done {outwards : Bool} (h : (bindIn t name value false outwards).run w = .done () w') :
    ∃ found, (findBinding t name outwards).run w = .done found w ∧ (∀ b ∈ found, b.Found w name) ∧
      (found = none → (declareVariable t name .untyped (some value) {}).run w = .done () w') ∧
      ∀ b, found = some b → (writeBinding b value).run w = .done () w' := by
  unfold bindIn at h
  split at h
  · cases h
  cases ran : (findBinding t name outwards).run w with
  | failed e v => cases (Comp.bind_of_failed ran).symm.trans h
  | exhausted => cases (Comp.bind_of_exhausted ran).symm.trans h
  | done found v =>
    obtain ⟨rfl, valid⟩ := (meets_findBinding t name outwards w).of_done ran
    rw [Action.run_liftM_bind_of_done ran] at h
    refine ⟨found, rfl, valid, fun none => ?_, fun b some => ?_⟩
    · subst none
      exact h
    · subst some
      exact h

theorem sameNames_writeBinding (b : Binding) (value : Value) : Relates World.SameNames (writeBinding b value) := by
  cases b with
  | held u name => exact .lift (.assignVariable u name value false)
  | field target name =>
    exact .of_setsField (.writeField target name value) fun _ u _ w p => .modifyScope w u fun y => ⟨_, _, _, p, rfl⟩

theorem getVariable_of_binding {b : Binding} (found : (findBinding s name true).run w = .done (some b) w) :
    (getVariable s name true).run w = (readBinding b).run w := by
  unfold getVariable
  rw [Action.run_liftM_bind_of_done found]

theorem getVariable_of_hidden {w' : World} {u : ScopeId} {before after : List ScopeId} {b : Binding}
    (outermost : (w.scope (w.root s)).isBlock = false) (same : w'.ancestry s = w.ancestry s)
    (split : w.passed s name = before ++ u :: after)
    (quiet : ∀ t ∈ before, (localBindingOf t name).run w' = .done none w')
    (here : (localBindingOf u name).run w' = .done (some b) w') :
    (getVariable s name true).run w' = (readBinding b).run w' := by
  obtain ⟨around, -⟩ := World.ancestry_eq_passed outermost name
  rw [split, List.append_assoc, List.cons_append] at around
  exact getVariable_of_binding (findBinding_of_first (same.trans around) quiet here)

end Run

namespace World

/-- What an assignment has stored, depending on what the name stands for in the scope that it goes
to. -/
inductive Written (w w' : World) (t : ScopeId) (name : String) (value : Value) : Option Binding → Value → Prop
  | held {u : ScopeId} {x : Variable} {stored : Value} {v : World} (known : (w.scope u).vars.get? name = some x)
      (converted : (Run.cast value x.type .assignment).run w = .done stored v)
      (wrote : w.WroteOnly w' u name { x with value := some stored }) : Written w w' t name value
        (some (.held u name)) stored
  | field {u : ScopeId} {target : Value} (imported : target ∈ w.importTargets u)
      (wrote : (Run.writeField target name value).run w = .done () w') :
      Written w w' t name value (some (.field target name)) value
  | new (wrote : w.WroteOnly w' t name { value := some value }) : Written w w' t name value none value

/-- The imported values are as an assignment expects them to be: the field that was assigned has the
value now, and none has got a field of the name or lost one. -/
structure GivesBack (w w' : World) (name : String) (value : Value) (found : Option Binding) : Prop
    extends w.ImportsKeep w' name where
  field : ∀ target, found = some (.field target name) → ∃ v, (Run.readBinding (.field target name)).run w' = .done value v

end World

/-- After an assignment that succeeds, the name has the value that was stored, if the imported
values give it back and the blocks that the assignment passes by import nothing of that name.
Otherwise it has the value of what the first of these blocks takes it for. -/
theorem assignment_reads_back {w w' : World} {s : ScopeId} {name : String} {value : Value}
    (inside : s < w.scopes.size) (outermost : (w.scope (w.root s)).isBlock = false)
    (assigned : (Run.setVariable s name value false true).run w = .done () w') :
    ∃ found stored,
      (Run.findBinding (w.bindingScope s name) name (!(w.scope (w.bindingScope s name)).isBlock)).run w = .done found w ∧
      w.Written w' (w.bindingScope s name) name value found stored ∧
      (w.GivesBack w' name value found →
        (∀ u ∈ w.passed s name, (Run.localBindingOf u name).run w = .done none w) →
          ∃ v, (Run.getVariable s name true).run w' = .done stored v) ∧
      ∀ before u after b, w.passed s name = before ++ u :: after →
        (∀ t ∈ before, (Run.localBindingOf t name).run w' = .done none w') →
        (Run.localBindingOf u name).run w' = .done (some b) w' →
          (Run.getVariable s name true).run w' = (Run.readBinding b).run w' := by
  have assigned : (Run.bindIn (w.bindingScope s name) name value false
      (!(w.scope (w.bindingScope s name)).isBlock)).run w = .done () w' := assigned
  obtain ⟨around, -⟩ := World.ancestry_eq_passed outermost name
  have reached : w.bindingScope s name ∈ w.ancestry s := by
    obtain ⟨rest, head⟩ := w.head_ancestry (w.bindingScope s name)
    simp [around, head]
  obtain ⟨found, ran, valid, declared, written⟩ := Run.bindIn_done assigned
  cases found with
  | none =>
    have within : w.bindingScope s name < w.scopes.size := by
      rcases World.mem_ancestry reached with same | ⟨older, -⟩
      · rw [same]
        exact inside
      · exact Nat.lt_trans older inside
    have run := declared rfl
    have wrote := Run.wroteOnly_declareVariable within run
    refine ⟨none, value, ran, .new wrote, fun back quiet => ?_,
      fun _ _ _ _ => Run.getVariable_of_hidden outermost (wrote.ancestry s)⟩
    have carries : World.Carries (some (w.bindingScope s name)) name w w' := by
      cases run
      exact World.carries_declared within _ rfl back.toImportsKeep
    have again := Run.findBinding_of_carries carries (Run.findBinding_of_passed outermost quiet ran) (.inr rfl)
      fun u hu => Option.some.inj hu ▸ reached
    exact ⟨w', Run.getVariable_of_found again wrote.written⟩
  | some b =>
    have same := (Run.sameNames_writeBinding b value w).of_done (written b rfl)
    have again (back : w.GivesBack w' name value (some b))
        (quiet : ∀ u ∈ w.passed s name, (Run.localBindingOf u name).run w = .done none w) :
        (Run.findBinding s name true).run w' = .done (some b) w' :=
      Run.findBinding_of_carries (same.carries back.toImportsKeep) (Run.findBinding_of_passed
        outermost quiet ran) (.inl rfl)
        fun _ none => by cases none
    have chain : w'.ancestry s = w.ancestry s := World.ancestry_eq fun u _ => same.parent u
    cases valid b rfl with
    | held known =>
      obtain ⟨-, stored, v, converted, wrote⟩ := Run.assignVariable_done known (written _ rfl)
      exact ⟨_, stored, ran, .held known converted wrote,
        fun back quiet => ⟨w', Run.getVariable_of_found (again back quiet) wrote.written⟩,
        fun _ _ _ _ => Run.getVariable_of_hidden outermost chain⟩
    | field imported =>
      refine ⟨_, value, ran, .field imported (written _ rfl), fun back quiet => ?_,
        fun _ _ _ _ => Run.getVariable_of_hidden outermost chain⟩
      obtain ⟨v, given⟩ := back.field _ rfl
      exact ⟨v, (Run.getVariable_of_binding (again back quiet)).trans given⟩

/-- A block in the scope of a class, in an outermost one. The outermost one and the block import the
given values, of which there is a point. -/
def importingPoint (outer inner : List Value) : World where
  scopes := #[{ registry := some 0, importedObjects := outer }, { parent := some 0, isClass := true },
    { parent := some 1, isBlock := true, importedObjects := inner }]
  objects := #[{ cls := .library .point, attrs := .ofList [("x", .int 1)] }]
  registries := #[{}]

/-- An assignment in the block reaches the field of a point that the outermost scope imports, and
the name has the new value. -/
theorem assignment_reads_back_field :
    let w := importingPoint [.object 0] []
    ∃ w', 2 < w.scopes.size ∧ (w.scope (w.root 2)).isBlock = false ∧
      (Run.setVariable 2 "x" (.ofInt 5) false true).run w = .done () w' ∧
      w.GivesBack w' "x" (.ofInt 5) (some (.field (.object 0) "x")) ∧
      ∃ v, (Run.getVariable 2 "x" true).run w' = .done (.ofInt 5) v := by
  intro w
  let w' : World := { w with objects := #[{ cls := .library .point, attrs := .ofList [("x", .int 5)] }] }
  have run : (Run.setVariable 2 "x" (.ofInt 5) false true).run w = .done () w' := rfl
  have back : w.GivesBack w' "x" (.ofInt 5) (some (.field (.object 0) "x")) := by
    refine { isClass := fun _ => rfl, member := fun u target offered _ r found => ?_, field := fun target same => ?_ }
    · rcases u with _ | _ | _ | u <;> cases offered
      · have found : Outcome.done (some ⟨false, .object 0, "x", .value (.int 1)⟩) w = .done r w := found
        cases found
        exact ⟨some ⟨false, .object 0, "x", .value (.int 5)⟩, rfl, rfl⟩
      · contradiction
    · cases same
      exact ⟨w', rfl⟩
  obtain ⟨found, stored, ran, written, read, -⟩ := assignment_reads_back (s := 2) (by decide) rfl run
  cases ran
  cases written
  exact ⟨w', by decide, rfl, run, back, read back fun u passed => by
    have passed : u ∈ [2] := passed
    cases List.mem_singleton.mp passed
    rfl⟩

/-- A block that imports a point does not see what is assigned to a name which the point has a field
of: the assignment makes a variable of the scope around it. -/
theorem block_import_hides_assignment :
    let w := importingPoint [] [.object 0]
    ∃ w', (Run.setVariable 2 "x" (.ofInt 5) false true).run w = .done () w' ∧ w.GivesBack w' "x" (.ofInt 5) none ∧
      (w'.scope 1).vars.get? "x" = some { value := some (.ofInt 5) } ∧
      (Run.getVariable 2 "x" true).run w' = .done (.ofInt 1) w' := by
  intro w
  refine ⟨(w.setVars 1 fun vars => vars.put "x" { value := some (.ofInt 5) }).forgetting 1, rfl, ?_, rfl, rfl⟩
  refine { isClass := fun u => ?_, member := fun u target offered _ r found => ?_, field :=
    fun target same => by cases same }
  · rcases u with _ | _ | _ | u <;> rfl
  · rcases u with _ | _ | _ | u <;> cases offered
    · have found : Outcome.done (some ⟨false, .object 0, "x", .value (.int 1)⟩) w = .done r w := found
      cases found
      exact ⟨some ⟨false, .object 0, "x", .value (.int 1)⟩, rfl, rfl⟩
    · contradiction

end ScriptCore
