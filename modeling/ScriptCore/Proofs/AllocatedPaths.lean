import ScriptCore.Proofs.Cloning
import ScriptCore.Proofs.DottedNames
import ScriptCore.Proofs.FinalVariables
import ScriptCore.Proofs.MethodBodies

namespace ScriptCore

namespace World

variable {w u w' w'' : World} {b s : ScopeId} {x : String} {xs ys : List String} {v : Value}

/-- The scope can get variables of all the names: it is no block, and nothing around it is imported
or has one of them. -/
structure Open (w : World) (b : ScopeId) (names : List String) : Prop where
  inside : b < w.scopes.size
  plain : (w.scope b).isBlock = false
  unbound : ∀ x ∈ names, w.Unbound b x

theorem scope_of_scopes (same : u.scopes = w.scopes) (t : ScopeId) : u.scope t = w.scope t := by
  rw [scope, same]
  rfl

theorem Open.of_scopes (h : w.Open b xs) (same : u.scopes = w.scopes) : u.Open b xs := by
  have scope := scope_of_scopes same
  have around : u.ancestry b = w.ancestry b := ancestry_eq fun t _ => by rw [scope]
  have targets (t : ScopeId) : u.importTargets t = w.importTargets t := by rw [importTargets, importTargets, scope]
  refine ⟨same ▸ h.inside, scope b ▸ h.plain, fun x hx t ht => ?_⟩
  rw [targets, scope]
  exact h.unbound x hx t (around ▸ ht)

theorem self_mem_ancestry (w : World) (s : ScopeId) : s ∈ w.ancestry s := by
  obtain ⟨rest, head⟩ := w.head_ancestry s
  rw [head]
  exact List.mem_cons_self

theorem Open.imports (h : w.Open b (x :: xs)) : w.importTargets b = [] :=
  (h.unbound x List.mem_cons_self b (w.self_mem_ancestry b)).1

/-- A scope has got an untyped variable, and no other scope that was there has changed. -/
structure GainedVariable (w w' : World) (b : ScopeId) (x : String) (v : Value) : Prop where
  size : w.scopes.size ≤ w'.scopes.size
  gained : w'.scope b = { w.scope b with vars := (w.scope b).vars.put x { value := some v } }
  others : ∀ t < w.scopes.size, t ≠ b → w'.scope t = w.scope t

theorem GainedVariable.held (h : w.GainedVariable w' b x v) : (w'.scope b).vars.get? x = some { value := some v } := by
  rw [h.gained]
  exact Table.get?_put_self _ x _

theorem GainedVariable.importTargets (h : w.GainedVariable w' b x v) {t : ScopeId}
    (inside : t < w.scopes.size) : w'.importTargets t = w.importTargets t := by
  by_cases here : t = b
  · subst here
    rw [World.importTargets, World.importTargets, h.gained]
  · rw [World.importTargets, World.importTargets, h.others t inside here]

theorem GainedVariable.of_scopes (h : u.GainedVariable w' b x v) (same : u.scopes = w.scopes) :
    w.GainedVariable w' b x v where
  size := same ▸ h.size
  gained := scope_of_scopes same b ▸ h.gained
  others t ht apart := (h.others t (same ▸ ht) apart).trans (scope_of_scopes same t)

theorem GainedVariable.trans {c : ScopeId} {y : String} {z : Value} (h : w.GainedVariable w' b x v)
    (inside : b < w.scopes.size)
    (new : w.scopes.size ≤ c) (k : w'.GainedVariable w'' c y z) : w.GainedVariable w'' b x v where
  size := Nat.le_trans h.size k.size
  gained := (k.others b (Nat.lt_of_lt_of_le inside h.size) (Nat.ne_of_lt (Nat.lt_of_lt_of_le inside new))).trans h.gained
  others t ht apart := (k.others t (Nat.lt_of_lt_of_le ht h.size) (Nat.ne_of_lt (Nat.lt_of_lt_of_le ht new))).trans
    (h.others t ht apart)

/-- The path leads to the value: each segment but the last is a closure, whose scope holds the next
segment only. -/
inductive Paved (w : World) (v : Value) : ScopeId → List String → Prop
  | last {b : ScopeId} {x : String} (imports : w.importTargets b = [])
      (held : (w.scope b).vars.get? x = some { value := some v }) : Paved w v b [x]
  | through {b c : ScopeId} {x y : String} {xs : List String} (imports : w.importTargets b = [])
      (held : (w.scope b).vars.get? x = some { value := some (.closure c) }) (only : (w.scope c).vars.keys = [y])
      (rest : Paved w v c (y :: xs)) : Paved w v b (x :: y :: xs)

theorem Paved.under {c : ScopeId} {y : String} {z : Value} (h : w.Open b (x :: xs))
    (gained : w.GainedVariable u b x (.closure c))
    (new : w.scopes.size ≤ c) (empty : (u.scope c).vars = {}) (filled : u.GainedVariable w' c y z)
    (rest : w'.Paved v c (y :: ys)) : w.GainedVariable w' b x (.closure c) ∧ w'.Paved v b (x :: y :: ys) := by
  have whole := gained.trans h.inside new filled
  have only : (w'.scope c).vars.keys = [y] := by
    rw [filled.gained, empty]
    rfl
  exact ⟨whole, .through ((whole.importTargets h.inside).trans h.imports) whole.held only rest⟩

theorem Paved.take (h : w.Paved v b xs) {i : Nat} (proper : i + 1 < xs.length) :
    ∃ c, w.Paved (.closure c) b (xs.take (i + 1)) ∧ (w.scope c).vars.keys = [xs[i + 1]] := by
  induction h generalizing i with
  | last => simp at proper
  | @through b c x y xs imports held only rest ih =>
    cases i with
    | zero => exact ⟨c, .last imports held, only⟩
    | succ i =>
      obtain ⟨d, paved, keys⟩ := ih (Nat.lt_of_succ_lt_succ proper)
      exact ⟨d, .through imports held only paved, keys⟩

end World

namespace Run

variable {w u w' : World} {b s : ScopeId} {x y name full : String} {xs : List String} {v : Value}

theorem setVariable_open (h : w.Open b (x :: xs)) (given : v ≠ .none) (outwards : Bool) :
    ∃ w', (setVariable b x v false outwards).run w = .done () w' ∧ w.GainedVariable w' b x v ∧
      w'.scopes.size = w.scopes.size := by
  have unbound (t) (ht : t ∈ if outwards then w.ancestry b else [b]) :
      w.importTargets t = [] ∧ (w.scope t).vars.contains x = false := by
    refine h.unbound x List.mem_cons_self t ?_
    cases outwards with
    | true => exact ht
    | false => exact List.mem_singleton.mp ht ▸ w.self_mem_ancestry b
  have here : w.bindingScope b x = b := by
    obtain ⟨rest, head⟩ := w.head_ancestry b
    simp [World.bindingScope, head, h.plain]
  let put (vars : Table Variable) : Table Variable := vars.put x { value := some v }
  have size : (w.setVars b put).scopes.size = w.scopes.size := by simp [World.setVars, World.modifyScope]
  refine ⟨(w.setVars b put).modifyMemory b Memory.forgotten, ?_, ⟨Nat.le_of_eq size.symm, ?_, fun t _ apart => ?_⟩, size⟩
  · unfold setVariable
    rw [Action.run_get_bind]
    simp only [here, h.plain, Bool.not_false, Bool.and_true]
    unfold bindIn
    split
    · exact absurd rfl given
    · rw [Action.run_liftM_bind_of_done (findBinding_of_unbound outwards unbound)]
      rfl
  · exact (w.scope_setVars b b put).trans (if_pos ⟨rfl, h.inside⟩)
  · exact (w.scope_setVars b t put).trans (if_neg fun same => apart same.1.symm)

theorem autoAllocate_open (h : w.Open b (x :: xs)) (distinct : x ∉ xs) :
    ∃ w', (autoAllocate b x).run w = .done (.closure w.scopes.size) w' ∧
      w.GainedVariable w' b x (.closure w.scopes.size) ∧ w'.Open w.scopes.size xs ∧ (w'.scope w.scopes.size).vars = {} := by
  obtain ⟨c, w₁, made⟩ : ∃ c w₁, (newChild b (some ("auto: " ++ x))).run w = .done c w₁ := ⟨_, _, rfl⟩
  obtain ⟨rfl, size, new, same⟩ := World.scope_of_newScope made
  have around : w₁.ancestry w.scopes.size = w.scopes.size :: w.ancestry b := World.ancestry_of_newScope made rfl h.inside
  have older (t) (ht : t ∈ w.ancestry b) : t < w.scopes.size := World.lt_of_mem_ancestry h.inside ht
  have near : w₁.ancestry b = w.ancestry b := World.ancestry_eq fun t ht => by rw [same t (older t ht)]
  have here : w₁.Open b (x :: xs) := by
    refine ⟨size ▸ Nat.lt_succ_of_lt h.inside, by rw [same b h.inside]; exact h.plain, fun y hy t ht => ?_⟩
    rw [World.importTargets, same t (older t (near ▸ ht))]
    exact h.unbound y hy t (near ▸ ht)
  have apart : w.scopes.size ≠ b := Nat.ne_of_gt h.inside
  have more : w.scopes.size < w₁.scopes.size := size ▸ Nat.lt_succ_self _
  obtain ⟨w', stored, gained, size'⟩ := setVariable_open here (v := .closure w.scopes.size) (by simp) true
  have child : w'.scope w.scopes.size = w₁.scope w.scopes.size := gained.others _ more apart
  have parent (t) (ht : t ∈ w₁.ancestry w.scopes.size) : (w'.scope t).parent = (w₁.scope t).parent := by
    by_cases above : t = b
    · rw [above, gained.gained]
    · rw [gained.others t (World.lt_of_mem_ancestry more ht) above]
  have chain : w'.ancestry w.scopes.size = w.scopes.size :: w.ancestry b := (World.ancestry_eq parent).trans around
  refine ⟨w', ?_, ⟨Nat.le_trans (Nat.le_of_lt more) gained.size, ?_, fun t ht other => ?_⟩,
    ⟨size' ▸ more, by rw [child, new], fun y hy t ht => ?_⟩, by rw [child, new]⟩
  · unfold autoAllocate
    rw [Action.run_liftM_bind_of_done made, Action.run_bind_of_done stored]
    rfl
  · rw [gained.gained, same b h.inside]
  · rw [gained.others t (Nat.lt_trans ht more) other, same t ht]
  · rw [chain] at ht
    rcases List.mem_cons.mp ht with rfl | above
    · rw [World.importTargets, child, new]
      exact ⟨rfl, rfl⟩
    · have inside : t < w₁.scopes.size := Nat.lt_trans (older t above) more
      obtain ⟨imports, free⟩ := here.unbound y (List.mem_cons_of_mem x hy) t (near ▸ above)
      refine ⟨(gained.importTargets inside).trans imports, ?_⟩
      by_cases self : t = b
      · have other : x ≠ y := fun equal => distinct (equal ▸ hy)
        rw [self] at free ⊢
        rw [gained.gained, Table.contains, Table.get?_put_ne _ _ other]
        exact free
      · rw [gained.others t inside self]
        exact free

def specialNames : List String := ["this", "super", "global"] ++ specialFields

theorem segmentValue_of_ordinary (view : View) (k : Walk) (ordinary : x ∉ specialNames)
    (value : (getVariable b x true).run w = .done v w') (special : Bool) :
    (segmentValue view k b x special).run w = .done (v, k.depth) w' := by
  have plain : (getVariable b x true >>= fun v => pure (v, k.depth)).run w = .done (v, k.depth) w' :=
    (Action.run_bind_of_done value).trans rfl
  unfold segmentValue
  rw [Action.run_get_bind]
  repeat' split
  all_goals first
    | exact plain
    | simp [specialNames, specialFields] at ordinary

theorem getVariable_own {y : Variable} (imports : w.importTargets b = []) (held : (w.scope b).vars.get? x = some y)
    (outwards : Bool) : (getVariable b x outwards).run w = .done (y.value.getD .none) w := by
  have known : (w.scope b).vars.contains x := by rw [Table.contains, held]; rfl
  refine getVariable_of_found (t := b) ?_ held
  change (firstSome (if outwards then w.ancestry b else [b]) fun t => localBindingOf t x).run w = _
  obtain ⟨around, head⟩ := w.head_searched b outwards
  rw [head]
  unfold firstSome
  rw [Action.run_bind_of_done (localBindingOf_own (.inr imports) known)]
  rfl

theorem scopes_leadingClass {found : Option (Nat × Value)}
    (h : (leadingClass s xs).run w = .done found u) : u.scopes = w.scopes := by
  unfold leadingClass at h
  generalize (if xs = [""] then [] else (List.range xs.length).map (· + 1)) = counts at h
  induction counts generalizing w with
  | nil =>
    cases h
    rfl
  | cons i rest ih =>
    unfold firstSome at h
    obtain ⟨r, w₂, searched, h⟩ := Comp.bind_done_iff.mp h
    obtain ⟨c, w₁, asked, found⟩ := Comp.bind_done_iff.mp searched
    have kept : w₁.scopes = w.scopes := (scopes_getClass s _ w).of_done asked
    cases c with
    | none =>
      cases found
      exact (ih h).trans kept
    | some c =>
      cases found
      cases h
      exact kept

section Walk

variable {may : May} [May.Within .retype may] {field : Value → String → Action may .fault Value} {view : View} {k : Walk}

/-- In the scope of a closure, a segment that stands for something is read. Nothing at all can be
read as well. -/
theorem closureStep_of_held (ordinary : x ∉ specialNames) (imports : w.importTargets b = [])
    (held : (w.scope b).vars.get? x = some { value := some v }) (given : v ≠ .none) :
    (closureStep view field s b full false false k x).run w =
      .done (v, { k with rest := k.rest.tail, last := some x, base := some v }) w := by
  have read (outwards : Bool) := getVariable_own imports held outwards
  unfold closureStep
  simp only [Bool.false_eq_true, if_false]
  rw [Action.run_liftM_bind_of_done (segmentValue_of_ordinary view k ordinary (read true) true)]
  dsimp only
  split
  · exact Evaluator.stepTo_of_some _ given w
  · simp only [Bool.false_and, Bool.false_eq_true, if_false]
    unfold stepFrom
    have id : (Run.read fun w => w.classId? (.closure b)).run w = .done none w := rfl
    rw [Action.run_liftM_bind_of_done id]
    simp only [Bool.false_eq_true, if_false]
    rw [Action.run_liftM_bind_of_done (read false)]
    exact Evaluator.stepTo_of_some _ given w

theorem closureStep_of_unbound (ordinary : x ∉ specialNames) (unbound : w.Unbound b x) {c : ScopeId}
    (made : (autoAllocate b x).run w = .done (.closure c) w') :
    (closureStep view field s b full false true k x).run w =
      .done (.closure c, { k with rest := k.rest.tail, last := some x, base := some (.closure c) }) w' := by
  unfold closureStep
  simp only [Bool.false_eq_true, if_false]
  rw [Action.run_liftM_bind_of_done (segmentValue_of_ordinary view k ordinary (getVariable_of_unbound unbound) true)]
  simp only [Value.isVoid, Bool.not_true, Bool.not_false, Bool.and_self, Bool.false_eq_true, if_false, if_true]
  rw [Action.run_liftM_bind_of_done made]
  rfl

theorem step_of_closure (base : k.base = some (.closure b)) (rest : k.rest = x :: xs) (allocating : Bool) :
    step view field s full false allocating k = closureStep view field s b full false allocating k x := by
  unfold step
  rw [base, rest]
  rfl

theorem walk_of_paved (h : w.Paved v b xs) (given : v ≠ .none) (ordinary : ∀ x ∈ xs, x ∉ specialNames) {fuel : Nat}
    (enough : xs.length ≤ fuel) (rest : k.rest = xs) (base : k.base = some (.closure b)) :
    (walk view field s full false fuel k).run w = .done v w := by
  induction h generalizing fuel k with
  | @last b x imports held =>
    cases fuel with
    | zero => cases enough
    | succ fuel =>
      have step : (closureStep view field s b full false false k x).run w = _ :=
        closureStep_of_held (ordinary x List.mem_cons_self) imports held given
      unfold walk
      rw [step_of_closure base rest, Action.run_bind_of_done step, rest]
      rfl
  | @through b c x y xs imports held only later ih =>
    cases fuel with
    | zero => cases enough
    | succ fuel =>
      have step : (closureStep view field s b full false false k x).run w = _ :=
        closureStep_of_held (ordinary x List.mem_cons_self) imports held (by simp)
      unfold walk
      rw [step_of_closure base rest, Action.run_bind_of_done step, rest]
      exact ih (fun z hz => ordinary z (List.mem_cons_of_mem x hz)) (Nat.le_of_succ_le_succ enough) rfl rfl

variable (s full field view) in

theorem walkToOwner_open (k : Walk) (given : v ≠ .none) (h : w.Open b (x :: xs)) (distinct : (x :: xs).Nodup)
    (ordinary : ∀ y ∈ x :: xs, y ∉ specialNames) {fuel : Nat} (enough : xs.length < fuel) (rest : k.rest = x :: xs)
    (base : k.base = some (.closure b)) (last : k.last ≠ some "super") :
    ∃ o y k' w₁ w' z, (walkToOwner view field s full fuel (.closure b) k).run w =
      .done (.closure o, k') w₁ ∧ k'.rest = [y] ∧
      k'.last ≠ some "super" ∧ y ∉ specialNames ∧ (setVariable o y v false false).run w₁ = .done () w' ∧
      w.GainedVariable w' b x z ∧ w'.Paved v b (x :: xs) := by
  induction xs generalizing w b x k fuel with
  | nil =>
    obtain ⟨fuel, rfl⟩ : ∃ n, fuel = n + 1 := ⟨fuel - 1, by omega⟩
    obtain ⟨w', stored, gained, -⟩ := setVariable_open h given false
    have imports : w'.importTargets b = [] := (gained.importTargets h.inside).trans h.imports
    refine ⟨b, x, k, w, w', v, ?_, rest, last, ordinary x List.mem_cons_self, stored, gained, .last imports gained.held⟩
    unfold walkToOwner
    rw [if_pos (by simp [rest])]
    rfl
  | cons y xs ih =>
    obtain ⟨fuel, rfl⟩ : ∃ n, fuel = n + 1 := ⟨fuel - 1, by omega⟩
    obtain ⟨new, others⟩ := List.nodup_cons.mp distinct
    obtain ⟨w₀, made, gained, free, empty⟩ := autoAllocate_open h new
    have step : (closureStep view field s b full false true k x).run w = _ :=
      closureStep_of_unbound (ordinary x List.mem_cons_self) (h.unbound x List.mem_cons_self) made
    obtain ⟨o, z, k', w₁, w', u, walked, left, named, fresh, stored, filled, paved⟩ :=
      ih { k with rest := k.rest.tail, last := some x, base := some (.closure w.scopes.size) } free others
        (fun z hz => ordinary z (List.mem_cons_of_mem x hz)) (Nat.lt_of_succ_lt_succ enough) (by rw [rest]; rfl) rfl
        fun equal => ordinary x List.mem_cons_self (Option.some.inj equal ▸ by decide)
    obtain ⟨whole, paved⟩ := World.Paved.under h gained (Nat.le_refl _) empty filled paved
    refine ⟨o, z, k', w₁, w', _, ?_, left, named, fresh, stored, whole, paved⟩
    unfold walkToOwner
    rw [if_neg (by simp [rest]), step_of_closure base rest, Action.run_bind_of_done step]
    exact walked

end Walk

theorem firstStep_of_unbound {view : View} {rest : List String} (ordinary : x ∉ specialNames) (unbound : w.Unbound s x)
    (none : (leadingClass s (x :: rest)).run w = .done none u) {c : ScopeId}
    (made : (autoAllocate s x).run u = .done (.closure c) w') :
    (firstStep view s false true { rest := x :: rest } x).run w =
      .done (.closure c, { rest, last := some x, base := some (.closure c) }) w' := by
  unfold firstStep
  simp only [Bool.false_eq_true, if_false]
  rw [Action.run_liftM_bind_of_done (segmentValue_of_ordinary view _ ordinary (getVariable_of_unbound unbound) false)]
  simp only [Value.isVoid, Bool.not_true, Bool.false_eq_true, if_false]
  rw [Action.run_liftM_bind_of_done none]
  simp only [Bool.not_false, Bool.and_self, if_true]
  rw [Action.run_bind_of_done made]
  rfl

end Run

theorem Path.isCompound_join {xs : List String} (long : 1 < xs.length)
    (undotted : ∀ x ∈ xs, '.' ∉ x.toList) : isCompound (join xs) = true := by
  rw [← Bool.not_eq_false]
  intro plain
  have single : segments (join xs) = [join xs] := segments_of_plain (by simpa [isCompound] using plain)
  rw [segments_join (List.ne_nil_of_length_pos (Nat.lt_of_succ_lt long)) undotted] at single
  rw [single] at long
  exact Nat.lt_irrefl 1 long

namespace Evaluator

variable {ev : Evaluator} {view : View} {w u : World} {s : ScopeId} {xs : List String} {v : Value}

theorem nameIn_of_paved (h : w.Paved v s xs) (given : v ≠ .none) (defined : v = .void → 1 < xs.length)
    (undotted : ∀ x ∈ xs, '.' ∉ x.toList) (ordinary : ∀ x ∈ xs, x ∉ Run.specialNames) :
    (ev.nameIn view s (Path.join xs)).run w = .done v w := by
  have start {x : String} (hx : x ∈ xs) : x ∉ ["this", "super", "global"] := fun special =>
    ordinary x hx (List.mem_append_left _ special)
  cases h with
  | @last _ x imports held =>
    have single : Path.join [x] = x := by simp [Path.join]
    rw [single]
    exact nameIn_of_value ev view (undotted x List.mem_cons_self) (start List.mem_cons_self)
      (Run.getVariable_own imports held true) (fun void => absurd (defined void) (Nat.lt_irrefl 1)) given
  | @through _ c x y rest imports held only later =>
    have first := (step_of_variable ev view (start List.mem_cons_self) (Run.getVariable_own imports held true) (by simp)
      (Path.join (x :: y :: rest)) false (y :: rest)).trans (stepTo_of_some _ (by simp) w)
    unfold nameIn Run.resolveName
    simp only [Path.segments_join (List.cons_ne_nil x _) undotted]
    unfold Run.walk
    rw [Action.run_bind_of_done first]
    exact Run.walk_of_paved later given (fun z hz => ordinary z (List.mem_cons_of_mem x hz)) (Nat.le_succ _) rfl rfl

/-- An assignment to a dotted name of which no segment stands for anything, and no leading group of
them for a class, makes one variable of the scope for the first segment and changes nothing else of
the scopes that are there. Then the name stands for the value, and each shorter part of it for a
closure that holds the next segment and nothing else. -/
theorem assignment_allocates_path (ev : Evaluator) (view : View) {w u : World} {s : ScopeId} {xs : List String} {v : Value}
    (free : w.Open s xs) (long : 1 < xs.length) (distinct : xs.Nodup) (undotted : ∀ x ∈ xs, '.' ∉ x.toList)
    (ordinary : ∀ x ∈ xs, x ∉ Run.specialNames)
    (noClass : (Run.leadingClass s xs).run w = .done none u) (given : v ≠ .none) :
    ∃ p w₁ w' c, (ev.placeIn view s (Path.join xs)).run w = .done p w₁ ∧ (p.assign ev v false).run w₁ = .done v w' ∧
      w.GainedVariable w' s (xs.headD "") (.closure c) ∧
      ∀ view', (ev.nameIn view' s (Path.join xs)).run w' = .done v w' ∧
        ∀ i (_ : i + 1 < xs.length), ∃ b, (ev.nameIn view' s (Path.join (xs.take (i + 1)))).run w' = .done (.closure b) w' ∧
          (w'.scope b).vars.keys = [xs[i + 1]] := by
  obtain ⟨x, y, rest, rfl⟩ : ∃ x y rest, xs = x :: y :: rest := by
    rcases xs with _ | ⟨x, _ | ⟨y, rest⟩⟩
    · simp at long
    · simp at long
    · exact ⟨x, y, rest, rfl⟩
  obtain ⟨new, others⟩ := List.nodup_cons.mp distinct
  have same := Run.scopes_leadingClass noClass
  have here := free.of_scopes same
  obtain ⟨w₀, made, gained, inner, empty⟩ := Run.autoAllocate_open here new
  have super : some x ≠ some "super" := fun equal => ordinary x List.mem_cons_self (Option.some.inj equal ▸ by decide)
  let k : Walk := { rest := y :: rest, last := some x, base := some (.closure u.scopes.size) }
  obtain ⟨o, z, k', w₁, w', a, walked, left, named, fresh, stored, filled, paved⟩ :=
    Run.walkToOwner_open s (Path.join (x :: y :: rest)) ev.hostField view k given inner others
      (fun z hz => ordinary z (List.mem_cons_of_mem x hz)) (Nat.lt_succ_of_lt (Nat.lt_succ_self _)) rfl rfl super
  have first : (Run.step view ev.hostField s (Path.join (x :: y :: rest)) false true { rest := x :: y :: rest }).run w =
      .done (.closure u.scopes.size, k) w₀ :=
    Run.firstStep_of_unbound (ordinary x List.mem_cons_self) (free.unbound x List.mem_cons_self) noClass made
  have found : (Run.walkToOwner view ev.hostField s (Path.join (x :: y :: rest)) ((x :: y :: rest).length + 1) .void
      { rest := x :: y :: rest }).run w = .done (.closure o, k') w₁ := by
    unfold Run.walkToOwner
    rw [if_neg (by simp), Action.run_bind_of_done first]
    exact walked
  have place : (ev.placeIn view s (Path.join (x :: y :: rest))).run w = .done (.named o z true) w₁ := by
    unfold placeIn Run.resolvePlace
    simp only [Path.isCompound_join long undotted, Bool.not_true, Bool.false_eq_true, if_false,
      Path.segments_join (List.cons_ne_nil x _) undotted]
    rw [Action.run_liftM_bind_of_done (Comp.catching_of_done found)]
    have owned : (Run.fieldPlace (Path.join (x :: y :: rest)) k' (.closure o) z).run w₁ = .done (.named o z true) w₁ := by
      have allowed : Run.specialFields.contains z = false := by
        simpa using fun special => fresh (List.mem_append_right _ special)
      unfold Run.fieldPlace
      rw [Action.run_liftM_bind_of_done (x := Run.get) rfl]
      simp only [allowed, Bool.false_eq_true, if_false, named, ne_eq, not_false_eq_true, decide_true]
      rfl
    simp only [left]
    exact owned
  have assigned : (Place.assign ev (.named o z true) v false).run w₁ = .done v w' :=
    Action.run_liftM_bind_of_done (x := Run.setVariable o z v false false) stored
  obtain ⟨whole, read⟩ := World.Paved.under here gained (Nat.le_refl _) empty filled paved
  refine ⟨.named o z true, w₁, w', u.scopes.size, place, assigned, whole.of_scopes same,
    fun view' => ⟨?_, fun i proper => ?_⟩⟩
  · exact nameIn_of_paved read given (fun _ => long) undotted ordinary
  · obtain ⟨b, paved, keys⟩ := read.take proper
    exact ⟨b, nameIn_of_paved paved (by simp) (by simp) (fun z hz => undotted z (List.mem_of_mem_take hz))
      (fun z hz => ordinary z (List.mem_of_mem_take hz)), keys⟩

/-- In a scope without variables, a value for `a.b.c` makes `a`, and `a.b` is a closure that holds
`c` then. -/
theorem assignment_allocates_path_three : ∃ p w₁ w' c b,
    (exhausted.placeIn {} 0 "a.b.c").run .bare = .done p w₁ ∧
      (p.assign exhausted (.ofInt 1) false).run w₁ = .done (.ofInt 1) w' ∧ World.bare.GainedVariable w' 0 "a" (.closure c) ∧
      (exhausted.nameIn {} 0 "a.b.c").run w' = .done (.ofInt 1) w' ∧
      (exhausted.nameIn {} 0 "a.b").run w' = .done (.closure b) w' ∧ (w'.scope b).vars.keys = ["c"] := by
  have free : World.bare.Open 0 ["a", "b", "c"] := by
    refine ⟨by decide, rfl, fun x _ t ht => ?_⟩
    obtain rfl : t = 0 := by simpa [World.ancestry, World.nearestScopes] using ht
    exact ⟨rfl, rfl⟩
  obtain ⟨r, u, run, none⟩ := Outcome.exists_of_doneWith (p := fun r _ => r.isNone)
    (o := (Run.leadingClass 0 ["a", "b", "c"]).run .bare) rfl
  obtain rfl := Option.isNone_iff_eq_none.mp none
  obtain ⟨p, w₁, w', c, place, assigned, gained, reads⟩ := assignment_allocates_path exhausted {} free (by decide)
    (by decide) (by decide) (by decide) run (v := .ofInt 1) (fun equal => by cases equal)
  obtain ⟨whole, parts⟩ := reads {}
  obtain ⟨b, part, keys⟩ := parts 1 (by decide)
  exact ⟨p, w₁, w', c, b, place, assigned, gained, whole, part, keys⟩

end Evaluator

end ScriptCore
