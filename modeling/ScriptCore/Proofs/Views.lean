import ScriptCore.Proofs.Meets
import ScriptCore.Resolve

namespace ScriptCore

namespace Path

theorem split_append {a : List Char} (h : '.' ∉ a) (b : List Char) : split (a ++ '.' :: b) = a :: split b := by
  induction a with
  | nil => rfl
  | cons c a ih =>
    simp only [List.mem_cons, not_or] at h
    simp [split, Ne.symm h.1, ih h.2]

theorem split_eq_singleton {a : List Char} (h : '.' ∉ a) : split a = [a] := by
  induction a with
  | nil => rfl
  | cons c a ih =>
    simp only [List.mem_cons, not_or] at h
    simp [split, Ne.symm h.1, ih h.2]

theorem dot_notMem_of_mem_split {l part : List Char} (h : part ∈ split l) : '.' ∉ part := by
  induction l generalizing part with
  | nil =>
    cases List.mem_singleton.mp h
    exact List.not_mem_nil
  | cons c l ih =>
    unfold split at h
    split at h
    · rcases List.mem_cons.mp h with rfl | h
      · simp
      · exact ih h
    · next hc =>
      split at h
      · cases List.mem_singleton.mp h
        simpa using Ne.symm hc
      · next first rest hs =>
        rcases List.mem_cons.mp h with rfl | h
        · have hf : '.' ∉ first := ih (by simp [hs])
          simpa [hf] using Ne.symm hc
        · exact ih (by simp [hs, h])

theorem split_intercalate {parts : List (List Char)} (given : parts ≠ [])
    (h : ∀ part ∈ parts, '.' ∉ part) : split (['.'].intercalate parts) = parts := by
  induction parts with
  | nil => exact absurd rfl given
  | cons a rest ih =>
    cases rest with
    | nil => simpa using split_eq_singleton (h a List.mem_cons_self)
    | cons b rest =>
      have tail := ih (List.cons_ne_nil b rest) fun part hp => h part (List.mem_cons_of_mem a hp)
      rw [List.intercalate_cons_cons, List.append_assoc]
      exact (split_append (h a List.mem_cons_self) _).trans (congrArg (a :: ·) tail)

theorem segments_join {parts : List String} (given : parts ≠ [])
    (plain : ∀ x ∈ parts, '.' ∉ x.toList) : segments (join parts) = parts := by
  have undotted : ∀ part ∈ parts.map String.toList, '.' ∉ part := by simpa using plain
  rw [segments, join, String.toList_intercalate]
  change (split (['.'].intercalate (parts.map String.toList))).map String.ofList = parts
  rw [split_intercalate (by simpa using given) undotted]
  simp

theorem segments_join_of_subset {name : String} {parts : List String} (given : parts ≠ [])
    (sub : parts ⊆ segments name) : segments (join parts) = parts := by
  refine segments_join given fun x hx => ?_
  obtain ⟨part, there, rfl⟩ := List.mem_map.mp (sub hx)
  simpa using dot_notMem_of_mem_split there

theorem mem_segments_of_owner {name part : String} (h : part ∈ segments ((owner? name).getD ""))
    (given : part ≠ "") : part ∈ segments name := by
  have empty : part ∉ segments "" := by simpa [segments, split] using given
  unfold owner? at h
  split at h
  · unfold leading? at h
    split at h
    · exact absurd h empty
    · change part ∈ segments (join _) at h
      by_cases hn : (segments name).take ((count name : Int) - 1).toNat = []
      · rw [hn] at h
        exact absurd h empty
      · rw [segments_join_of_subset hn (List.take_subset _ _)] at h
        exact List.mem_of_mem_take h
  · exact absurd h empty

end Path

def View.asks (name : String) : Bool := (Path.segments name).contains "caller" || View.mentions name

theorem Comp.bind_congr_of_meets {σ α β : Type} {x : Comp σ α} {f g : α → Comp σ β} {s : σ} {Q : α → σ → Prop}
    {F : Failure → σ → Prop} (h : x.Meets s Q F) (same : ∀ a s', Q a s' → f a s' = g a s') : (x >>= f) s = (x >>= g) s := by
  cases hx : x s with
  | done a s' => rw [bind_of_done hx, bind_of_done hx, same a s' (h.of_done hx)]
  | failed e s' => rw [bind_of_failed hx, bind_of_failed hx]
  | exhausted => rw [bind_of_exhausted hx, bind_of_exhausted hx]

namespace Run

variable {may : May} {field : Value → String → Action may .fault Value} {s b : ScopeId}
  {full name : String} {classOnly allocating special : Bool} {k : Walk}

structure Unasking (segments : List String) : Prop where
  caller : "caller" ∉ segments
  callStack : "callStack" ∉ segments

theorem Unasking.mono {l l' : List String} (h : Unasking l) (sub : l' ⊆ l) : Unasking l' :=
  ⟨fun hm => h.caller (sub hm), fun hm => h.callStack (sub hm)⟩

theorem unasking_segments (h : View.asks name = false) : Unasking (Path.segments name) := by
  have h : "caller" ∉ Path.segments name ∧ "callStack" ∉ Path.segments name := by
    simpa [View.asks, View.mentions] using h
  exact ⟨h.1, h.2⟩

theorem unasking_owner (h : View.asks name = false) : Unasking (Path.segments ((Path.owner? name).getD "")) where
  caller hm := (unasking_segments h).caller (Path.mem_segments_of_owner hm (by decide))
  callStack hm := (unasking_segments h).callStack (Path.mem_segments_of_owner hm (by decide))

/-- A step takes a group of leading segments off the path, and more than one only where they name a
class. -/
def Took (k : Walk) (r : Value × Walk) (w' : World) : Prop :=
  ∃ i, r.2.rest = k.rest.drop i ∧ (1 < i → (w'.classId? r.1).isSome) ∧
    (k.rest ≠ [] → 0 < i ∧ i ≤ k.rest.length ∧ r.2.last = some (Path.join (k.rest.take i)))

def Takes (k : Walk) (x : Run (Value × Walk)) : Prop := ∀ w, x.Meets w (Took k) fun _ _ => True

theorem Takes.after {α : Type} {x : Run α} {f : α → Run (Value × Walk)} (h : ∀ a, Takes k (f a)) : Takes k (x >>= f) :=
  fun _ => Comp.meets_bind.mpr (Comp.meets_of_forall h fun _ _ => trivial)

theorem Took.subset {r : Value × Walk} {w : World} (h : Took k r w) : r.2.rest ⊆ k.rest := by
  obtain ⟨i, rest, -⟩ := h
  exact rest ▸ List.drop_subset i _

theorem takes_stepTo (j : Walk) (v : Value) : Takes k (stepTo j (k.rest.headD "") k.rest.tail v).run := by
  intro w
  unfold stepTo
  split
  · trivial
  · refine ⟨1, List.drop_one.symm, fun more => absurd more (by decide), fun given => ?_⟩
    cases rest : k.rest with
    | nil => exact absurd rest given
    | cons x xs => exact ⟨Nat.one_pos, by simp, by simp [Path.join]⟩

theorem takes_class {i : Nat} (first : 0 < i) (most : i ≤ k.rest.length) (c : Value) :
    Takes k (newClassId c >>= fun id => stepTo k (Path.join (k.rest.take i)) (k.rest.drop i) id :
      Action .lapsing .proper (Value × Walk)).run := by
  refine fun w => ⟨i, rfl, fun _ => ?_, fun _ => ⟨first, most, rfl⟩⟩
  change (World.classId? { w with objects := w.objects.push _ } (.object w.objects.size)).isSome
  simp [World.classId?, World.obj]

theorem meets_leadingClass (s : ScopeId) (xs : List String) (w : World) : (leadingClass s xs).run.Meets w
    (fun found _ => ∀ e ∈ found, 0 < e.1 ∧ e.1 ≤ xs.length) fun _ _ => True := by
  unfold leadingClass
  extract_lets counts
  have bounds : ∀ i ∈ counts, 0 < i ∧ i ≤ xs.length := by
    intro i hi
    simp only [counts] at hi
    split at hi
    · cases hi
    · obtain ⟨j, inside, rfl⟩ := List.mem_map.mp hi
      exact ⟨Nat.succ_pos j, List.mem_range.mp inside⟩
  generalize counts = counts at bounds
  induction counts generalizing w with
  | nil => simp [firstSome]
  | cons i rest ih =>
    unfold firstSome
    simp only [Action.meets_bind]
    refine Comp.meets_of_forall (fun c w' => ?_) fun _ _ => trivial
    cases c with
    | none => exact ih w' fun j hj => bounds j (List.mem_cons_of_mem _ hj)
    | some c => simpa using bounds i List.mem_cons_self

variable [May.Within .retype may]

theorem takes_stepFrom (base : Value) : Takes k (stepFrom field s full classOnly k base (k.rest.headD "")).run := by
  unfold stepFrom
  split
  · exact .after fun _ _ => trivial
  · exact fun _ => trivial
  · exact fun _ => trivial
  · refine .after fun id => ?_
    cases id with
    | some target => exact .after (takes_stepTo k)
    | none =>
      dsimp only
      split
      · exact fun _ => trivial
      · split <;> exact .after (takes_stepTo k)

theorem segmentValue_view (view view' : View) (k : Walk) (s : ScopeId) (special : Bool) (caller : name ≠ "caller")
    (callStack : name ≠ "callStack") : segmentValue view k s name special = segmentValue view' k s name special := by
  unfold segmentValue
  split
  · rfl
  · rfl
  · rfl
  · split
    · rfl
    · split
      all_goals first | rfl | contradiction

theorem step_view (h : Unasking k.rest) (view view' : View) :
    step view field s full classOnly allocating k = step view' field s full classOnly allocating k := by
  have head (asked : String) (given : asked ≠ "") (absent : asked ∉ k.rest) : k.rest.headD "" ≠ asked := by
    cases hr : k.rest with
    | nil => exact given.symm
    | cons x rest => exact fun he => absent (by rw [hr, ← he]; exact List.mem_cons_self)
  have same (t : ScopeId) (special : Bool) := segmentValue_view view view' k t special
    (head _ (by decide) h.caller) (head _ (by decide) h.callStack)
  unfold step firstStep closureStep
  simp only [same]

theorem takes_firstStep (view : View) : Takes k (firstStep view s classOnly allocating k (k.rest.headD "")).run := by
  unfold firstStep
  extract_lets next
  have goesOn (r : Value × Nat) : Takes k (next r).run := by
    dsimp only [next]
    split
    · exact takes_stepTo _ _
    · intro w
      refine Comp.meets_bind.mpr ((meets_leadingClass s k.rest w).imp fun found w bounds => ?_)
      cases found with
      | some e => exact takes_class (bounds e rfl).1 (bounds e rfl).2 e.2 w
      | none =>
        dsimp only
        split
        · exact Takes.after (takes_stepTo k) w
        · split
          · next short =>
            have last : k.rest.tail = [] := List.length_eq_zero_iff.mp (by rw [List.length_tail]; omega)
            exact last ▸ takes_stepTo k .void w
          · trivial
  split
  · exact .after goesOn
  · exact .after goesOn

theorem takes_closureStep (view : View) :
    Takes k (closureStep view field s b full classOnly allocating k (k.rest.headD "")).run := by
  unfold closureStep
  extract_lets next
  have goesOn (r : Value × Nat) : Takes k (next r).run := by
    dsimp only [next]
    split
    · exact takes_stepTo _ _
    · split
      · exact .after (takes_stepTo k)
      · exact takes_stepFrom _
  split
  · exact .after goesOn
  · exact .after goesOn

theorem takes_step (view : View) : Takes k (step view field s full classOnly allocating k).run := by
  unfold step
  dsimp only
  split
  · exact takes_firstStep view
  · exact takes_closureStep view
  · exact takes_stepFrom _

theorem walk_view (h : Unasking k.rest) (view view' : View) (fuel : Nat) :
    walk view field s full classOnly fuel k = walk view' field s full classOnly fuel k := by
  induction fuel generalizing k with
  | zero => rfl
  | succ fuel ih =>
    refine Action.ext (funext fun w => ?_)
    unfold walk
    rw [step_view h view view']
    refine Comp.bind_congr_of_meets (takes_step view' w) fun r w' taken => ?_
    dsimp only
    split
    · rfl
    · rw [ih (h.mono taken.subset)]

theorem walkToOwner_view (h : Unasking k.rest) (view view' : View) (fuel : Nat) (v : Value) :
    walkToOwner view field s full fuel v k = walkToOwner view' field s full fuel v k := by
  induction fuel generalizing k v with
  | zero => rfl
  | succ fuel ih =>
    unfold walkToOwner
    split
    · rfl
    · refine Action.ext (funext fun w => ?_)
      rw [step_view h view view']
      exact Comp.bind_congr_of_meets (takes_step view' w) fun r w' taken => by dsimp only; rw [ih (h.mono taken.subset)]

theorem resolveName_view (h : Unasking (Path.segments name)) (view view' : View) :
    resolveName view field s name classOnly = resolveName view' field s name classOnly := walk_view h view view' _

theorem resolvePlace_view {may' : May} [May.Within .retype may'] [May.Within .halting may']
    [May.Within may may'] (h : Unasking (Path.segments name)) (view view' : View) :
    (resolvePlace view field s name : Action may' .fault Place) = resolvePlace view' field s name := by
  unfold resolvePlace
  dsimp only
  rw [walkToOwner_view h view view']

end Run

end ScriptCore
