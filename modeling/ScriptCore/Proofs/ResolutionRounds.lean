import ScriptCore.Proofs.DottedNames

namespace ScriptCore

namespace Path

theorem intercalate_split (l : List Char) : ['.'].intercalate (split l) = l := by
  induction l with
  | nil => rfl
  | cons c l ih =>
    unfold split
    cases parts : split l with
    | nil =>
      obtain rfl : [] = l := by simpa [parts] using ih
      cases parts
    | cons part rest =>
      rw [parts] at ih
      by_cases dot : c = '.'
      · simp [dot, List.intercalate_cons_cons, ih]
      · simp [dot, List.intercalate_cons_cons_left, ih]

theorem join_segments (p : String) : join (segments p) = p := by
  apply String.toList_inj.mp
  rw [join, String.toList_intercalate, segments, List.map_map]
  simpa [Function.comp_def] using intercalate_split p.toList

theorem segments_join_drop {p : String} {i : Nat} (more : i < (segments p).length) :
    segments (join ((segments p).drop i)) = (segments p).drop i :=
  segments_join_of_subset (by simpa using more) (List.drop_subset i _)

theorem join_take_drop {p : String} {i : Nat} (first : 0 < i) (more : i < (segments p).length) :
    join ((segments p).take i) ++ "." ++ join ((segments p).drop i) = p := by
  have front : (segments p).take i ≠ [] := List.ne_nil_of_length_pos (by rw [List.length_take]; omega)
  have last : (segments p).drop i ≠ [] := by simpa using more
  rw [join, join, ← String.intercalate_append_of_ne_nil front last, List.take_append_drop]
  exact join_segments p

theorem length_segments (p : String) : (segments p).length = max 1 (count p) := by
  unfold count
  by_cases empty : p.isEmpty
  · rw [if_pos empty, String.isEmpty_iff.mp empty]
    rfl
  · have positive : (segments p).length ≠ 0 := by
      intro none
      have same := join_segments p
      rw [List.length_eq_zero_iff.mp none] at same
      exact empty (same ▸ rfl)
    rw [if_neg empty]
    omega

theorem leading_trailing {p : String} {i : Nat} (first : 0 < i) (more : i < count p) : ∃ a b,
    leading? p i = some a ∧ trailing? p (count p - i) = some b ∧ a ++ "." ++ b = p := by
  have length := length_segments p
  refine ⟨_, _, if_neg (by omega), if_neg (by omega), ?_⟩
  rw [Int.toNat_natCast, show (segments p).length - ((count p : Int) - i).toNat = i by omega]
  exact join_take_drop first (by omega)

end Path

theorem Comp.exhausted_of_bind {σ α β : Type} {x : Comp σ α} {f : α → Comp σ β} {s : σ} (h : (x >>= f) s = .exhausted) :
    x s = .exhausted ∨ ∃ a s', x s = .done a s' ∧ f a s' = .exhausted := by
  cases hx : x s with
  | done a s' =>
    rw [bind_of_done hx] at h
    exact .inr ⟨a, s', rfl, h⟩
  | failed e s' =>
    rw [bind_of_failed hx] at h
    cases h
  | exhausted => exact .inl rfl

namespace Run

variable {w : World} {k : Walk}

variable {may : May} [May.Within .retype may] {view : View} {field : Value → String →
  Action may .fault Value} {s b : ScopeId}
  {full : String} {classOnly allocating : Bool}

/-- So many rounds, one after the other. A round needs more segments than the loop leaves over. -/
inductive Rounds (round : Walk → Run (Value × Walk)) (left : Nat) : Nat → Walk → World → Walk → World → Prop
  | none {k : Walk} {w : World} : Rounds round left 0 k w k w
  | more {n : Nat} {k k₁ k₂ : Walk} {w w₁ w₂ : World} {v : Value} (goes : left < k.rest.length)
      (one : round k w = .done (v, k₁) w₁) (others : Rounds round left n k₁ w₁ k₂ w₂) : Rounds round left (n + 1) k w k₂ w₂

def Stuck (round : Walk → Run (Value × Walk)) (left : Nat) (k : Walk) (w : World) : Prop :=
  ∃ n k' w', Rounds round left n k w k' w' ∧ left < k'.rest.length ∧ round k' w' = .exhausted

theorem Stuck.more {round : Walk → Run (Value × Walk)} {left : Nat} {k₁ : Walk} {w₁ : World} {v : Value}
    (goes : left < k.rest.length) (one : round k w = .done (v, k₁) w₁) (h : Stuck round left k₁ w₁)
      : Stuck round left k w := by
  obtain ⟨n, k', w', rounds, more, stuck⟩ := h
  exact ⟨n + 1, k', w', .more goes one rounds, more, stuck⟩

theorem length_of_round {k₁ : Walk} {w₁ : World} {v : Value} (goes : 0 < k.rest.length)
    (one : (step view field s full classOnly allocating k).run w = .done (v, k₁) w₁) : k₁.rest.length < k.rest.length := by
  obtain ⟨i, rest, -, given⟩ := (takes_step view w).of_done one
  have first := (given (List.ne_nil_of_length_pos goes)).1
  rw [rest, List.length_drop]
  omega

theorem Rounds.count_le {n left : Nat} {k' : Walk} {w' : World}
    (h : Rounds (fun k => (step view field s full classOnly allocating k).run) left n k w k' w') : n ≤ k.rest.length := by
  induction h with
  | none => exact Nat.zero_le _
  | more goes one _ ih => exact Nat.lt_of_le_of_lt ih (length_of_round (Nat.zero_lt_of_lt goes) one)

theorem stuck_of_walk {fuel : Nat} (enough : k.rest.length ≤ fuel) (given : 0 < k.rest.length)
    (h : (walk view field s full classOnly fuel k).run w = .exhausted) :
    Stuck (fun k => (step view field s full classOnly false k).run) 0 k w := by
  induction fuel generalizing k w with
  | zero => omega
  | succ fuel ih =>
    unfold walk at h
    rcases Comp.exhausted_of_bind h with stuck | ⟨⟨v, k₁⟩, w₁, one, h⟩
    · exact ⟨0, k, w, .none, given, stuck⟩
    · have fewer := length_of_round given one
      dsimp only at h
      split at h
      · cases h
      · next more => exact .more given one (ih (by omega) (by simpa [List.length_pos_iff] using more) h)

theorem stuck_of_walkToOwner {fuel : Nat} (enough : k.rest.length < fuel) {v : Value}
    (h : (walkToOwner view field s full fuel v k).run w = .exhausted) :
    Stuck (fun k => (step view field s full false true k).run) 1 k w := by
  induction fuel generalizing k v w with
  | zero => omega
  | succ fuel ih =>
    unfold walkToOwner at h
    split at h
    · cases h
    · next more =>
      have goes : 1 < k.rest.length := Nat.lt_of_not_le more
      rcases Comp.exhausted_of_bind h with stuck | ⟨⟨v₁, k₁⟩, w₁, one, h⟩
      · exact ⟨0, k, w, .none, goes, stuck⟩
      · have fewer := length_of_round (Nat.zero_lt_of_lt goes) one
        exact .more goes one (ih (by omega) h)

theorem Took.path {p : String} {r : Value × Walk} (h : Took k r w) (path : k.rest = Path.segments p) :
    ∃ group, r.2.last = some group ∧ (r.2.rest = [] ∧ group = p ∨
      ∃ q, r.2.rest = Path.segments q ∧ Path.count q < Path.count p ∧ group ++ "." ++ q = p) := by
  have length := Path.length_segments p
  obtain ⟨i, rest, -, given⟩ := h
  obtain ⟨first, most, last⟩ := given (List.ne_nil_of_length_pos (by rw [path]; omega))
  rw [path] at most rest last
  refine ⟨_, last, ?_⟩
  rcases Nat.lt_or_eq_of_le most with more | all
  · have left := Path.segments_join_drop more
    refine .inr ⟨_, rest.trans left.symm, ?_, Path.join_take_drop first more⟩
    have after := congrArg List.length left
    rw [Path.length_segments, List.length_drop] at after
    omega
  · rw [all, List.drop_length] at rest
    rw [all, List.take_length]
    exact .inl ⟨rest, Path.join_segments p⟩

/-- A round of a resolution fails, or takes a group of leading segments off the path, and the rest
has fewer segments. So there are at most as many rounds as segments, and the loops for values and
for places run out of them only where one of the rounds does not end. -/
theorem resolution_takes_segments {may : May} [May.Within .retype may] (view : View)
    (field : Value → String → Action may .fault Value) (s : ScopeId) (name : String) :
    let round (classOnly allocating : Bool) (k : Walk) := (step view field s name classOnly allocating k).run
    let start : Walk := { rest := Path.segments name }
    (∀ (classOnly allocating : Bool) (p : String) (k : Walk) (w : World), k.rest = Path.segments p →
      (round classOnly allocating k).Meets w (fun r _ => ∃ group, r.2.last = some group ∧ (r.2.rest = [] ∧ group = p ∨
        ∃ q, r.2.rest = Path.segments q ∧ Path.count q < Path.count p ∧ group ++ "." ++ q = p)) fun _ _ => True) ∧
    (∀ classOnly allocating left n w k' w', Rounds (round classOnly allocating) left n start w k' w' →
      n ≤ max 1 (Path.count name)) ∧
    (∀ classOnly w, (resolveName view field s name classOnly).run w = .exhausted → Stuck (round classOnly false) 0 start w) ∧
    (∀ w, (walkToOwner view field s name (start.rest.length + 1) .void start).run w = .exhausted →
      Stuck (round false true) 1 start w) ∧
    ∀ i, 0 < i → i < Path.count name → ∃ a b, Path.leading? name i = some a ∧
      Path.trailing? name (Path.count name - i) = some b ∧ a ++ "." ++ b = name := by
  have length := Path.length_segments name
  intro round start
  refine ⟨fun c a p k w path => ?_, fun c a left n w k' w' rounds => ?_, fun c w h => ?_, fun w h => ?_,
    fun i first more => Path.leading_trailing first more⟩
  · exact (takes_step view w).imp fun r _ taken => taken.path path
  · exact length ▸ rounds.count_le
  · exact stuck_of_walk (Nat.le_succ _) (by simp only [start]; omega) h
  · exact stuck_of_walkToOwner (Nat.lt_succ_self _) h

theorem resolution_takes_segments_empty :
    let field (_ : Value) (name : String) : Action .retype .fault Value := fault (.notAClassName name)
    let start : Walk := { rest := ["a", "", "b"] }
    start.rest = Path.segments "a..b" ∧ ∃ r w, (step {} field 0 "a..b" false true start).run .bare = .done r w ∧
      r.2.rest = ["", "b"] ∧ ∃ group, r.2.last = some group ∧ (r.2.rest = [] ∧ group = "a..b" ∨
        ∃ q, r.2.rest = Path.segments q ∧ Path.count q < Path.count "a..b" ∧ group ++ "." ++ q = "a..b") := by
  intro field start
  have run : ((step {} field 0 "a..b" false true start).run .bare).doneWith fun r _ => r.2.rest == ["", "b"] := by decide
  obtain ⟨r, w, done, rest⟩ := Outcome.exists_of_doneWith run
  have path : start.rest = Path.segments "a..b" := by decide
  exact ⟨path, r, w, done, eq_of_beq rest,
    ((resolution_takes_segments {} field 0 "a..b").1 false true "a..b" start .bare path).of_done done⟩

end Run

end ScriptCore
