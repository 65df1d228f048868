import ScriptCore.Proofs.ArrayTrees

namespace ScriptCore

/-- The computation ends with the exception for negative sizes, which names the size. -/
def Outcome.RefusesSize {α : Type} (o : Outcome World α) (size : Int) : Prop :=
  ∃ i w, o = .failed (.thrown (.object i)) w ∧ Run.isFailureOf w (.thrown (.object i)) .negativeArraySizeError ∧
    w.exceptionArgs? (.object i) = some [.ofString (toString size)]

namespace Evaluator

/-- The size at which an allocation stops: the first one that is not positive, if it is negative. -/
def refusedSize? (sizes : List Int) : Option Int := (sizes.find? (· ≤ 0)).filter (· < 0)

theorem refusedSize?_cons (n : Int) (sizes : List Int) :
    refusedSize? (n :: sizes) = if 0 < n then refusedSize? sizes else if n < 0 then some n else none := by
  unfold refusedSize?
  by_cases positive : 0 < n
  · rw [List.find?_cons_of_neg (by simpa using positive), if_pos positive]
  · rw [List.find?_cons_of_pos (by simpa using positive), if_neg positive]
    simp [Option.filter]

theorem refusesSize_raise {α : Type} (size : Int) (w : World) :
    ((Run.raise ⟨.negativeArraySizeError, toString size⟩ : Plain α).run w).RefusesSize size := by
  refine ⟨_, _, rfl, ?_, ?_⟩
  · simp only [Run.isFailureOf, World.isInstance, World.classOf, World.obj, Array.getElem?_push_size, Option.getD_some]
    rfl
  · simp only [World.exceptionArgs?, World.itemsOf?, World.payload?, World.obj, Array.getElem?_push_size, Option.getD_some]
    rw [Array.getElem?_push, if_neg (by simp), Array.getElem?_push_size]
    rfl

/-- An allocation stops at a size, or makes an array, from every world. -/
def StopsAt (x : Plain Value) : Option Int → Prop
  | some m => ∀ w, (x.run w).RefusesSize m
  | none => ∀ w, ∃ v w', x.run w = .done v w'

theorem stopsAt_rows {x : Plain Value} {m : Option Int} (h : StopsAt x m) (c : Ty) (n : Nat) :
    StopsAt (do let items ← collect (List.range n) fun _ => x; Run.newArray c items) (if 0 < n then m else none) := by
  by_cases rows : 0 < n
  · rw [if_pos rows]
    cases m with
    | none =>
      intro w
      obtain ⟨vs, w₁, made⟩ := exists_collect (fun _ => h) (List.range n) w
      exact ⟨_, _, Action.run_bind_of_done made⟩
    | some m =>
      -- The first row is refused.
      intro w
      obtain ⟨i, u, failed, cls, args⟩ := h w
      obtain ⟨n, rfl⟩ := Nat.exists_eq_succ_of_ne_zero (Nat.ne_of_gt rows)
      refine ⟨i, u, ?_, cls, args⟩
      rw [List.range_succ_eq_map]
      exact Comp.bind_of_failed (Comp.bind_of_failed failed)
  · rw [if_neg rows, Nat.eq_zero_of_not_pos rows]
    exact fun _ => ⟨_, _, rfl⟩

theorem stopsAt_allocate (n : Int) (sizes : List Int) (unsized : Nat) (c : Ty) :
    StopsAt (allocate c ((n :: sizes).map some ++ List.replicate unsized none)) (refusedSize? (n :: sizes)) := by
  induction sizes generalizing n c with
  | nil =>
    rw [refusedSize?_cons]
    simp only [List.map_cons, List.map_nil, List.cons_append, List.nil_append]
    unfold allocate
    by_cases negative : n < 0
    · rw [if_pos negative, if_pos negative, if_neg (by omega)]
      exact refusesSize_raise n
    · rw [if_neg negative, if_neg negative, show refusedSize? [] = none from rfl, ite_self]
      cases unsized <;> exact fun _ => ⟨_, _, rfl⟩
  | cons m sizes ih =>
    rw [refusedSize?_cons]
    simp only [List.map_cons, List.cons_append]
    unfold allocate
    by_cases negative : n < 0
    · rw [if_pos negative, if_pos negative, if_neg (by omega)]
      exact refusesSize_raise n
    · have rows := fun inner => stopsAt_rows (ih m inner) c n.toNat
      rw [if_neg negative, if_neg negative]
      simpa using rows _

theorem refusedSize?_ne_none {sizes : List Int} (positive : 0 ∉ sizes) {m : Int} (given : m ∈ sizes)
    (negative : m < 0) : refusedSize? sizes ≠ none := by
  have stopped : (sizes.find? (· ≤ 0)).isSome := List.find?_isSome.mpr ⟨m, given, decide_eq_true (Int.le_of_lt negative)⟩
  obtain ⟨k, found⟩ := Option.isSome_iff_exists.mp stopped
  have low : k ≤ 0 := by simpa using List.find?_some found
  have other : k ≠ 0 := fun zero => positive (zero ▸ List.mem_of_find?_eq_some found)
  have stops : k < 0 := by omega
  simp [refusedSize?, found, Option.filter, stops]

/-- An allocation refuses the first size that is not positive, if it is negative, and makes an array
if it is not. Where no size is zero, it fails just if there is a negative one, wherever that stands.
-/
theorem allocation_refuses_negative_sizes (c : Ty) (n : Int) (sizes : List Int) (unsized : Nat)
    (w : World) : let o := (allocate c ((n :: sizes).map some ++ List.replicate unsized none)).run w
    (∀ m, refusedSize? (n :: sizes) = some m → o.RefusesSize m ∧ m ∈ n :: sizes ∧ m < 0) ∧
    (refusedSize? (n :: sizes) = none → o.isDone) ∧
    (0 ∉ n :: sizes → ((∃ m, o.RefusesSize m) ↔ ∃ m ∈ n :: sizes, m < 0)) := by
  intro o
  have decided := stopsAt_allocate n sizes unsized c
  have refused (m : Int) (h : refusedSize? (n :: sizes) = some m) : o.RefusesSize m := by
    rw [h] at decided
    exact decided w
  have made (h : refusedSize? (n :: sizes) = none) : o.isDone := by
    rw [h] at decided
    obtain ⟨v, w', done⟩ := decided w
    exact congrArg Outcome.isDone done
  have listed (m : Int) (h : refusedSize? (n :: sizes) = some m) : m ∈ n :: sizes ∧ m < 0 := by
    obtain ⟨found, negative⟩ := Option.filter_eq_some_iff.mp h
    exact ⟨List.mem_of_find?_eq_some found, of_decide_eq_true negative⟩
  refine ⟨fun m h => ⟨refused m h, listed m h⟩, made, fun positive => ?_⟩
  · cases verdict : refusedSize? (n :: sizes) with
    | none =>
      refine iff_of_false ?_ ?_
      · rintro ⟨m, i, u, failed, -⟩
        have done := made verdict
        rw [failed] at done
        cases done
      · rintro ⟨m, given, negative⟩
        exact refusedSize?_ne_none positive given negative verdict
    | some m => exact iff_of_true ⟨m, refused m verdict⟩ ⟨m, listed m verdict⟩

theorem allocation_refuses_negative_sizes_inner :
    (0 : Int) ∉ [3, 2, -1] ∧ (∃ m ∈ [3, 2, (-1 : Int)], m < 0) ∧
    ∃ m, ((allocate (.prim .int) [some 3, some 2, some (-1), none]).run .bare).RefusesSize m := by
  have negative : ∃ m ∈ [3, 2, (-1 : Int)], m < 0 := by decide
  exact ⟨by decide, negative,
    ((allocation_refuses_negative_sizes (.prim .int) 3 [2, -1] 1 .bare).2.2 (by decide)).mpr negative⟩

/-- No row is made where the negative size would be seen. -/
theorem negative_size_after_zero_is_accepted :
    (∃ m ∈ [0, (-1 : Int)], m < 0) ∧ ((allocate (.array (.prim .int)) [some 0, some (-1)]).run .bare).isDone := by
  decide

end Evaluator

end ScriptCore
