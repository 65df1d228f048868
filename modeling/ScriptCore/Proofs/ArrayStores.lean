import ScriptCore.Host.Access
import ScriptCore.Proofs.Beside
import ScriptCore.Proofs.Conformance
import ScriptCore.Proofs.Gives

namespace ScriptCore

namespace World

variable {w w' w'' : World} {i j k : ObjectId} {c : Ty} {items : List Value}

/-- Each array holds a list that no other array holds, and the elements conform to the component
type. -/
structure ArraysIntact (w : World) : Prop where
  held : ∀ i c e, (w.obj i).payload = .array c e →
    ∃ k items, e = .object k ∧ (w.obj k).payload = .list items ∧ ∀ v ∈ items, w.conforms v c
  apart : ∀ i j c d k, (w.obj i).payload = .array c (.object k) → (w.obj j).payload = .array d (.object k) → i = j

def SameShapes (w w' : World) : Prop :=
  ∀ i c items, w.array? (.object i) = some (c, items) →
    ∃ items', w'.array? (.object i) = some (c, items') ∧ items'.length = items.length

theorem SameShapes.trans (h : w.SameShapes w') (k : w'.SameShapes w'') : w.SameShapes w'' := by
  intro i c items array
  obtain ⟨items', array', same⟩ := h i c items array
  obtain ⟨items'', array'', same'⟩ := k i c items' array'
  exact ⟨items'', array'', same'.trans same⟩

theorem inside_of_payload (h : (w.obj i).payload ≠ .plain) : i < w.objects.size := by
  refine Nat.lt_of_not_le fun outside => h ?_
  rw [obj_of_size_le outside]
  rfl

theorem itemsOf?_of_payload (list : (w.obj k).payload = .list items) : w.itemsOf? (.object k) = some items := by
  simp only [itemsOf?, payload?, list]

theorem array?_of_payload (array : (w.obj i).payload = .array c (.object k)) (list : (w.obj k).payload = .list items)
    (core : w.isInstance (.object i) (.core .array)) : w.array? (.object i) = some (c, items) := by
  simp only [array?, payload?, array, core, if_true, itemsOf?_of_payload list, Option.getD_some]

namespace ArraysIntact

theorem of_none (bare : ∀ o ∈ w.objects, o.payload.component? = none) : w.ArraysIntact := by
  have none (i : ObjectId) (c : Ty) (e : Value) : (w.obj i).payload ≠ .array c e := by
    intro array
    have inside : i < w.objects.size := inside_of_payload (by simp [array])
    have plain := bare _ (Array.getElem_mem inside)
    rw [show w.objects[i] = w.obj i by simp [obj, inside], array] at plain
    cases plain
  exact ⟨fun i c e array => absurd array (none i c e), fun i j c d k array => absurd array (none i c _)⟩

theorem exists_of_array? (h : w.ArraysIntact) (array : w.array? (.object i) = some (c, items)) :
    w.isInstance (.object i) (.core .array) ∧
      ∃ k, (w.obj i).payload = .array c (.object k) ∧ (w.obj k).payload = .list items ∧ ∀ v ∈ items, w.conforms v c := by
  unfold array? at array
  split at array
  · next d e payload =>
    have payload : (w.obj i).payload = .array d e := Option.some.inj payload
    obtain ⟨k, held, rfl, list, conform⟩ := h.held i d e payload
    split at array
    · next core =>
      rw [itemsOf?_of_payload list] at array
      cases array
      exact ⟨core, k, payload, list, conform⟩
    · cases array
  · cases array

theorem of_adds (h : w.ArraysIntact) (added : w.Adds w') (lasting : w.Lasting w') : w'.ArraysIntact := by
  have before {i : ObjectId} {c : Ty} {k : ObjectId} (old : i < w.objects.size)
      (array : (w'.obj i).payload = .array c (.object k)) : (w.obj i).payload =
        .array c (.object k) ∧ k < w.objects.size := by
    rw [added.kept i old] at array
    obtain ⟨k', items, same, list, -⟩ := h.held i c _ array
    cases same
    exact ⟨array, inside_of_payload (by simp [list])⟩
  constructor
  · intro i c e array
    by_cases old : i < w.objects.size
    · rw [added.kept i old] at array
      obtain ⟨k, items, rfl, list, conform⟩ := h.held i c e array
      have inside : k < w.objects.size := inside_of_payload (by simp [list])
      exact ⟨k, items, rfl, by rw [added.kept k inside, list], fun v hv => lasting.conforms (conform v hv)⟩
    · obtain ⟨k, -, rfl, -, list⟩ := added.empty i c e (Nat.le_of_not_lt old) array
      exact ⟨k, [], rfl, list, fun _ hv => absurd hv List.not_mem_nil⟩
  · intro i j c d k hi hj
    by_cases oldi : i < w.objects.size <;> by_cases oldj : j < w.objects.size
    · exact h.apart i j c d k (before oldi hi).1 (before oldj hj).1
    · obtain ⟨k', -, same, new, -⟩ := added.empty j d _ (Nat.le_of_not_lt oldj) hj
      cases same
      exact absurd (before oldi hi).2 (Nat.not_lt_of_le new)
    · obtain ⟨k', -, same, new, -⟩ := added.empty i c _ (Nat.le_of_not_lt oldi) hi
      cases same
      exact absurd (before oldj hj).2 (Nat.not_lt_of_le new)
    · obtain ⟨k', hk, same, -, -⟩ := added.empty i c _ (Nat.le_of_not_lt oldi) hi
      obtain ⟨k'', hk', same', -, -⟩ := added.empty j d _ (Nat.le_of_not_lt oldj) hj
      cases same
      cases same'
      rw [hk, hk']

end ArraysIntact

theorem Spares.array? (h : w.Spares w') (intact : w.ArraysIntact) (lasting : w.Lasting w')
    (array : w.array? (.object i) = some (c, items)) : w'.array? (.object i) = some (c, items) := by
  obtain ⟨core, k, payload, list, -⟩ := intact.exists_of_array? array
  have hi : i < w.objects.size := inside_of_payload (by simp [payload])
  have hk : k < w.objects.size := inside_of_payload (by simp [list])
  exact array?_of_payload (by rw [h.kept i hi, payload]) (by rw [h.kept k hk, list]) (lasting.isInstance core)

/-- The value has been converted to the component type of an array and stored at a position that the
array has; nothing else was done to an object that was there. -/
inductive Store (w : World) (i : ObjectId) (n : Int) (value : Value) : World → Prop
  | mk {c : Ty} {k : ObjectId} {items : List Value} {x : Value} {w₁ w' : World}
      (array : (w.obj i).payload = .array c (.object k)) (list : (w.obj k).payload = .list items) (low : 0 ≤ n)
      (high : n < items.length) (converted : (Run.cast value c .assignment).run w = .done x w₁)
      (stored : (Run.setItems k (items.set n.toNat x)).run w₁ = .done () w') : Store w i n value w'

namespace Store

variable {n : Int} {value : Value} (h : w.Store i n value w')
include h

theorem exists_obj : ∃ c k items x w₁,
    (w.obj i).payload = .array c (.object k) ∧ (w.obj k).payload = .list items ∧ 0 ≤ n ∧ n < items.length ∧
    (Run.cast value c .assignment).run w = .done x w₁ ∧ w.Adds w₁ ∧ w.Lasting w₁ ∧ w₁.Lasting w' ∧ w₁.conforms x c ∧
    ∀ j, w'.obj j = if j = k then { w.obj k with payload := .list (items.set n.toNat x) } else w₁.obj j := by
  obtain @⟨c, k, items, x, w₁, _, array, list, low, high, converted, stored⟩ := h
  have added : w.Adds w₁ := (Run.OnlyAdds.cast value c .assignment w).of_done converted
  have conform : w₁.conforms x c := (Run.meets_cast value c .assignment w).of_done converted
  have calm : w.Calm w₁ := ((Run.cast value c .assignment).meets_calm w).of_done converted
  have calm' : w₁.Calm w' := ((Run.setItems k _).meets_calm w₁).of_done stored
  have inside : k < w.objects.size := inside_of_payload (by simp [list])
  refine ⟨c, k, items, x, w₁, array, list, low, high, converted, added, calm.lasting, calm'.lasting, conform, fun j => ?_⟩
  cases stored
  refine (obj_modifyObj w₁ k j _).trans ?_
  by_cases here : j = k
  · subst here
    rw [if_pos ⟨rfl, Nat.lt_of_lt_of_le inside added.count⟩, if_pos rfl, added.kept j inside]
    simp only [list]
  · rw [if_neg fun same => here same.1.symm, if_neg here]

theorem intact (all : w.ArraysIntact) : w'.ArraysIntact := by
  obtain ⟨c, k, items, x, w₁, array, list, low, high, -, added, early, late, conform, objects⟩ := h.exists_obj
  have first : w₁.ArraysIntact := all.of_adds added early
  have array' : (w₁.obj i).payload = .array c (.object k) :=
    by rw [added.kept i (inside_of_payload (by simp [array])), array]
  -- The list is no array, and all other objects are what they were.
  have before {j : ObjectId} {d : Ty} {e : Value} (hj : (w'.obj j).payload = .array d e) :
      (w₁.obj j).payload = .array d e := by
    rw [objects] at hj
    split at hj
    · cases hj
    · exact hj
  constructor
  · intro j d e hj
    obtain ⟨k', items', rfl, list', conform'⟩ := first.held j d e (before hj)
    by_cases here : k' = k
    · subst here
      obtain rfl := first.apart j i d c k' (before hj) array'
      obtain rfl : d = c := by
        have same := (before hj).symm.trans array'
        cases same
        rfl
      refine ⟨k', items.set n.toNat x, rfl, by rw [objects, if_pos rfl], fun v hv => late.conforms ?_⟩
      rw [added.kept k' (inside_of_payload (by simp [list])), list] at list'
      cases list'
      rcases List.mem_or_eq_of_mem_set hv with old | rfl
      · exact conform' v old
      · exact conform
    · exact ⟨k', items', rfl, by rw [objects, if_neg here, list'], fun v hv => late.conforms (conform' v hv)⟩
  · intro a b d e k' ha hb
    exact first.apart a b d e k' (before ha) (before hb)

theorem own (all : w.ArraysIntact) (array : w.array? (.object i) = some (c, items)) :
    0 ≤ n ∧ n < items.length ∧ ∃ x w₁, (Run.cast value c .assignment).run w = .done x w₁ ∧ w'.conforms x c ∧
      w'.array? (.object i) = some (c, items.set n.toNat x) := by
  obtain ⟨c', k, items', x, w₁, payload, list, low, high, converted, added, early, late, conform, objects⟩ := h.exists_obj
  obtain ⟨core, k', payload', list', -⟩ := all.exists_of_array? array
  cases payload.symm.trans payload'
  cases list.symm.trans list'
  have apart : i ≠ k := fun same => by
    rw [same, list] at payload
    cases payload
  refine ⟨low, high, x, w₁, converted, late.conforms conform, array?_of_payload (k := k) ?_ ?_ ?_⟩
  · rw [objects, if_neg apart, added.kept i (inside_of_payload (by simp [payload])), payload]
  · rw [objects, if_pos rfl]
  · exact late.isInstance (early.isInstance core)

theorem other (all : w.ArraysIntact) (apart : j ≠ i)
    (array : w.array? (.object j) = some (c, items)) : w'.array? (.object j) = some (c, items) := by
  obtain ⟨d, k, _, _, w₁, payload, list, -, -, -, added, early, late, -, objects⟩ := h.exists_obj
  obtain ⟨core, l, payload', list', -⟩ := all.exists_of_array? array
  have noList : j ≠ k := fun same => by
    rw [same, list] at payload'
    cases payload'
  have ownList : l ≠ k := fun same => apart (all.apart j i c d k (same ▸ payload') payload)
  refine array?_of_payload (k := l) ?_ ?_ (late.isInstance (early.isInstance core))
  · rw [objects, if_neg noList, added.kept j (inside_of_payload (by simp [payload'])), payload']
  · rw [objects, if_neg ownList, added.kept l (inside_of_payload (by simp [list'])), list']

theorem besides : w.Beside w' ∧
    ∀ j < w.objects.size, (∀ d, (w.obj i).payload ≠ .array d (.object j)) → w'.obj j = w.obj j := by
  constructor
  · obtain ⟨-, -, -, -, converted, stored⟩ := h
    have added := (Run.OnlyAdds.cast value _ .assignment w).of_done converted
    cases stored
    exact added.toBeside.trans (.of_eq rfl rfl rfl rfl)
  · intro j inside apart
    obtain ⟨d, k, _, _, w₁, payload, -, -, -, -, added, -, -, -, objects⟩ := h.exists_obj
    have noList : j ≠ k := fun same => apart d (same ▸ payload)
    rw [objects, if_neg noList, added.kept j inside]

theorem sameShapes (all : w.ArraysIntact) : w.SameShapes w' := by
  intro j d elements there
  by_cases here : j = i
  · subst here
    obtain ⟨-, -, x, -, -, -, array⟩ := h.own all there
    exact ⟨_, array, List.length_set⟩
  · exact ⟨elements, h.other all here there, rfl⟩

end Store

/-- A store replaced one element of one array by the converted value, and did nothing else to what
was there. -/
structure Replaced (w w' : World) (i : ObjectId) (c : Ty) (items : List Value) (n : Int) (value : Value) : Prop where
  low : 0 ≤ n
  high : n < items.length
  own : ∃ x w₁, (Run.cast value c .assignment).run w = .done x w₁ ∧ w'.conforms x c ∧
    w'.array? (.object i) = some (c, items.set n.toNat x)
  others : ∀ j a, j ≠ i → w.array? (.object j) = some a → w'.array? (.object j) = some a
  beside : w.Beside w'
  objects : ∀ j < w.objects.size, (∀ d, (w.obj i).payload ≠ .array d (.object j)) → w'.obj j = w.obj j

theorem Store.replaced {n : Int} {value : Value} (h : w.Store i n value w') (all : w.ArraysIntact)
    (array : w.array? (.object i) = some (c, items)) : w.Replaced w' i c items n value := by
  obtain ⟨low, high, own⟩ := h.own all array
  exact ⟨low, high, own, fun _ _ apart there => h.other all apart there, h.besides.1, h.besides.2⟩

end World

namespace Run

variable {w : World} {i : ObjectId} {c : Ty} {items : List Value}

theorem meets_raise_adds {α : Type} (e : HostError) (w : World) :
    (raise e : Plain α).run.Meets w (fun _ _ => False) fun _ w' => w.Adds w' ∧ w.Lasting w' := by
  have failed : (raise e : Plain α).run.Meets w (fun _ _ => False) fun _ _ => True := trivial
  refine (failed.and ((OnlyAdds.raise e w).and (Action.meets_calm _ w))).mono (fun _ _ h => h.1) fun _ _ h => ?_
  exact ⟨h.2.1, h.2.2.lasting⟩

theorem meets_arraySet (all : w.ArraysIntact) (array : w.array? (.object i) = some (c, items)) (n : Int) (value : Value) :
    (arraySet i n value).run.Meets w (fun _ w' => w.Store i n value w') fun _ w' => w.Adds w' ∧ w.Lasting w' := by
  obtain ⟨core, k, payload, list, -⟩ := all.exists_of_array? array
  unfold arraySet
  simp only [Action.meets_bind, Action.run_lift, meets_get, payload, World.itemsOf?_of_payload list,
    Option.getD_some]
  split
  · exact (meets_raise_adds _ w).imp fun _ _ h => h.elim
  · next inside =>
    have bounds : 0 ≤ n ∧ n < items.length := by simpa using inside
    have added := OnlyAdds.cast value c .assignment w
    have calm := (cast value c .assignment).meets_calm w
    simp only [Action.meets_bind, Action.run_lift]
    refine ((Comp.meets_self _ w).and (added.and calm)).mono (fun x w₁ h => ?_) fun _ _ h => ⟨h.2.1, h.2.2.lasting⟩
    exact .mk payload list bounds.1 bounds.2 h.1 rfl

theorem exists_arraySet {n : Int} {value x : Value} {w₁ : World} (all : w.ArraysIntact)
    (array : w.array? (.object i) = some (c, items)) (low : 0 ≤ n) (high : n < items.length)
    (converted : (cast value c .assignment).run w = .done x w₁) : ∃ w', (arraySet i n value).run w = .done () w' := by
  obtain ⟨core, k, payload, list, -⟩ := all.exists_of_array? array
  have inside : (n < 0 || n ≥ items.length) = false := by simp [low, high]
  unfold arraySet
  rw [Action.run_get_bind]
  simp only [payload, World.itemsOf?_of_payload list, Option.getD_some, inside, Bool.false_eq_true, if_false]
  rw [Action.run_bind_of_done converted]
  exact ⟨_, rfl⟩

end Run

namespace Evaluator

theorem meets_setIndex (ev : Evaluator) {w : World} {i : ObjectId} {c : Ty} {items : List Value} (all : w.ArraysIntact)
    (array : w.array? (.object i) = some (c, items)) (n : Int) (value : Value) :
    (ev.setIndex (.object i) n value).run.Meets w (fun _ w' => w.Store i n value w')
      fun _ w' => w.Adds w' ∧ w.Lasting w' := by
  unfold setIndex
  simp only [Action.meets_bind, Action.run_lift, Run.meets_get, array]
  split
  · let refusal : Faulty Unit := Run.throwIndex (Run.arrayBounds n) (Run.arrayBounds n)
    have failed : refusal.run.Meets w (fun _ _ => False) fun _ _ => True := trivial
    refine ((failed.and (Run.OnlyAdds.throwInto _ _ w)).and (refusal.meets_calm w)).mono ?_ fun _ _
      h => ⟨h.1.2, h.2.lasting⟩
    exact fun _ _ h => h.1.1.elim
  · exact Run.meets_arraySet all array n value

inductive StoresElement (ev : Evaluator) (i : ObjectId) (n : Int) (value : Value) : Run Unit → Prop
  | set : StoresElement ev i n value (Run.arraySet i n value).run
  | index : StoresElement ev i n value (ev.setIndex (.object i) n value).run

inductive ElementStores (ev : Evaluator) : World → World → Prop
  | refl (w : World) : ElementStores ev w w
  | step {w w₁ w' : World} {x : Run Unit} {i : ObjectId} {a : Ty × List Value} {n : Int} {value : Value}
      (array : w.array? (.object i) = some a) (store : ev.StoresElement i n value x) (leads : x.Leads w w₁)
      (rest : ElementStores ev w₁ w') : ElementStores ev w w'

variable {ev : Evaluator} {w w' : World} {x : Run Unit} {i : ObjectId} {c : Ty} {items : List Value}
  {n : Int} {value : Value}

theorem StoresElement.meets (h : ev.StoresElement i n value x) (all : w.ArraysIntact)
    (array : w.array? (.object i) = some (c, items)) :
    x.Meets w (fun _ w' => w.Store i n value w') fun _ w' => w.Adds w' ∧ w.Lasting w' := by
  cases h with
  | set => exact Run.meets_arraySet all array n value
  | index => exact meets_setIndex ev all array n value

theorem StoresElement.exists_done {y : Value} {w₁ : World} (h : ev.StoresElement i n value x) (all : w.ArraysIntact)
    (array : w.array? (.object i) = some (c, items)) (low : 0 ≤ n) (high : n < items.length)
    (converted : (Run.cast value c .assignment).run w = .done y w₁) : ∃ w', x w = .done () w' := by
  have stored := Run.exists_arraySet all array low high converted
  cases h with
  | set => exact stored
  | index =>
    have inside : (n < 0 || n ≥ items.length) = false := by simp [low, high]
    unfold setIndex
    rw [Action.run_get_bind]
    simp only [array, inside, Bool.false_eq_true, if_false]
    exact stored

theorem StoresElement.intact (h : ev.StoresElement i n value x) (all : w.ArraysIntact)
    (array : w.array? (.object i) = some (c, items)) (leads : x.Leads w w') : w'.ArraysIntact ∧ w.SameShapes w' := by
  cases leads with
  | done _ done =>
    have store := (h.meets all array).of_done done
    exact ⟨store.intact all, store.sameShapes all⟩
  | failed e failed =>
    obtain ⟨added, lasting⟩ := (h.meets all array).of_failed failed
    exact ⟨all.of_adds added lasting, fun j d elements there => ⟨elements, added.toSpares.array? all lasting there, rfl⟩⟩

theorem ElementStores.intact (h : ev.ElementStores w w') (all : w.ArraysIntact) : w'.ArraysIntact ∧ w.SameShapes w' := by
  induction h with
  | refl w => exact ⟨all, fun _ _ items array => ⟨items, array, rfl⟩⟩
  | step array store leads rest ih =>
    obtain ⟨intact, same⟩ := store.intact all array leads
    obtain ⟨intact', same'⟩ := ih intact
    exact ⟨intact', same.trans same'⟩

end Evaluator

end ScriptCore
