namespace ScriptCore

/-- Each name is bound at most once as long as the table is built by `put` and `erase`. -/
structure Table (α : Type) where
  entries : List (String × α) := []

namespace Table

variable {α β : Type} {k j : String} {l : List (String × α)}

def empty : Table α := ⟨[]⟩

instance : Inhabited (Table α) := ⟨empty⟩

def lookup : List (String × α) → String → Option α
  | [], _ => none
  | (n, v) :: rest, k => if n = k then some v else lookup rest k

def get? (t : Table α) (k : String) : Option α := lookup t.entries k

def contains (t : Table α) (k : String) : Bool := (t.get? k).isSome

def update : List (String × α) → String → α → List (String × α)
  | [], k, v => [(k, v)]
  | (n, w) :: rest, k, v => if n = k then (n, v) :: rest else (n, w) :: update rest k v

def put (t : Table α) (k : String) (v : α) : Table α := ⟨update t.entries k v⟩

def remove : List (String × α) → String → List (String × α)
  | [], _ => []
  | (n, w) :: rest, k => if n = k then remove rest k else (n, w) :: remove rest k

def erase (t : Table α) (k : String) : Table α := ⟨remove t.entries k⟩

def keys (t : Table α) : List String := t.entries.map Prod.fst

def values (t : Table α) : List α := t.entries.map Prod.snd

def isEmpty (t : Table α) : Bool := t.entries.isEmpty

def ofList (l : List (String × α)) : Table α := l.foldl (fun t e => t.put e.1 e.2) empty

def modify (t : Table α) (k : String) (f : α → α) : Table α :=
  match t.get? k with
  | none => t
  | some v => t.put k (f v)

theorem lookup_update_self (l : List (String × α)) (k : String) (v : α) :
    lookup (update l k v) k = some v := by
  induction l with
  | nil => simp [update, lookup]
  | cons e rest ih =>
    obtain ⟨n, w⟩ := e
    by_cases h : n = k <;> simp [update, lookup, h, ih]

theorem lookup_update_ne (l : List (String × α)) (v : α) (h : k ≠ j) : lookup (update l k v) j = lookup l j := by
  induction l with
  | nil => simp [update, lookup, h]
  | cons e rest ih =>
    obtain ⟨n, w⟩ := e
    by_cases hn : n = k
    · subst hn; simp [update, lookup, h]
    · by_cases hj : n = j
      · subst hj; simp [update, lookup, hn]
      · simp [update, lookup, hn, hj, ih]

@[simp] theorem get?_put_self (t : Table α) (k : String) (v : α) : (t.put k v).get? k = some v :=
  lookup_update_self t.entries k v

theorem get?_put_ne (t : Table α) (v : α) (h : k ≠ j) : (t.put k v).get? j = t.get? j :=
  lookup_update_ne t.entries v h

theorem update_update (l : List (String × α)) (k : String) (v w : α) : update (update l k v) k w = update l k w := by
  induction l with
  | nil => simp [update]
  | cons e rest ih =>
    obtain ⟨n, x⟩ := e
    by_cases h : n = k <;> simp [update, h, ih]

@[simp] theorem put_put (t : Table α) (k : String) (v w : α) : (t.put k v).put k w = t.put k w :=
  congrArg Table.mk (update_update t.entries k v w)

theorem remove_subset (l : List (String × α)) (k : String) : remove l k ⊆ l := by
  induction l with
  | nil => exact List.Subset.refl _
  | cons e rest ih =>
    obtain ⟨n, w⟩ := e
    unfold remove
    split
    · exact fun e he => List.mem_cons_of_mem _ (ih he)
    · exact List.cons_subset_cons _ ih

theorem values_erase_subset (t : Table α) (k : String) : (t.erase k).values ⊆ t.values :=
  List.map_subset _ (remove_subset t.entries k)

theorem mem_update {k : String} {v : α} {e : String × α} (h : e ∈ update l k v) : e = (k, v) ∨ e ∈ l := by
  induction l with
  | nil => simpa [update] using h
  | cons x rest ih =>
    obtain ⟨n, w⟩ := x
    unfold update at h
    split at h
    · next hn =>
      subst hn
      rcases List.mem_cons.mp h with rfl | h
      · exact .inl rfl
      · exact .inr (List.mem_cons_of_mem _ h)
    · rcases List.mem_cons.mp h with rfl | h
      · exact .inr List.mem_cons_self
      · exact (ih h).imp_right (List.mem_cons_of_mem _)

theorem mem_values_put {t : Table α} {k : String} {v x : α} (h : x ∈ (t.put k v).values) : x = v ∨ x ∈ t.values := by
  obtain ⟨e, he, rfl⟩ := List.mem_map.mp h
  rcases mem_update he with rfl | he
  · exact .inl rfl
  · exact .inr (List.mem_map_of_mem he)

theorem mem_of_lookup {k : String} {v : α} (h : lookup l k = some v) : (k, v) ∈ l := by
  induction l with
  | nil => cases h
  | cons x rest ih =>
    obtain ⟨n, w⟩ := x
    unfold lookup at h
    split at h
    · next hn => subst hn; cases h; exact List.mem_cons_self
    · exact List.mem_cons_of_mem _ (ih h)

theorem mem_values_of_get? {t : Table α} {k : String} {v : α} (h : t.get? k = some v) : v ∈ t.values :=
  List.mem_map_of_mem (mem_of_lookup h)

theorem contains_put (t : Table α) (k : String) (v : α) (j : String) (h : t.contains j) : (t.put k v).contains j := by
  by_cases hk : k = j
  · subst hk; simp [contains]
  · simpa [contains, get?_put_ne t v hk] using h

theorem isSome_lookup_of_remove (h : (lookup (remove l k) j).isSome) : (lookup l j).isSome := by
  induction l with
  | nil => exact h
  | cons e rest ih =>
    obtain ⟨n, w⟩ := e
    by_cases hk : n = k
    · simp only [remove, hk, if_true] at h
      unfold lookup
      split
      · rfl
      · exact ih h
    · simp only [remove, hk, if_false, lookup] at h ⊢
      split at h
      · next hj => simp [hj]
      · next hj =>
        rw [if_neg hj]
        exact ih h

theorem lookup_remove_ne (l : List (String × α)) (h : k ≠ j) : lookup (remove l k) j = lookup l j := by
  induction l with
  | nil => rfl
  | cons e rest ih =>
    obtain ⟨n, w⟩ := e
    by_cases hk : n = k
    · subst hk
      simp [remove, lookup, h, ih]
    · simp [remove, lookup, hk, ih]

theorem lookup_remove_self (l : List (String × α)) (k : String) : lookup (remove l k) k = none := by
  induction l with
  | nil => rfl
  | cons e rest ih =>
    obtain ⟨n, w⟩ := e
    by_cases hk : n = k <;> simp [remove, lookup, hk, ih]

@[simp] theorem get?_erase_self (t : Table α) (k : String) : (t.erase k).get? k = none := lookup_remove_self t.entries k

theorem get?_erase_ne (t : Table α) (h : k ≠ j) : (t.erase k).get? j = t.get? j :=
  lookup_remove_ne t.entries h

theorem contains_of_erase {t : Table α} (h : (t.erase k).contains j) : t.contains j :=
  isSome_lookup_of_remove h

end Table

end ScriptCore
