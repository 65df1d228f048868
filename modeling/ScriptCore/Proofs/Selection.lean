import ScriptCore.Proofs.Meets
import ScriptCore.Scope.Import

namespace ScriptCore

namespace World

variable {w : World}

theorem isSome_totalDistance (w : World) (sources targets : List Ty) :
    (w.totalDistance sources targets).isSome = w.signatureAssignable sources targets := by
  induction sources generalizing targets with
  | nil => cases targets <;> rfl
  | cons a as ih =>
    cases targets with
    | nil => rfl
    | cons p ps =>
      have head : w.isAssignable a p = (w.distance a p).isSome := rfl
      have rest := ih ps
      simp only [signatureAssignable, List.length_cons, List.zip_cons_cons, List.all_cons, totalDistance, head] at rest ⊢
      cases hd : w.distance a p with
      | none => simp
      | some d =>
        cases ht : w.totalDistance as ps with
        | none => simpa [ht] using rest
        | some n => simpa [ht] using rest

theorem mem_scored {args : List Ty} {candidates : List (List Ty)} {d i : Nat} (h : (d, i) ∈ w.scored args candidates) :
    ∃ types, candidates[i]? = some types ∧ w.signatureAssignable args types := by
  obtain ⟨⟨types, j⟩, hm, hd⟩ := List.mem_filterMap.mp h
  obtain ⟨n, hn, he⟩ := Option.map_eq_some_iff.mp hd
  cases he
  refine ⟨types, by simpa using List.mem_zipIdx_iff_getElem?.mp hm, ?_⟩
  rw [← isSome_totalDistance, hn]
  rfl

theorem mem_nearest {l : List (Nat × Nat)} {i : Nat} (h : i ∈ nearest l) : ∃ d, (d, i) ∈ l := by
  unfold nearest at h
  split at h
  · cases h
  · obtain ⟨⟨d, j⟩, hm, rfl⟩ := List.mem_map.mp h
    exact ⟨d, (List.mem_filter.mp hm).1⟩

theorem signatureAssignable_of_mostSpecific {args : List Ty} {candidates : List (List Ty)} {i : Nat}
    (h : w.mostSpecific args candidates = .ok (some i)) :
    ∃ types, candidates[i]? = some types ∧ w.signatureAssignable args types := by
  suffices hi : i ∈ nearest (w.scored args candidates) by
    obtain ⟨d, hd⟩ := mem_nearest hi
    exact mem_scored hd
  unfold mostSpecific at h
  split at h
  · cases h
  · next j hj => cases h; simp [hj]
  · dsimp only at h
    split at h
    · next j hj => cases h; exact List.mem_of_find?_eq_some hj
    · cases h

/-- What the search for a method can find: the best of the methods that a scope declares, or a
member of an imported value. -/
inductive Offers (w : World) (name : String) (types : List Ty) (m : Method) : Prop
  | declared (t : ScopeId) (ms : List Method) (i : Nat) (hd : (w.scope t).methods.get? name =
      some ms) (hm : ms[i]? = some m)
      (best : w.mostSpecific types (ms.map Method.paramTypes) = .ok (some i))
  | imported (hm : m.member.isSome) (hb : m.body = .absent)

theorem Offers.applicable {name : String} {types : List Ty} {m : Method} (h : w.Offers name types m)
    (hm : m.member = none) : w.signatureAssignable types m.paramTypes := by
  cases h with
  | declared t ms i _ hi best =>
    obtain ⟨chosen, hc, fits⟩ := signatureAssignable_of_mostSpecific best
    rw [List.getElem?_map, hi] at hc
    cases hc
    exact fits
  | imported hi => rw [hm] at hi; cases hi

theorem Offers.holds {name : String} {types : List Ty} {m : Method} (h : w.Offers name types m) :
    m.body = .absent ∨ w.Holds m.body := by
  cases h with
  | declared t ms i hd hi _ =>
    right
    cases hs : w.scopes[t]? with
    | none => simp [World.scope, hs, Table.get?, Table.lookup] at hd
    | some x =>
      simp only [World.scope, hs, Option.getD_some] at hd
      refine .scope x (Array.mem_of_getElem? hs) (List.mem_map_of_mem (List.mem_flatten.mpr ⟨ms, ?_, ?_⟩))
      · exact Table.mem_values_of_get? hd
      · exact List.mem_of_getElem? hi
  | imported _ hb => exact .inl hb

end World

namespace Run

variable {name : String} {types : List Ty}

def FindsOffered (name : String) (types : List Ty) (x : Faulty (Option Method)) : Prop :=
  ∀ w, x.run.Meets w (fun r w' => ∀ m, r = some m → w'.Offers name types m) fun _ _ => True

theorem firstSome_findsOffered {α : Type} {xs : List α} {f : α → Faulty (Option Method)}
    (hf : ∀ a ∈ xs, FindsOffered name types (f a)) : FindsOffered name types (firstSome xs f) := by
  induction xs with
  | nil => intro w m hm; cases hm
  | cons a rest ih =>
    intro w
    have hrest := ih fun b hb => hf b (List.mem_cons_of_mem _ hb)
    simp only [firstSome, Action.meets_bind]
    refine (hf a List.mem_cons_self w).impDone fun r w' h => ?_
    cases r with
    | some m => exact h
    | none => exact hrest w'

variable (s : ScopeId)

theorem declaredMethod_findsOffered : FindsOffered name types (declaredMethod s name types) := by
  intro w
  simp only [declaredMethod, Action.meets_bind, Action.run_lift, meets_read]
  split
  · trivial
  · intro m hm; cases hm
  · next i best =>
    intro m hm
    cases hd : (w.scope s).methods.get? name with
    | none => simp [hd] at hm
    | some ms =>
      simp only [hd, Option.getD_some] at best hm
      exact .declared s ms i hd hm best

theorem importedMethod_findsOffered : FindsOffered name types (importedMethod s name types) := by
  intro w
  simp only [importedMethod, Action.meets_bind, Action.run_lift, meets_get]
  refine firstSome_findsOffered (fun target _ w' => ?_) w
  split
  · exact declaredMethod_findsOffered _ w'
  · simp only [Action.meets_bind]
    refine (Action.meets _ w').impDone fun r _ _ => ?_
    split
    · intro m hm; cases hm
    · split
      · intro m hm; cases hm; exact .imported rfl rfl
      · intro m hm; cases hm

theorem localMethod_findsOffered : FindsOffered name types (localMethod s name types) := by
  intro w
  simp only [localMethod, Action.meets_bind, Action.run_lift, meets_read]
  refine firstSome_findsOffered (fun find hfind => ?_) w
  have : find = importedMethod ∨ find = declaredMethod := by
    split at hfind <;> simpa [or_comm] using hfind
  rcases this with rfl | rfl
  · exact importedMethod_findsOffered s
  · exact declaredMethod_findsOffered s

theorem findMethod_findsOffered : FindsOffered name types (findMethod s name types) := by
  intro w
  simp only [findMethod, Action.meets_bind, Action.run_lift, meets_read]
  exact firstSome_findsOffered (fun t _ => localMethod_findsOffered t) w

end Run

end ScriptCore
