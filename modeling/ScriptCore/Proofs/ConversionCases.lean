import ScriptCore.Proofs.Convertible

namespace ScriptCore

structure Primitive.Reboxed (mode : Conversion) (p : Primitive) (k : PrimType) (q : Primitive) : Prop where
  other : p.type ≠ k
  numeric : ¬ (p.type = .boolean ∨ k = .boolean)
  wider : mode = .assignment → p.type.widening? k ≠ none
  content : p.convert k = .ok q

/-- What the conversion of `v` to the type `t` gives, and in which world. -/
inductive World.Casts (w : World) (mode : Conversion) (v : Value) (t : Ty) : Value → World → Prop
  /-- The value may stand in a variable of the type, and stays as it is. -/
  | asIs (typed : v = .void → t = .untyped) (h : w.conforms v t) : Casts w mode v t v w
  /-- A host number is boxed. -/
  | boxed {p : Primitive} {mark : Nat} (hv : w.wrap v = .boxed p mark) (ht : t = .prim p.type) :
      Casts w mode v t (.boxed p mark) w
  /-- A number is boxed in another type. -/
  | converted {p q : Primitive} {mark : Nat} {k : PrimType} (hv : w.wrap v = .boxed p mark) (ht : t = .prim k)
      (hq : p.Reboxed mode k q) : Casts w mode v t (.boxed q mark) w
  /-- A closure is presented as an interface. -/
  | presented {s : ScopeId} {c : ClassRef} {r : Value} {w' : World} (hv : v = .closure s) (ht : t = .cls c)
      (other : w.isInstance v c = false) (interface : w.isInterface c) (made : (Run.proxyOf s [c]).run w = .done r w') :
      Casts w mode v t r w'

namespace Run

variable {w w' : World} {mode : Conversion} {v r : Value} {t : Ty} {p q : Primitive} {mark : Nat} {k : PrimType}

theorem castFailure_ne_done {target source : Ty} : (castFailure target source mode).run w ≠ .done r w' :=
  fun h => (meets_castFailure (Q := fun _ _ => False)).of_done h

theorem castPrimitive_of_type (same : p.type = k) : (castPrimitive p mark k mode).run w = .done (.boxed p mark) w := by
  unfold castPrimitive
  rw [if_pos same]
  rfl

theorem castPrimitive_of_reboxed (h : p.Reboxed mode k q) :
    (castPrimitive p mark k mode).run w = .done (.boxed q mark) w := by
  unfold castPrimitive
  rw [if_neg h.other, if_neg (by simpa using h.numeric), if_neg (by simpa using h.wider), h.content]
  rfl

theorem castPrimitive_done (h : (castPrimitive p mark k mode).run w = .done r w') :
    w' = w ∧ (p.type = k ∧ r = .boxed p mark ∨ ∃ q, p.Reboxed mode k q ∧ r = .boxed q mark) := by
  unfold castPrimitive at h
  split at h
  · next same =>
    cases h
    exact ⟨rfl, .inl ⟨same, rfl⟩⟩
  · next other =>
    split at h
    · exact absurd h castFailure_ne_done
    · next numeric =>
      split at h
      · exact absurd h castFailure_ne_done
      · next wider =>
        cases hc : p.convert k with
        | error e =>
          rw [hc] at h
          cases h
        | ok q =>
          rw [hc] at h
          cases h
          exact ⟨rfl, .inr ⟨q, ⟨other, by simpa using numeric, by simpa using wider, hc⟩, rfl⟩⟩

open ScriptCore.Action (run_get_bind run_read_bind)

theorem castToPrimitive_of_boxed (hv : w.wrap v = .boxed p mark) :
    (castToPrimitive v k mode).run w = (castPrimitive p mark k mode).run w := by
  simp only [castToPrimitive, run_get_bind, hv]

theorem castToPrimitive_done (h : (castToPrimitive v k mode).run w = .done r w') :
    ∃ p mark, w.wrap v = .boxed p mark ∧ (castPrimitive p mark k mode).run w = .done r w' := by
  simp only [castToPrimitive, run_get_bind] at h
  split at h
  · next p mark hv => exact ⟨p, mark, hv, h⟩
  · split at h
    · exact absurd h castFailure_ne_done
    · simp only [run_read_bind] at h
      exact absurd h castFailure_ne_done
  · simp only [run_read_bind] at h
    exact absurd h castFailure_ne_done

theorem castToPrimitive_void_ne_done : (castToPrimitive v .void mode).run w ≠ .done r w' := by
  intro h
  obtain ⟨p, mark, -, h⟩ := castToPrimitive_done h
  obtain ⟨-, ⟨type, -⟩ | ⟨q, hq, -⟩⟩ := castPrimitive_done h
  · exact p.type_ne_void type
  · exact q.type_ne_void (Primitive.type_of_convert hq.content)

theorem cast_prim_done_iff :
    (cast v (.prim k) mode).run w = .done r w' ↔ (castToPrimitive v k mode).run w = .done r w' := by
  by_cases void : k = .void
  · subst void
    refine ⟨fun h => ?_, fun h => absurd h castToPrimitive_void_ne_done⟩
    cases v <;> cases h
  · cases v with
    | void =>
      constructor
      · intro h
        cases k <;> cases h
      · intro h
        obtain ⟨p, mark, hp, -⟩ := castToPrimitive_done h
        cases hp
    | _ => cases k <;> first | rfl | exact absurd rfl void

theorem cast_prim_iff_casts : (cast v (.prim k) mode).run w = .done r w' ↔ w.Casts mode v (.prim k) r w' := by
  rw [cast_prim_done_iff]
  constructor
  · intro h
    obtain ⟨p, mark, hv, h⟩ := castToPrimitive_done h
    obtain ⟨rfl, ⟨rfl, rfl⟩ | ⟨q, hq, rfl⟩⟩ := castPrimitive_done h
    · exact .boxed hv rfl
    · exact .converted hv rfl hq
  · intro h
    cases h with
    | asIs typed h =>
      cases v with
      | boxed p mark =>
        have type : p.type = k := by simpa [World.conforms] using h
        exact (castToPrimitive_of_boxed rfl).trans (castPrimitive_of_type type)
      | _ => cases h
    | boxed hv ht =>
      cases ht
      exact (castToPrimitive_of_boxed hv).trans (castPrimitive_of_type rfl)
    | converted hv ht hq =>
      cases ht
      exact (castToPrimitive_of_boxed hv).trans (castPrimitive_of_reboxed hq)
    | presented hv ht => cases ht

theorem cast_eq_castReference (hv : v.isMarkerOrPrimitive = false) (ht : ∀ k, t ≠ .prim k) :
    (cast v t mode).run w = (castReference v t mode).run w := by
  cases t with
  | prim k => exact absurd rfl (ht k)
  | _ => cases v <;> first | rfl | cases hv

theorem castReference_array_done {c : Ty} (h : (castReference v (.array c) mode).run w = .done r w') :
    r = v ∧ w' = w ∧ w.isArray v ∧ w.isAssignable (w.typeOf v) (.array c) := by
  simp only [castReference, run_read_bind] at h
  split at h
  · next fits =>
    cases h
    exact ⟨rfl, rfl, by simpa using fits⟩
  · exact absurd h castFailure_ne_done

theorem castReference_cls_done {c : ClassRef}
    (h : (castReference v (.cls c) mode).run w = .done r w') :
    r = v ∧ w' = w ∧ w.isInstance v c ∨
      ∃ s, v = .closure s ∧ w.isInstance v c = false ∧ w.isInterface c ∧ (proxyOf s [c]).run w = .done r w' := by
  simp only [castReference, run_read_bind] at h
  split at h
  · next fits =>
    cases h
    exact .inl ⟨rfl, rfl, fits⟩
  · next other =>
    cases v with
    | closure s =>
      simp only [run_read_bind] at h
      split at h
      · next interface => exact .inr ⟨s, rfl, Bool.eq_false_iff.mpr other, interface, h⟩
      · exact absurd h castFailure_ne_done
    | _ => exact absurd h castFailure_ne_done

theorem cast_marked_done (hv : v.isMarkerOrPrimitive) (ht : ∀ k, t ≠ .prim k)
    (h : (cast v t mode).run w = .done r w') : r = v ∧ w' = w ∧ (v = .void → t = .untyped) ∧ w.conforms v t := by
  cases t with
  | prim k => exact absurd rfl (ht k)
  | untyped =>
    cases h
    exact ⟨rfl, rfl, fun _ => rfl, rfl⟩
  | _ =>
    cases v with
    | null =>
      cases h
      exact ⟨rfl, rfl, (by cases ·), rfl⟩
    | void => cases h
    | boxed p mark =>
      simp only [cast, run_read_bind] at h
      split at h
      · next fits =>
        cases h
        exact ⟨rfl, rfl, (by cases ·), fits⟩
      · exact absurd h castFailure_ne_done
    | _ => cases hv

theorem cast_done_iff : (cast v t mode).run w = .done r w' ↔ w.Casts mode v t r w' := by
  constructor
  · intro h
    -- Primitive targets have a way of their own; for other targets markers and boxed values do.
    by_cases prim : ∃ k, t = .prim k
    · obtain ⟨k, rfl⟩ := prim
      exact cast_prim_iff_casts.mp h
    have ht : ∀ k, t ≠ .prim k := fun k hk => prim ⟨k, hk⟩
    by_cases marked : v.isMarkerOrPrimitive
    · obtain ⟨rfl, rfl, typed, fits⟩ := cast_marked_done marked ht h
      exact .asIs typed fits
    have present : v ≠ .void := by
      rintro rfl
      exact marked rfl
    rw [cast_eq_castReference (Bool.eq_false_iff.mpr marked) ht] at h
    cases t with
    | untyped =>
      cases h
      exact .asIs (fun _ => rfl) rfl
    | prim k => exact absurd rfl (ht k)
    | array c =>
      obtain ⟨rfl, rfl, array, fits⟩ := castReference_array_done h
      exact .asIs (absurd · present) (by simp [World.conforms, array, fits])
    | cls c =>
      rcases castReference_cls_done h with ⟨rfl, rfl, fits⟩ | ⟨s, hv, other, interface, made⟩
      · refine .asIs (absurd · present) ?_
        cases r with
        | boxed p mark => exact absurd rfl marked
        | null => rfl
        | _ => exact fits
      · exact .presented hv rfl other interface made
    | module m => cases h
  · intro h
    cases h with
    | asIs typed h =>
      by_cases hv : v = .void
      · cases typed hv
        rfl
      · exact cast_of_conforms hv h mode
    | boxed hv ht =>
      subst ht
      exact cast_prim_iff_casts.mpr (.boxed hv rfl)
    | converted hv ht hq =>
      subst ht
      exact cast_prim_iff_casts.mpr (.converted hv rfl hq)
    | presented hv ht other interface made =>
      subst hv ht
      rw [cast_closure interface other, made]

end Run

end ScriptCore
