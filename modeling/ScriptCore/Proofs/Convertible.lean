import ScriptCore.Proofs.Conformance
import ScriptCore.Proofs.Gives

namespace ScriptCore

namespace Binary

theorem isSome_ofInt? {n : Int} (h : n.natAbs < 2 ^ 64) : (ofInt? n).isSome := by
  unfold ofInt? ofScaled?
  by_cases hn : n.natAbs = 0
  · simp only [hn, if_true]
    rfl
  · have log : Nat.log2 n.natAbs < 64 := (Nat.log2_lt hn).mpr h
    simp only [hn, if_false]
    generalize hd : max ((Nat.log2 n.natAbs : Int) - 52) (-1074 - 0) = drop
    have small : drop ≤ 11 := by omega
    generalize (if drop ≤ 0 then n.natAbs <<< drop.natAbs else roundShift n.natAbs drop.toNat) = mantissa
    have inside : ¬ 971 < if mantissa = 2 ^ 53 then 0 + drop + 1 else 0 + drop := by
      split <;> omega
    by_cases low : (if mantissa = 2 ^ 53 then 2 ^ 52 else mantissa) < 2 ^ 52
    · simp only [low, if_true, Option.isSome_some]
    · simp only [low, inside, if_false, Option.isSome_some]

end Binary

namespace Primitive

def inRange : Primitive → Bool
  | byte n => decide (Word.wrap 8 n = n)
  | short n => decide (Word.wrap 16 n = n)
  | int n => decide (Word.wrap 32 n = n)
  | long n => decide (Word.wrap 64 n = n)
  | char c => decide (c < 0x110000)
  | _ => true

theorem type_ne_void (p : Primitive) : p.type ≠ .void := by
  intro h
  cases p <;> cases h

theorem natAbs_lt_of_wrap {bits : Nat} (hb : bits ≤ 64) {n : Int} (h : Word.wrap bits n = n) : n.natAbs < 2 ^ 64 := by
  have least : 2 ^ bits ≤ 2 ^ 64 := Nat.pow_le_pow_right (by decide) hb
  have low := Int.le_bmod (x := n) (m := 2 ^ bits) (Nat.two_pow_pos bits)
  have high := Int.bmod_lt (x := n) (m := 2 ^ bits) (Nat.two_pow_pos bits)
  unfold Word.wrap at h
  rw [h] at low high
  omega

theorem isOk_ofInt {t : PrimType} (ht : t ≠ .void) {n : Int} (h : n.natAbs < 2 ^ 64) : (ofInt t n).isOk := by
  have double := Binary.isSome_ofInt? h
  cases t with
  | void => exact absurd rfl ht
  | float | double =>
    simp only [ofInt]
    split
    · next hn => rw [hn] at double; cases double
    · rfl
  | _ => rfl

theorem isOk_convert {p : Primitive} {t : PrimType} (hp : p.inRange)
    (ht : (p.type.widening? t).isSome) : (p.convert t).isOk := by
  have wide : t ≠ .void := by
    rintro rfl
    cases p <;> cases ht
  cases p with
  | boolean b => cases t <;> cases ht
  | byte n | short n | int n | long n =>
    exact isOk_ofInt wide (natAbs_lt_of_wrap (by decide) (of_decide_eq_true hp))
  | char c =>
    have code : c < 0x110000 := of_decide_eq_true hp
    have number := isOk_ofInt wide (n := c) (by omega)
    cases t <;> exact number
  | float x | double x => cases t <;> first | rfl | cases ht

end Primitive

namespace World

variable {w w' : World} {a : Value} {t : Ty}

/-- A value as scripts see it: there, with numbers boxed. -/
def isWrapped (w : World) : Value → Bool
  | .void | .none => false
  | .null | .closure _ => true
  | .boxed p _ => p.inRange
  | v => !w.isInstance v (.core .int) && !w.isInstance v (.core .float) && decide (w.classOf v ≠ .core .closure)

/-- How a value can get to a type: it stays as it is, it is widened, or it is presented as an
interface. -/
inductive Suits (w : World) (a : Value) (t : Ty) : Prop
  | asIs (h : w.conforms a t)
  | widened (p : Primitive) (mark : Nat) (q : PrimType) (ha : a = .boxed p mark) (ht : t = .prim q) (hp : p.inRange)
      (wide : (p.type.widening? q).isSome)
  | presented (s : ScopeId) (c : ClassRef) (ha : a = .closure s) (ht : t = .cls c) (hc : w.isInterface c)

theorem Lasting.suits (h : w.Lasting w') (hs : w.Suits a t) : w'.Suits a t := by
  cases hs with
  | asIs hc => exact .asIs (h.conforms hc)
  | widened p mark q ha ht hp wide => exact .widened p mark q ha ht hp wide
  | presented s c ha ht hc => exact .presented s c ha ht (h.isInterface hc)

theorem Lasting.isInstance_of_classOf (h : w.Lasting w') {v : Value} {c : ClassRef}
    (hv : w'.isSubclass (w.classOf v) c) : w'.isInstance v c := by
  unfold World.isInstance
  rcases h.classOf v with same | object | ⟨scope, block⟩
  · rwa [same]
  · rw [object] at hv
    rw [eq_object_of_isSubclass hv]
    exact w'.isSubclass_object _
  · rw [scope] at hv
    rw [block]
    exact isSubclass_blockScope hv

theorem suits_null (h : w.isAssignable .untyped t) : w.Suits .null t := by
  refine .asIs ?_
  cases t with
  | prim p => cases p <;> cases h
  | _ => rfl

theorem suits_boxed {p : Primitive} {mark : Nat} (hp : p.inRange)
    (h : w.isAssignable (.prim p.type) t) : w.Suits (.boxed p mark) t := by
  cases t with
  | untyped => exact .asIs rfl
  | prim q =>
    by_cases same : p.type = q
    · exact .asIs (by simpa [conforms] using same)
    · refine .widened p mark q rfl rfl hp ?_
      cases p <;> cases q <;> first | exact h | exact absurd rfl same
  | cls c =>
    rw [isAssignable_prim_cls p.type_ne_void] at h
    exact .asIs h
  | array d => cases p <;> cases h
  | module m => cases p <;> cases h

theorem isSubclass_of_array {c d : ClassRef} (hc : w.isSubclass c (.core .array))
    (hd : w.isSubclass (.core .array) d) : w.isSubclass c d := by
  have chain : w.mro (.core .array) = [.core .array, .core .object] := rfl
  have above : ∀ k ∈ w.mro (.core .array), k ∈ w.mro c := by
    have array : .core .array ∈ w.mro c := by simpa [isSubclass] using hc
    simpa [chain] using ⟨array, w.object_mem_mro c⟩
  simp only [isSubclass, Bool.or_eq_true, List.contains_iff_mem, Bool.and_eq_true, List.any_eq_true] at hd ⊢
  rcases hd with hd | ⟨hd, k, hk, hi⟩
  · exact .inl (above d hd)
  · exact .inr ⟨hd, k, above k hk, hi⟩

theorem suits_array {c : Ty} (ha : w.typeOf a = .array c) (h : w.isAssignable (.array c) t) : w.Suits a t := by
  obtain ⟨i, rfl, -, hi⟩ := typeOf_eq_array_iff.mp ha
  refine .asIs ?_
  cases t with
  | untyped => rfl
  | prim q => cases q <;> cases h
  | array d =>
    have array : w.isArray (.object i) := isArray_iff.mpr ⟨c, ha⟩
    simp [conforms, array, ha, h]
  | cls d =>
    rw [isAssignable_array_cls] at h
    exact isSubclass_of_array hi h
  | module m => cases h

theorem isSubclass_number_of_unboxDistance {c : ClassRef} {p : PrimType} (h : (w.unboxDistance (.cls c) p).isSome) :
    w.isSubclass c (.core .int) ∨ w.isSubclass c (.core .float) := by
  have bool : w.isSubclass (.core .bool) (.core .int) := rfl
  simp only [unboxDistance] at h
  grind

theorem Lasting.not_number (hl : w.Lasting w') (hw : w'.isWrapped a) (ha : w.typeOf a = .cls (w.classOf a)) :
    w'.isSubclass (w.classOf a) (.core .int) = false ∧ w'.isSubclass (w.classOf a) (.core .float) = false := by
  have other {c : ClassRef} (hc : w'.isInstance a c = false) : w'.isSubclass (w.classOf a) c = false := by
    rw [Bool.eq_false_iff]
    intro sub
    rw [hl.isInstance_of_classOf sub] at hc
    cases hc
  cases a with
  | null | boxed => cases ha
  | void | none => cases hw
  | closure s => exact ⟨rfl, rfl⟩
  | _ =>
    simp only [isWrapped, Bool.and_eq_true, Bool.not_eq_true'] at hw
    exact ⟨other hw.1.1, other hw.1.2⟩

theorem Lasting.eq_closure (hl : w.Lasting w') (hw : w'.isWrapped a)
    (hc : w.classOf a = .core .closure) : ∃ s, a = .closure s := by
  have other (hn : w'.classOf a ≠ .core .closure) : False := by
    rcases hl.classOf a with same | object | ⟨scope, -⟩
    · exact hn (same.trans hc)
    · rw [hc] at object; cases object
    · rw [hc] at scope; cases scope
  cases a with
  | closure s => exact ⟨s, rfl⟩
  | null | boxed => cases hc
  | void | none => cases hw
  | _ =>
    simp only [isWrapped, Bool.and_eq_true, decide_eq_true_eq] at hw
    exact (other hw.2).elim

theorem suits_object (hl : w.Lasting w') (ha : w.typeOf a = .cls (w.classOf a))
    (number : w'.isSubclass (w.classOf a) (.core .int) = false ∧ w'.isSubclass (w.classOf a) (.core .float) = false)
    (closure : ∀ d, t = .cls d → w'.isInterface d → w.classOf a = .core .closure → ∃ s, a = .closure s)
    (h : w'.isAssignable (.cls (w.classOf a)) t) : w'.Suits a t := by
  cases t with
  | untyped => exact .asIs rfl
  | prim q =>
    by_cases hq : q = .void
    · subst hq; cases h
    · rw [isAssignable_cls_prim _ _ hq] at h
      rcases isSubclass_number_of_unboxDistance h with h | h
      · rw [number.1] at h; cases h
      · rw [number.2] at h; cases h
  | array d => cases h
  | cls d =>
    simp only [isAssignable_cls_cls, Bool.or_eq_true, Bool.and_eq_true, decide_eq_true_eq] at h
    rcases h with sub | ⟨hc, interface⟩
    · have instance' := hl.isInstance_of_classOf sub
      refine .asIs ?_
      cases a with
      | null => rfl
      | boxed p m => cases ha
      | _ => exact instance'
    · obtain ⟨s, rfl⟩ := closure d rfl interface hc
      exact .presented s d rfl rfl interface
  | module m => simp [isAssignable, distance, referenceDistance] at h

/-- What a value can be assigned to by its type, it can be converted to, as long as it is no number
of the host and its class tells whether it is a closure. -/
theorem suits_of_isAssignable (hl : w.Lasting w') (box : ∀ p mark, a = .boxed p mark → p.inRange)
    (number : w.typeOf a = .cls (w.classOf a) →
      w'.isSubclass (w.classOf a) (.core .int) = false ∧ w'.isSubclass (w.classOf a) (.core .float) = false)
    (closure : ∀ d, t = .cls d → w'.isInterface d → w.classOf a = .core .closure → ∃ s, a = .closure s)
    (h : w'.isAssignable (w.typeOf a) t) : w'.Suits a t := by
  have other (object : w.array? a = none → w.typeOf a = .cls (w.classOf a))
      (array : ∀ r, w.array? a = some r → w.typeOf a = .array r.1) : w'.Suits a t := by
    cases hr : w.array? a with
    | none =>
      have ha := object hr
      rw [ha] at h
      exact suits_object hl ha (number ha) closure h
    | some r =>
      have ha := array r hr
      rw [ha] at h
      exact suits_array (hl.typeOf_array ha) h
  cases a with
  | null => exact suits_null h
  | void =>
    cases t with
    | untyped => exact .asIs rfl
    | prim q => cases q <;> cases h
    | _ => cases h
  | boxed p mark => exact suits_boxed (box p mark rfl) h
  | _ => exact other (fun hr => by simp only [World.typeOf, hr]) fun r hr => by simp only [World.typeOf, hr]

theorem suits_of_isWrapped (hl : w.Lasting w') (hw : w'.isWrapped a)
    (h : w'.isAssignable (w.typeOf a) t) : w'.Suits a t := by
  refine suits_of_isAssignable hl ?_ (hl.not_number hw) (fun _ _ _ => hl.eq_closure hw) h
  rintro p mark rfl
  exact hw

end World

namespace Run

variable {w : World} {v : Value} {t : Ty}

open ScriptCore.Action (run_read_bind)

theorem castReference_array_of_fits {c : Ty} (fits : (w.isArray v && w.isAssignable (w.typeOf v) (.array c)) = true)
    (mode : Conversion) : (castReference v (.array c) mode).run w = .done v w := by
  simp only [castReference, run_read_bind, fits, if_true]
  rfl

theorem castReference_cls_of_isInstance {c : ClassRef} (fits : w.isInstance v c)
    (mode : Conversion) : (castReference v (.cls c) mode).run w = .done v w := by
  simp only [castReference, run_read_bind, fits, if_true]
  rfl

theorem cast_of_conforms (hv : v ≠ .void) (h : w.conforms v t) (mode : Conversion) :
    (cast v t mode).run w = .done v w := by
  cases t with
  | untyped => rfl
  | prim p =>
    cases v with
    | boxed q mark =>
      have type : q.type = p := by simpa [World.conforms] using h
      subst type
      cases q <;> rfl
    | _ => cases h
  | array c =>
    cases v with
    | null => rfl
    | object i => exact castReference_array_of_fits h mode
    | _ => cases h
  | cls c =>
    cases v with
    | null => rfl
    | void => exact absurd rfl hv
    | boxed p mark =>
      have fits : w.boxAssignable p.type (.cls c) := h
      simp only [cast, run_read_bind, fits, if_true]
      rfl
    | _ => exact castReference_cls_of_isInstance h mode
  | module m =>
    cases v with
    | null => rfl
    | _ => cases h

theorem cast_widening {p : Primitive} (mark : Nat) {q : PrimType} (hp : p.inRange) (wide : (p.type.widening? q).isSome) :
    ∃ r, ∀ w : World, (cast (.boxed p mark) (.prim q) .assignment).run w = .done (.boxed r mark) w := by
  have number := Primitive.isOk_convert hp wide
  cases hc : p.convert q with
  | error e => rw [hc] at number; cases number
  | ok r =>
    refine ⟨r, fun w => ?_⟩
    have run : (castPrimitive p mark q .assignment).run w = .done (.boxed r mark) w := by
      have apart : p.type ≠ q := by rintro rfl; cases p <;> cases wide
      have numeric : (p.type = .boolean || q = .boolean) = false := by cases p <;> cases q <;> first | rfl | cases wide
      have widens : (p.type.widening? q).isNone = false := by simpa using wide
      simp only [castPrimitive, apart, numeric, widens, hc, if_false, Bool.false_eq_true, Bool.and_false]
      rfl
    cases q with
    | void => cases p <;> cases wide
    | _ => exact run

theorem cast_closure {s : ScopeId} {c : ClassRef} (hc : w.isInterface c) (hn : w.isInstance (.closure s) c = false)
    (mode : Conversion) : (cast (.closure s) (.cls c) mode).run w = (proxyOf s [c]).run w := by
  simp only [cast, castReference, run_read_bind, hn, hc, if_true, Bool.false_eq_true, if_false]
  rfl

end Run

end ScriptCore
