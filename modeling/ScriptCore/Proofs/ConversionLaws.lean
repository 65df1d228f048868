import ScriptCore.Proofs.ArgumentBinding
import ScriptCore.Proofs.ConversionCases
import ScriptCore.Proofs.ProxyReuse

namespace ScriptCore

namespace Ty

def isTested : Ty → Bool
  | prim _ | array _ | cls _ => true
  | _ => false

def isReference : Ty → Bool
  | array _ | cls _ => true
  | _ => false

end Ty

theorem Word.wrap_of_wider {a b : Nat} (wider : a ≤ b) {n : Int} (h : wrap a n = n) : wrap b n = n := by
  have low := Int.le_bmod (x := n) (m := 2 ^ a) (Nat.two_pow_pos a)
  have high := Int.bmod_lt (x := n) (m := 2 ^ a) (Nat.two_pow_pos a)
  have least : 2 ^ a ≤ 2 ^ b := Nat.pow_le_pow_right (by decide) wider
  unfold wrap at h ⊢
  rw [h] at low high
  apply Int.bmod_eq_of_le <;> omega

theorem PrimType.bits_of_widening {t k : PrimType} {a : Nat} (ha : t.bits? = some a)
    (hk : k.isIntegral) (wide : t.widening? k ≠ none) : ∃ b, k.bits? = some b ∧ a ≤ b := by
  cases t <;> cases ha <;> cases k <;> first | cases hk; done | exact absurd rfl wide | exact ⟨_, rfl, by decide⟩

namespace Primitive

theorem number_of_ofInt {k : PrimType} {b : Nat} {n : Int} {q : Primitive} (hk : k.bits? = some b)
    (hq : ofInt k n = .ok q) : q.number = .ok (.int (Word.wrap b n)) := by
  cases k <;> cases hk <;> cases hq <;> rfl

theorem number_of_widening {p q : Primitive} {k : PrimType} (hp : p.inRange) (hk : k.isIntegral)
    (wide : p.type.widening? k ≠ none) (hq : p.convert k = .ok q) : q.number = p.number := by
  cases p with
  | boolean b => cases k <;> exact absurd rfl wide
  | byte n | short n | int n | long n =>
    obtain ⟨b, hb, wider⟩ := PrimType.bits_of_widening rfl hk wide
    rw [number_of_ofInt hb hq, Word.wrap_of_wider wider (of_decide_eq_true hp)]
    rfl
  | char c =>
    -- Codes have no word of their own, but all of them fit one of 32 bits.
    have code : c < 0x110000 := of_decide_eq_true hp
    have held : Word.wrap 32 c = c := Int.bmod_eq_of_le (by omega) (by omega)
    cases k with
    | int =>
      have content : ofInt .int c = .ok q := hq
      rw [number_of_ofInt rfl content, held]
      rfl
    | long =>
      have content : ofInt .long c = .ok q := hq
      rw [number_of_ofInt rfl content, Word.wrap_of_wider (by decide) held]
      rfl
    | _ => first | cases hk; done | exact absurd rfl wide
  | float x | double x => cases k <;> first | cases hk; done | exact absurd rfl wide

end Primitive

namespace World

variable {w w' : World} {mode : Conversion} {v r : Value} {t : Ty}

theorem Casts.of_assignment (h : w.Casts .assignment v t r w') : w.Casts mode v t r w' := by
  cases h with
  | asIs typed h => exact .asIs typed h
  | boxed hv ht => exact .boxed hv ht
  | converted hv ht hq => exact .converted hv ht ⟨hq.other, hq.numeric, fun _ => hq.wider rfl, hq.content⟩
  | presented hv ht other interface made => exact .presented hv ht other interface made

theorem Casts.again (h : w.Casts mode v t r w') (inside : ∀ s, v = .closure s → s < w.scopes.size) :
    w'.Casts mode v t r w' := by
  cases h with
  | asIs typed h => exact .asIs typed h
  | boxed hv ht => exact .boxed hv ht
  | converted hv ht hq => exact .converted hv ht hq
  | presented hv ht other interface made =>
    subst hv
    have lasting : w.Lasting w' := ((Action.meets_calm _ w).of_done made).lasting
    exact .presented rfl ht other (lasting.isInterface interface) (Run.proxyOf_again (inside _ rfl) made)

theorem Casts.result (h : w.Casts mode v t r w') : w'.conforms r t ∧ (r = .void → t = .untyped) := by
  refine ⟨(Run.meets_cast v t mode w).of_done (Run.cast_done_iff.mpr h), ?_⟩
  cases h with
  | asIs typed h => exact typed
  | boxed | converted => exact (by cases ·)
  | presented hv ht other interface made =>
    obtain ⟨i, rfl, -⟩ := (Run.meets_proxyOf _ _ w).of_done made
    exact (by cases ·)

theorem Casts.of_boxed {p : Primitive} {mark : Nat} {k : PrimType} (h : w.Casts mode (.boxed p mark) (.prim k) r w') :
    w' = w ∧ ∃ q, r = .boxed q mark ∧ (p.type = k ∧ q = p ∨ p.Reboxed mode k q) := by
  cases h with
  | asIs typed h => exact ⟨rfl, p, rfl, .inl ⟨of_decide_eq_true h, rfl⟩⟩
  | boxed hv ht =>
    cases hv
    cases ht
    exact ⟨rfl, p, rfl, .inl ⟨rfl, rfl⟩⟩
  | converted hv ht hq =>
    cases hv
    cases ht
    exact ⟨rfl, _, rfl, .inr hq⟩
  | presented hv => cases hv

def isHostNumber (w : World) (v : Value) : Bool :=
  (w.number? v).isSome || w.isInstance v (.core .int) || w.isInstance v (.core .float)

/-- A value that assignment to a class takes for what it is, although its type tells nothing but
that it is an array. -/
def IsExtendedArray (w : World) (v : Value) (t : Ty) : Prop :=
  w.isArray v ∧ w.classOf v ≠ .core .array ∧ ∃ c, t = .cls c ∧ w.isInstance v c

def CanPresent (w : World) (v : Value) (c : ClassRef) : Prop :=
  ∃ s, v = .closure s ∧ (Run.proxyOf s [c]).run.Gives w fun _ _ => True

theorem eq_boxed_of_wrap {p : Primitive} {mark : Nat} (host : w.isHostNumber v = false)
    (h : w.wrap v = .boxed p mark) : v = .boxed p mark := by
  have number : w.number? v = none := by
    simp only [isHostNumber, Bool.or_eq_false_iff, Option.isSome_eq_false_iff, Option.isNone_iff_eq_none] at host
    exact host.1.1
  cases v with
  | object i =>
    simp only [wrap, number?] at h number
    split at h <;> simp_all
  | boxed => exact h
  | bool | int | float => cases number
  | _ => cases h

theorem typeOf_eq_cls (value : v.isMarkerOrPrimitive = false) (other : w.isArray v = false) :
    w.typeOf v = .cls (w.classOf v) := by
  have loose : w.array? v = none := by simpa [isArray] using other
  cases v with
  | null | void | boxed => cases value
  | _ => simp only [typeOf, loose]

theorem isAssignable_or_extended (value : v.isMarkerOrPrimitive = false) {c : ClassRef} (h : w.isInstance v c) :
    w.isAssignable (w.typeOf v) (.cls c) ∨ w.IsExtendedArray v (.cls c) := by
  by_cases array : w.isArray v
  · by_cases plain : w.classOf v = .core .array
    · obtain ⟨d, hd⟩ := isArray_iff.mp array
      rw [isInstance, plain] at h
      rw [hd, isAssignable_array_cls]
      exact .inl h
    · exact .inr ⟨array, plain, c, rfl, h⟩
  · rw [typeOf_eq_cls value (Bool.eq_false_iff.mpr array), isAssignable_cls_cls]
    exact .inl (by simpa using .inl h)

theorem isAssignable_of_conforms (typed : v = .void → t = .untyped) (h : w.conforms v t) :
    w.isAssignable (w.typeOf v) t ∨ w.IsExtendedArray v t := by
  cases t with
  | untyped => exact .inl rfl
  | prim k =>
    cases v with
    | boxed p mark =>
      have type : p.type = k := of_decide_eq_true h
      subst type
      exact .inl (by cases p <;> rfl)
    | _ => cases h
  | array c =>
    cases v with
    | null => exact .inl rfl
    | object i => exact .inl (Bool.and_eq_true_iff.mp h).2
    | _ => cases h
  | cls c =>
    cases v with
    | null => exact .inl rfl
    | void => cases typed rfl
    | boxed p mark =>
      rw [typeOf, isAssignable_prim_cls p.type_ne_void]
      exact .inl h
    | _ => exact isAssignable_or_extended rfl h
  | module m =>
    cases v with
    | null => exact .inl rfl
    | _ => cases h

theorem isAssignable_of_reboxed {p q : Primitive} {k : PrimType} (h : p.Reboxed .assignment k q) :
    w.isAssignable (.prim p.type) (.prim k) := by
  have wider := Option.isSome_iff_ne_none.mpr (h.wider rfl)
  have other := h.other
  cases p <;> cases k <;> first | exact wider | exact absurd rfl other

theorem Casts.isAssignable (h : w.Casts .assignment v t r w') (host : w.isHostNumber v = false) :
    w.isAssignable (w.typeOf v) t ∨ w.IsExtendedArray v t := by
  cases h with
  | asIs typed h => exact isAssignable_of_conforms typed h
  | @boxed p mark hv ht =>
    cases eq_boxed_of_wrap host hv
    subst ht
    exact .inl (by cases p <;> rfl)
  | converted hv ht hq =>
    cases eq_boxed_of_wrap host hv
    subst ht
    exact .inl (isAssignable_of_reboxed hq)
  | @presented s c _ _ hv ht other interface made =>
    subst hv ht
    have closure : w.typeOf (.closure s) = .cls (.core .closure) := rfl
    exact .inl (by simp [closure, isAssignable_cls_cls, interface])

theorem IsExtendedArray.conforms (h : w.IsExtendedArray v t) : v ≠ .void ∧ w.conforms v t := by
  obtain ⟨array, -, c, rfl, fits⟩ := h
  cases v with
  | object i => exact ⟨(by cases ·), fits⟩
  | _ => cases array

theorem isDone_of_isAssignable (present : v ≠ .void) (host : w.isHostNumber v = false)
    (box : ∀ p mark, v = .boxed p mark → p.inRange)
    (presents : ∀ c, t = .cls c → w.isInterface c → w.classOf v = .core .closure → w.CanPresent v c)
    (h : w.isAssignable (w.typeOf v) t) : ((Run.cast v t .assignment).run w).isDone := by
  have number : w.isInstance v (.core .int) = false ∧ w.isInstance v (.core .float) = false := by
    simp only [isHostNumber, Bool.or_eq_false_iff] at host
    exact ⟨host.1.2, host.2⟩
  have closure : ∀ c, t = .cls c → w.isInterface c → w.classOf v = .core .closure → ∃ s, v = .closure s := by
    intro c ht interface hc
    obtain ⟨s, hs, -⟩ := presents c ht interface hc
    exact ⟨s, hs⟩
  have suits : w.Suits v t := suits_of_isAssignable (.refl w) box (fun _ => number) closure h
  have made : ∀ s c, v = .closure s → t = .cls c → w.isInterface c →
      (Run.proxyOf s [c]).run.Gives w fun _ _ => True := by
    intro s c hv ht interface
    obtain ⟨s', hs, gives⟩ := presents c ht interface (by rw [hv]; rfl)
    cases hv.symm.trans hs
    exact gives
  obtain ⟨r, w', run, -⟩ := Run.cast_of_suits suits present made
  rw [run]
  rfl

end World

namespace Run

variable {w w' : World} {mode : Conversion} {v r : Value} {t : Ty}

def arrayWorld : World where
  scopes := #[{ registry := some 0 }]
  objects := #[{ cls := .core .list, payload := .list [] },
    { cls := .core .array, payload := .array (.array (.cls (.core .str))) (.object 0) }]
  registries := #[{}]

theorem isDone_proxyOf_greeter : ((proxyOf 0 [.library .greeter]).run arrayWorld).isDone := by decide +kernel

theorem cast_greeter (mode : Conversion) :
    (cast (.closure 0) (.cls (.library .greeter)) mode).run arrayWorld = (proxyOf 0 [.library .greeter]).run arrayWorld :=
  cast_closure rfl rfl mode

/-- Conversion is stable. What assignment gives, a cast gives as well, at once or later; converting
a result gives the result; and assignment never changes an integral number. -/
theorem conversion_is_stable (h : (cast v t mode).run w = .done r w') :
    (mode = .assignment → (cast v t .cast).run w = .done r w' ∧
      ((∀ s, v = .closure s → s < w.scopes.size) → (cast v t .cast).run w' = .done r w')) ∧
    (∀ again, (cast r t again).run w' = .done r w') ∧
    ∀ p mark k, mode = .assignment → v = .boxed p mark → t = .prim k → p.inRange → k.isIntegral →
      w' = w ∧ ∃ q, r = .boxed q mark ∧ q.type = k ∧ q.number = p.number := by
  have casts := cast_done_iff.mp h
  refine ⟨?_, fun again => ?_, ?_⟩
  · rintro rfl
    have either : w.Casts .cast v t r w' := casts.of_assignment
    exact ⟨cast_done_iff.mpr either, fun inside => cast_done_iff.mpr (either.again inside)⟩
  · obtain ⟨fits, typed⟩ := casts.result
    exact cast_done_iff.mpr (.asIs typed fits)
  · rintro p mark k rfl rfl rfl hp hk
    obtain ⟨rfl, q, rfl, ⟨rfl, rfl⟩ | hq⟩ := casts.of_boxed
    · exact ⟨rfl, q, rfl, rfl, rfl⟩
    · have number := Primitive.number_of_widening hp hk (hq.wider rfl) hq.content
      exact ⟨rfl, q, rfl, Primitive.type_of_convert hq.content, number⟩

theorem conversion_is_stable_presenting :
    (∃ r w', (cast (.closure 0) (.cls (.library .greeter)) .assignment).run arrayWorld = .done r w' ∧
      (cast (.closure 0) (.cls (.library .greeter)) .cast).run w' = .done r w' ∧
      (cast r (.cls (.library .greeter)) .cast).run w' = .done r w') ∧
    ∃ q, (cast (.boxed (.byte (-7)) 0) (.prim .long) .assignment).run arrayWorld = .done (.boxed q 0) arrayWorld ∧
      q.number = .ok (.int (-7)) := by
  constructor
  · obtain ⟨r, w', made⟩ := Outcome.exists_of_isDone isDone_proxyOf_greeter
    have run := (cast_greeter .assignment).trans made
    obtain ⟨modes, again, -⟩ := conversion_is_stable run
    refine ⟨r, w', run, (modes rfl).2 ?_, again .cast⟩
    intro s hs
    cases hs
    decide
  · have run : (cast (.boxed (.byte (-7)) 0) (.prim .long) .assignment).run arrayWorld =
        .done (.boxed (.long (-7)) 0) arrayWorld := rfl
    obtain ⟨-, q, hq, -, number⟩ := (conversion_is_stable run).2.2 (.byte (-7)) 0 .long rfl rfl rfl rfl rfl
    cases hq
    exact ⟨_, run, number⟩

/-- Assignment converts a value exactly if its type can be assigned, whatever kind of value and
type, and in one case more: an array whose class extends that of all arrays converts to its own
class and what that extends, which its type does not tell. Numbers of the host are another matter,
since conversion boxes them. -/
theorem assignment_goes_by_type (present : v ≠ .void) (host : w.isHostNumber v = false)
    (box : ∀ p mark, v = .boxed p mark → p.inRange)
    (presents : ∀ c, t = .cls c → w.isInterface c → w.classOf v = .core .closure → w.CanPresent v c) :
    (((cast v t .assignment).run w).isDone ↔ w.isAssignable (w.typeOf v) t ∨ w.IsExtendedArray v t) ∧
    ((w.isArray v → w.classOf v = .core .array) →
      (((cast v t .assignment).run w).isDone ↔ w.isAssignable (w.typeOf v) t)) := by
  have converts : ((cast v t .assignment).run w).isDone → w.isAssignable (w.typeOf v) t ∨ w.IsExtendedArray v t := by
    intro done
    obtain ⟨r, w', run⟩ := Outcome.exists_of_isDone done
    exact (cast_done_iff.mp run).isAssignable host
  have assigned := World.isDone_of_isAssignable present host box presents
  refine ⟨⟨converts, ?_⟩, fun plain => ⟨fun done => ?_, assigned⟩⟩
  · rintro (fits | extended)
    · exact assigned fits
    · rw [cast_of_conforms extended.conforms.1 extended.conforms.2]
      rfl
  · obtain fits | ⟨array, other, -⟩ := converts done
    · exact fits
    · exact absurd (plain array) other

theorem assignment_goes_by_type_presenting :
    arrayWorld.isAssignable (arrayWorld.typeOf (.object 1)) (.array (.cls (.core .object))) ∧
      ((cast (.object 1) (.array (.cls (.core .object))) .assignment).run arrayWorld).isDone ∧
      ((cast (.closure 0) (.cls (.library .greeter)) .assignment).run arrayWorld).isDone := by
  have fits : arrayWorld.isAssignable (arrayWorld.typeOf (.object 1)) (.array (.cls (.core .object))) := rfl
  refine ⟨fits, ?_, ?_⟩
  · refine ((assignment_goes_by_type (by cases ·) rfl ?_ ?_).2 fun _ => rfl).mpr fits
    · intro p mark h
      cases h
    · intro c h
      cases h
  · refine (assignment_goes_by_type (by cases ·) rfl ?_ ?_).1.mpr (.inl rfl)
    · intro p mark h
      cases h
    · intro c h _ _
      cases h
      obtain ⟨r, w', made⟩ := Outcome.exists_of_isDone isDone_proxyOf_greeter
      exact ⟨0, rfl, Comp.gives_iff.mpr ⟨r, w', made, trivial⟩⟩

/-- A world with an array of a class that extends that of all arrays. -/
def extendedArrayWorld : World where
  objects := #[{ cls := .core .list, payload := .list [] }, { cls := .made 0, payload := .array .untyped (.object 0) }]
  classes := #[{ (default : MadeClass) with
    name := "B", bases := [.core .array], ancestors := [.core .array, .core .object], bases_mem := by decide,
    object_mem := by decide }]

/-- The type of a value does not tell all that it converts to: an array converts to a class that
extends that of all arrays if it is of that class, and is no argument for a parameter of the class.
-/
theorem extended_array_is_no_argument :
    ¬∀ (w : World) (v : Value) (t : Ty), v ≠ .void → w.isHostNumber v = false →
      w.classOf v ≠ .core .closure → (∀ p mark, v ≠ .boxed p mark) →
        (((cast v t .assignment).run w).isDone ↔ w.isAssignable (w.typeOf v) t) := by
  intro always
  have converts : ((cast (.object 1) (.cls (.made 0)) .assignment).run extendedArrayWorld).isDone := by decide +kernel
  have other : extendedArrayWorld.isAssignable (extendedArrayWorld.typeOf (.object 1)) (.cls (.made 0)) = false := by
    decide +kernel
  have agree := always extendedArrayWorld (.object 1) (.cls (.made 0)) (by cases ·) (by decide +kernel) (by cases ·)
    (fun _ _ h => by cases h)
  have fits := agree.mp converts
  rw [other] at fits
  cases fits

theorem run_instanceOf (hn : v ≠ .null) (hv : v ≠ .void) (tested : t.isTested) :
    (instanceOf v t).run w = .done (w.conforms v t) w := by
  cases t with
  | untyped | module => cases tested
  | _ =>
    cases v with
    | null => exact absurd rfl hn
    | void => exact absurd rfl hv
    | _ => rfl

theorem conforms_of_instanceOf (tested : t.isTested) (h : (instanceOf v t).run w = .done true w') :
    v ≠ .void ∧ w.conforms v t ∧ w' = w := by
  have hn : v ≠ .null := by
    rintro rfl
    cases h
  have hv : v ≠ .void := by
    rintro rfl
    cases h
  rw [run_instanceOf hn hv tested] at h
  injection h with fits same
  exact ⟨hv, fits, same.symm⟩

/-- What is an instance of a type is left as it is by conversion to the type. Conversely, what can
be converted to a class or an array type is an instance of it and is left as it is, or it is a
closure that is presented as an interface. -/
theorem tests_agree_with_conversion (tested : t.isTested) (mode : Conversion) :
    (∀ w', (instanceOf v t).run w = .done true w' → w' = w ∧ (cast v t mode).run w = .done v w) ∧
    (v ≠ .null → v ≠ .void → t.isReference → ∀ r w', (cast v t mode).run w = .done r w' →
      (instanceOf v t).run w = .done true w ∧ r = v ∧ w' = w ∨
      ∃ s c, v = .closure s ∧ t = .cls c ∧ w.isInterface c ∧ (instanceOf v t).run w = .done false w ∧
        (instanceOf r t).run w' = .done true w') := by
  constructor
  · intro w' h
    obtain ⟨hv, fits, same⟩ := conforms_of_instanceOf tested h
    exact ⟨same, cast_of_conforms hv fits mode⟩
  · intro hn hv reference r w' run
    have test := run_instanceOf (w := w) hn hv tested
    cases cast_done_iff.mp run with
    | asIs _ fits =>
      rw [fits] at test
      exact .inl ⟨test, rfl, rfl⟩
    | boxed _ ht | converted _ ht =>
      subst ht
      cases reference
    | @presented s c _ _ hs ht other interface made =>
      subst hs ht
      obtain ⟨i, rfl, fits⟩ := (meets_proxyOf s c w).of_done made
      have before : w.conforms (.closure s) (.cls c) = false := other
      have after : w'.conforms (.object i) (.cls c) = true := fits
      have presented := run_instanceOf (v := .object i) (w := w') (by cases ·) (by cases ·) tested
      rw [before] at test
      rw [after] at presented
      exact .inr ⟨s, c, rfl, rfl, interface, test, presented⟩

theorem tests_agree_with_conversion_nested :
    (instanceOf (.object 1) (.array (.cls (.core .object)))).run arrayWorld = .done true arrayWorld ∧
      (cast (.object 1) (.array (.cls (.core .object))) .cast).run arrayWorld = .done (.object 1) arrayWorld ∧
      ∃ r w', (cast (.closure 0) (.cls (.library .greeter)) .assignment).run arrayWorld = .done r w' ∧
        (instanceOf r (.cls (.library .greeter))).run w' = .done true w' := by
  have test : (instanceOf (.object 1) (.array (.cls (.core .object)))).run arrayWorld = .done true arrayWorld := rfl
  obtain ⟨r, w', made⟩ := Outcome.exists_of_isDone isDone_proxyOf_greeter
  have run := (cast_greeter .assignment).trans made
  refine ⟨test, ((tests_agree_with_conversion rfl .cast).1 _ test).2, r, w', run, ?_⟩
  have agree := (tests_agree_with_conversion rfl .assignment).2 (by cases ·) (by cases ·) rfl r w' run
  obtain ⟨inside, -⟩ | ⟨_, _, -, -, -, -, presented⟩ := agree
  · cases inside
  · exact presented

end Run

end ScriptCore
