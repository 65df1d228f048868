import ScriptCore.Proofs.Convertible
import ScriptCore.Proofs.MachineArithmetic

namespace ScriptCore

namespace Binary

theorem isNaN_of_isInf {x : Float} (h : x.isInf) : x.isNaN = false := by
  unfold Float.isInf Float.Model.isInf at h
  unfold Float.isNaN Float.Model.isNaN
  cases e : x.toModel.unpack <;> rw [e] at h <;> first | rfl | cases h

end Binary

theorem BinaryOp.ofSymbol_eq_rem_iff {symbol : String} : ofSymbol symbol = .rem ↔ symbol = "%" := by
  constructor
  · unfold ofSymbol
    cases found : known.find? fun op => op.symbol = symbol with
    | none => exact nofun
    | some op =>
      rintro rfl
      have same := List.find?_some found
      simp only [decide_eq_true_eq] at same
      exact same.symm
  · rintro rfl
    rfl

theorem PrimType.ne_boolean_of_isNumeric {t : PrimType} (h : t.isNumeric) : t ≠ .boolean := by
  rintro rfl
  cases h

namespace Primitive

def isInfinite : Primitive → Bool
  | float x | double x => x.isInf
  | _ => false

/-- Whether the host refuses to compute the remainder: in the common type of the operands, the left
one is infinite and the right one a number other than zero. -/
def refusesRemainder (l r : Primitive) : Bool :=
  match l.promote r with
  | .ok (x, y, _) => x.isInfinite && !y.isZero && !y.isNaN
  | .error _ => false

def hasNoIntegerPart (p : Primitive) : Bool := p.isNaN || p.isInfinite

def Settles {α : Type} (r : Except Trouble α) : Prop := ∀ e, r ≠ .error (.host e)

def real (t : PrimType) (x : Float) : Primitive := if t = .float then float x else double x

variable {l r : Primitive} {t : PrimType}

theorem number_real (t : PrimType) (x : Float) : (real t x).number = .ok (.float x) := by
  unfold real
  split <;> rfl

theorem isInfinite_real (t : PrimType) (x : Float) : (real t x).isInfinite = x.isInf := by
  unfold real
  split <;> rfl

theorem isZero_real (t : PrimType) (x : Float) : (real t x).isZero = (x == 0.0) := by
  unfold real
  split <;> rfl

theorem isNaN_real (t : PrimType) (x : Float) : (real t x).isNaN = x.isNaN := by
  unfold real
  split <;> rfl

theorem wrap_eq_self_iff {bits : Nat} {n : Int} : Word.wrap (bits + 1) n = n ↔ -2 ^ bits ≤ n ∧ n < 2 ^ bits := by
  have double : ((2 ^ (bits + 1) : Nat) : Int) = 2 * 2 ^ bits := by
    rw [Nat.pow_succ, Nat.mul_comm]
    push_cast
    rfl
  constructor
  · intro same
    have low := Int.le_bmod (x := n) (m := 2 ^ (bits + 1)) (Nat.two_pow_pos _)
    have high := Int.bmod_lt (x := n) (m := 2 ^ (bits + 1)) (Nat.two_pow_pos _)
    unfold Word.wrap at same
    omega
  · rintro ⟨low, high⟩
    apply Int.bmod_eq_of_le <;> omega

theorem inRange_of_isIntegral (h : l.inRange) (integral : l.type.isIntegral) : l.InRange := by
  cases l with
  | boolean | float | double => cases integral
  | char c => exact (of_decide_eq_true h : c < 0x110000)
  | byte n | short n | int n | long n => exact wrap_eq_self_iff.mp (of_decide_eq_true h)

theorem natAbs_lt_of_inRange (h : l.InRange) : l.integer.natAbs < 2 ^ 64 := by
  cases l <;> simp only [InRange, integer] at h ⊢ <;> omega

theorem eq_of_isFloating (h : t.isFloating) : t = .float ∨ t = .double := by
  cases t <;> simp [PrimType.isFloating] at h ⊢

theorem exists_ofNumber_real (floating : t.isFloating) (held : l.inRange)
    (numeric : l.type.isNumeric) : ∃ v, l.number = .ok v ∧ ∃ x, ofNumber t v = .ok (real t x) := by
  have integral (range : l.InRange) : ∃ v, l.number = .ok v ∧ ∃ x, ofNumber t v = .ok (real t x) := by
    obtain ⟨x, hx⟩ := Option.isSome_iff_exists.mp (Binary.isSome_ofInt? (natAbs_lt_of_inRange range))
    refine ⟨_, number_of_inRange range, ?_⟩
    rcases eq_of_isFloating floating with rfl | rfl <;> exact ⟨_, by simp only [ofNumber, ofInt, hx]; rfl⟩
  cases l with
  | boolean b => cases numeric
  | byte | short | char | int | long => exact integral (inRange_of_isIntegral held rfl)
  | float x | double x => rcases eq_of_isFloating floating with rfl | rfl <;> exact ⟨_, rfl, _, rfl⟩

theorem isFloating_commonType {a b : PrimType} (ha : a.isNumeric) (hb : b.isNumeric)
    (h : a.isFloating ∨ b.isFloating) : (commonType a b).isFloating := by
  revert ha hb h
  cases a <;> cases b <;> decide

theorem promote_real (hl : l.inRange) (hr : r.inRange) (nl : l.type.isNumeric)
    (nr : r.type.isNumeric) (h : l.type.isFloating ∨ r.type.isFloating) :
    ∃ x y t, l.promote r = .ok (real t x, real t y, t) := by
  have floating := isFloating_commonType nl nr h
  obtain ⟨m, hm, x, hx⟩ := exists_ofNumber_real floating hl nl
  obtain ⟨n, hn, y, hy⟩ := exists_ofNumber_real floating hr nr
  refine ⟨x, y, commonType l.type r.type, ?_⟩
  unfold promote
  simp only [hm, hn]
  show (ofNumber _ m >>= fun x => ofNumber _ n >>= fun y => _) = _
  rw [hx, hy]
  rfl

theorem isInfinite_ofWord (t : PrimType) (n : Int) : (ofWord t n).isInfinite = false := by
  unfold ofWord
  split <;> rfl

namespace Settles

theorem ok {α : Type} (a : α) : Settles (.ok a) := nofun

theorem fault {α : Type} (c : Cause) : Settles (Primitive.fault c : Except Trouble α) := nofun

theorem throws {α : Type} (e : HostError) (c : Cause) : Settles (.error (.throws e c) : Except Trouble α) := nofun

end Settles

theorem settles_booleanOp (a b : Bool) (op : BinaryOp) : Settles (booleanOp a b op) := by
  cases op <;> first | exact .ok _ | exact .fault _

theorem settles_integralOp (a b : Int) (op : BinaryOp) (t : PrimType) : Settles (integralOp a b op t) := by
  unfold integralOp
  split
  · exact .ok _
  · extract_lets
    split <;> first | exact .ok _ | exact .fault _ | skip
    all_goals split <;> first | exact .ok _ | exact .throws _ _

theorem settles_shiftOp (nl : l.type ≠ .boolean) (nr : r.type ≠ .boolean) (op : BinaryOp) : Settles (shiftOp l r op) := by
  unfold shiftOp
  split
  · exact .fault _
  · cases l <;> cases r <;> first | exact absurd rfl nl | exact absurd rfl nr | skip
    all_goals first | exact .fault _ | (cases op <;> exact .ok _)

theorem modulo_eq (x y : Float) :
    (x.isInf ∧ (y == 0.0) = false ∧ y.isNaN = false → modulo x y = .error ⟨.valueError, "math domain error"⟩) ∧
    (¬(x.isInf ∧ (y == 0.0) = false ∧ y.isNaN = false) → ∃ z, modulo x y = .ok z) := by
  unfold modulo
  constructor
  · rintro ⟨infinite, nonzero, number⟩
    simp only [infinite, nonzero, number, Binary.isNaN_of_isInf infinite, Bool.or_self,
      Bool.false_eq_true, if_false, if_true]
  · intro h
    split
    · exact ⟨_, rfl⟩
    · next other =>
      simp only [Bool.or_eq_true, not_or, Bool.not_eq_true] at other
      rw [if_neg fun infinite => h ⟨infinite, other.1.1, other.2⟩]
      split <;> exact ⟨_, rfl⟩

theorem floatingOp_eq (x y : Float) (op : BinaryOp) (t : PrimType) :
    (op = .rem ∧ x.isInf ∧ (y == 0.0) = false ∧ y.isNaN = false →
      floatingOp x y op t = raised ⟨.valueError, "math domain error"⟩) ∧
    (¬(op = .rem ∧ x.isInf ∧ (y == 0.0) = false ∧ y.isNaN = false) → Settles (floatingOp x y op t)) := by
  obtain ⟨refused, computed⟩ := modulo_eq x y
  cases op with
  | rem =>
    constructor
    · rintro ⟨-, h⟩
      simp only [floatingOp, compareFloat?, refused h]
      rfl
    · intro h
      obtain ⟨z, hz⟩ := computed fun infinite => h ⟨rfl, infinite⟩
      simp only [floatingOp, compareFloat?, hz]
      exact .ok _
  | _ => exact ⟨fun h => (by cases h.1), fun _ => by first | exact .ok _ | exact .fault _⟩

theorem isNumeric_of_not_boolean (h : l.type ≠ .boolean) : l.type.isNumeric := by
  cases l <;> first | rfl | exact absurd rfl h

theorem isFloating_of_not_isIntegral (numeric : l.type.isNumeric) (h : ¬l.type.isIntegral) : l.type.isFloating := by
  cases l <;> first | rfl | exact absurd rfl h | cases numeric

theorem binary_eq (hl : l.inRange) (hr : r.inRange) (op : BinaryOp) :
    (op = .rem ∧ l.refusesRemainder r → l.binary r op = raised ⟨.valueError, "math domain error"⟩) ∧
    (¬(op = .rem ∧ l.refusesRemainder r) → Settles (l.binary r op)) := by
  by_cases boolean : l.type = .boolean ∨ r.type = .boolean
  · have unpromoted : l.refusesRemainder r = false := by
      cases l <;> cases r <;> first | rfl | (rcases boolean with h | h <;> cases h)
    refine ⟨fun h => by simp [unpromoted] at h, fun _ => ?_⟩
    unfold binary
    split
    · exact settles_booleanOp _ _ _
    · rw [if_pos boolean]
      split <;> first | exact .ok _ | exact .fault _
  · have hb := not_or.mp boolean
    have nl := isNumeric_of_not_boolean hb.1
    have nr := isNumeric_of_not_boolean hb.2
    by_cases integral : l.type.isIntegral ∧ r.type.isIntegral
    · have rl := inRange_of_isIntegral hl integral.1
      have rr := inRange_of_isIntegral hr integral.2
      have finite : l.refusesRemainder r = false := by
        rw [refusesRemainder, Machine.promote_inRange rl rr]
        simp [isInfinite_ofWord]
      refine ⟨fun h => by simp [finite] at h, fun _ => ?_⟩
      rw [Machine.binary_integral rl rr]
      split
      · exact settles_shiftOp hb.1 hb.2 op
      · exact settles_integralOp _ _ _ _
    · have floating : l.type.isFloating ∨ r.type.isFloating :=
        (not_and_or.mp integral).imp (isFloating_of_not_isIntegral nl) (isFloating_of_not_isIntegral nr)
      obtain ⟨x, y, t, promoted⟩ := promote_real hl hr nl nr floating
      have condition : l.refusesRemainder r ↔ x.isInf ∧ (y == 0.0) = false ∧ y.isNaN = false := by
        simp [refusesRemainder, promoted, isInfinite_real, isZero_real, isNaN_real, and_assoc]
      have computed : l.binary r op = if op.isShift then shiftOp l r op else floatingOp x y op t := by
        unfold binary
        split
        · exact absurd rfl hb.1
        · simp only [if_neg boolean, promoted, number_real]
      rw [computed, condition]
      split
      · next shift =>
        exact ⟨fun h => by simp [h.1, BinaryOp.isShift] at shift, fun _ => settles_shiftOp hb.1 hb.2 op⟩
      · exact floatingOp_eq x y op t

theorem integerPart_eq (x : Float) :
    ((x.isNaN || x.isInf) → ∃ e, integerPart x = .error e) ∧
    (¬(x.isNaN || x.isInf) → ∃ n, integerPart x = .ok n) := by
  unfold integerPart
  split
  · next h => exact ⟨fun _ => ⟨_, rfl⟩, fun number => absurd (by rw [h, Bool.true_or]) number⟩
  · next number => split <;> simp_all

theorem ofFloat_eq (x : Float) (nt : t.isNumeric) :
    (t = .char ∧ (x.isNaN || x.isInf) → ∃ e, ofFloat t x = .error e) ∧
    (¬(t = .char ∧ (x.isNaN || x.isInf)) → ∃ q, ofFloat t x = .ok q ∧ q.type = t) := by
  obtain ⟨refused, computed⟩ := integerPart_eq x
  cases t with
  | boolean | void => cases nt
  | char =>
    constructor
    · rintro ⟨-, h⟩
      obtain ⟨e, he⟩ := refused h
      exact ⟨e, by rw [ofFloat, he]; rfl⟩
    · intro h
      obtain ⟨n, hn⟩ := computed fun lacks => h ⟨rfl, lacks⟩
      exact ⟨_, by rw [ofFloat, hn]; rfl, rfl⟩
  | _ => exact ⟨fun h => (by cases h.1), fun _ => ⟨_, rfl, rfl⟩⟩

/-- A number without an integer part is no `char`. Every other conversion between numeric types
gives a value of the type. -/
theorem convert_eq (held : l.inRange) (nl : l.type.isNumeric) (nt : t.isNumeric) :
    (t = .char ∧ l.hasNoIntegerPart → ∃ e, l.convert t = .error e) ∧
    (¬(t = .char ∧ l.hasNoIntegerPart) → ∃ q, l.convert t = .ok q ∧ q.type = t) := by
  have integral (small : l.integer.natAbs < 2 ^ 64) : ∃ q, ofInt t l.integer = .ok q ∧ q.type = t := by
    have nonvoid : t ≠ .void := by
      rintro rfl
      cases nt
    cases result : ofInt t l.integer with
    | error e =>
      have ends := isOk_ofInt nonvoid small
      rw [result] at ends
      cases ends
    | ok q => exact ⟨q, rfl, type_of_ofInt result⟩
  cases l with
  | boolean b => cases nl
  | float x | double x => exact ofFloat_eq x nt
  | char c =>
    refine ⟨fun h => (by cases h.2), fun _ => ?_⟩
    have number := integral (natAbs_lt_of_inRange (inRange_of_isIntegral held rfl))
    cases t with
    | boolean | void => cases nt
    | char => exact ⟨_, rfl, rfl⟩
    | _ => exact number
  | byte n | short n | int n | long n =>
    exact ⟨fun h => (by cases h.2), fun _ => integral (natAbs_lt_of_inRange (inRange_of_isIntegral held rfl))⟩

end Primitive

namespace Run

open Primitive (Settles)

theorem ofTrouble_of_settles {α : Type} {x : Except Trouble α} (h : Settles x) (w : World) :
    (∃ a, x = .ok a) ∨ ∃ cause target w', (ofTrouble x).run w = .failed (.fault cause target) w' := by
  match x with
  | .ok a => exact .inl ⟨a, rfl⟩
  | .error (.fault c) => exact .inr ⟨c, _, w, rfl⟩
  | .error (.throws e c) => exact .inr ⟨c, _, _, rfl⟩
  | .error (.host e) => exact absurd rfl (h e)

theorem computedPrimitive_boxes (p : Primitive) (w : World) :
    ∃ mark w', (computedPrimitive p).run w = .done (.boxed p mark) w' := by
  unfold computedPrimitive
  split <;> exact ⟨_, _, rfl⟩

theorem cast_boxed (p : Primitive) (mark : Nat) {t : PrimType} (nt : t.isNumeric)
    (mode : Conversion) : cast (.boxed p mark) (.prim t) mode = castPrimitive p mark t mode := by
  cases t <;> first | rfl | cases nt

theorem castPrimitive_numeric {p : Primitive} (mark : Nat) {t : PrimType} (np : p.type.isNumeric)
    (nt : t.isNumeric) (other : p.type ≠ t) (w : World) :
    (castPrimitive p mark t .cast).run w =
      (do let q ← ofHost (p.convert t); pure (.boxed q mark) : Faulty Value).run w := by
  have apart : ¬(p.type = .boolean || t = .boolean) := by
    simp [PrimType.ne_boolean_of_isNumeric np, PrimType.ne_boolean_of_isNumeric nt]
  rw [castPrimitive, if_neg other, if_neg apart]
  rfl

end Run

/-- For all boxed values and every operator, known or not, an operation ends with a boxed value or
fails with a fault of the script; only the remainder of an infinity by a number other than zero
raises an error of the host. A cast between numeric types ends with a value of the target type,
except to `char` for a number without an integer part. -/
theorem primitive_operations_fail_with_faults (ev : Evaluator) (w : World) (m n : Nat)
    {l r : Primitive} (hl : l.inRange) (hr : r.inRange) :
    (∀ symbol : String,
      (¬(symbol = "%" ∧ l.refusesRemainder r) →
        (∃ p mark w', (ev.binaryOp (.boxed l m) (.boxed r n) (.ofSymbol symbol)).run w = .done (.boxed p mark) w') ∨
        ∃ cause target w',
          (ev.binaryOp (.boxed l m) (.boxed r n) (.ofSymbol symbol)).run w = .failed (.fault cause target) w') ∧
      (symbol = "%" ∧ l.refusesRemainder r →
        (ev.binaryOp (.boxed l m) (.boxed r n) (.ofSymbol symbol)).run w =
          (Run.raise ⟨.valueError, "math domain error"⟩ : Plain Value).run w)) ∧
    (l.type.isNumeric → ∀ t : PrimType, t.isNumeric →
      (¬(t = .char ∧ l.hasNoIntegerPart) →
        ∃ p, (Run.cast (.boxed l m) (.prim t) .cast).run w = .done (.boxed p m) w ∧ p.type = t) ∧
      (t = .char ∧ l.hasNoIntegerPart →
        ∃ e, (Run.cast (.boxed l m) (.prim t) .cast).run w = (Run.raise e : Plain Value).run w)) := by
  refine ⟨fun symbol => ?_, fun nl t nt => ?_⟩
  · obtain ⟨refused, settled⟩ := Primitive.binary_eq hl hr (.ofSymbol symbol)
    rw [BinaryOp.ofSymbol_eq_rem_iff] at refused settled
    constructor
    · intro h
      rcases Run.ofTrouble_of_settles (settled h) w with ⟨p, hp⟩ | ⟨cause, target, w', failed⟩
      · left
        show ∃ p mark w', ((Run.ofTrouble (l.binary r _)).run >>= _) w = _
        rw [hp]
        show ∃ p mark w', Action.run (ite _ _ _) w = _
        split
        · exact ⟨p, 0, w, rfl⟩
        · exact ⟨p, Run.computedPrimitive_boxes p w⟩
      · exact .inr ⟨cause, target, w', Comp.bind_of_failed failed⟩
    · intro h
      unfold Evaluator.binaryOp
      simp only [refused h]
      rfl
  · rw [Run.cast_boxed l m nt]
    by_cases same : l.type = t
    · have held : ¬(t = .char ∧ l.hasNoIntegerPart) := by
        rintro ⟨rfl, h⟩
        cases l <;> first | cases h | cases same
      refine ⟨fun _ => ⟨l, ?_, same⟩, fun h => absurd h held⟩
      rw [Run.castPrimitive, if_pos same]
      rfl
    · obtain ⟨refused, converted⟩ := Primitive.convert_eq hl nl nt
      rw [Run.castPrimitive_numeric m nl nt same]
      constructor
      · intro h
        obtain ⟨q, hq, type⟩ := converted h
        exact ⟨q, by rw [hq]; rfl, type⟩
      · intro h
        obtain ⟨e, he⟩ := refused h
        exact ⟨e, by rw [he]; rfl⟩

theorem primitive_operations_fail_with_faults_infinity :
    let infinity := Primitive.double (Binary.infinity true)
    let remainder := ((Evaluator.ofFuel 1).binaryOp (.boxed infinity 0) (.boxed (.int 0) 0) (.ofSymbol "%")).run {}
    infinity.inRange ∧ (Primitive.int 0).inRange ∧ infinity.isInfinite ∧ infinity.refusesRemainder (.int 0) = false ∧
    ((∃ p mark w, remainder = .done (.boxed p mark) w) ∨ ∃ cause target w, remainder = .failed (.fault cause target) w) ∧
    ∃ p, (Run.cast (.boxed infinity 0) (.prim .int) .cast).run {} = .done (.boxed p 0) {} ∧ p.type = .int := by
  intro infinity remainder
  have hl : infinity.inRange := rfl
  have hr : (Primitive.int 0).inRange := rfl
  have computed : infinity.refusesRemainder (.int 0) = false := rfl
  obtain ⟨operators, casts⟩ := primitive_operations_fail_with_faults (Evaluator.ofFuel 1) {} 0 0 hl hr
  exact ⟨hl, hr, rfl, computed, (operators "%").1 (by simp [computed]), (casts rfl .int rfl).1 nofun⟩

/-- The remainder of an infinity by one, and the cast of a not-a-number to `char`, raise errors of
the host. -/
theorem infinite_remainder_raises_host_error :
    ((Evaluator.ofFuel 1).binaryOp (.boxed (.double (Binary.infinity false)) 0)
    (.boxed (.double 1.0) 0) (.ofSymbol "%")).run {} =
      (Run.raise ⟨.valueError, "math domain error"⟩ : Plain Value).run {} ∧
    (Run.cast (.boxed (.double Binary.nan) 0) (.prim .char) .cast).run {} =
      (Run.raise ⟨.valueError, "cannot convert float NaN to integer"⟩ : Plain Value).run {} := by
  constructor
  · rfl
  · rfl

end ScriptCore
