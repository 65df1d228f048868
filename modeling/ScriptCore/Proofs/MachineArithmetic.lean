import ScriptCore.Interpreter
import Mathlib.Data.BitVec
import Mathlib.Tactic.NormNum
import Mathlib.Algebra.Order.Ring.Int

namespace ScriptCore

namespace Primitive

def integer : Primitive → Int
  | byte n | short n | int n | long n => n
  | char c => c
  | _ => 0

def InRange : Primitive → Prop
  | byte n => -2 ^ 7 ≤ n ∧ n < 2 ^ 7
  | short n => -2 ^ 15 ≤ n ∧ n < 2 ^ 15
  | char c => c < 0x110000
  | int n => -2 ^ 31 ≤ n ∧ n < 2 ^ 31
  | long n => -2 ^ 63 ≤ n ∧ n < 2 ^ 63
  | _ => False

def word (bits : Nat) (p : Primitive) : BitVec bits := BitVec.ofInt bits p.integer

def ofBits {bits : Nat} (x : BitVec bits) : Primitive := if bits = 64 then long x.toInt else int x.toInt

/-- Changes the word of the type of the value itself. A `char` is a word without a sign. -/
def mapWord (f : {bits : Nat} → BitVec bits → BitVec bits) : Primitive → Primitive
  | byte n => byte (f (BitVec.ofInt 8 n)).toInt
  | short n => short (f (BitVec.ofInt 16 n)).toInt
  | char c => char (f (BitVec.ofNat 16 c)).toNat
  | int n => int (f (BitVec.ofInt 32 n)).toInt
  | long n => long (f (BitVec.ofInt 64 n)).toInt
  | p => p

end Primitive

def PrimType.width : PrimType → Nat
  | .long => 64
  | _ => 32

namespace Machine

/-- What the machine says to an operation. -/
inductive Result where
  | value (p : Primitive)
  | divisionByZero
  | unsupported

open Primitive (ofBits)

variable {bits : Nat}

def operate (a b : BitVec bits) : BinaryOp → Result
  | .add => .value (ofBits (a + b))
  | .sub => .value (ofBits (a - b))
  | .mul => .value (ofBits (a * b))
  | .div => if b = 0 then .divisionByZero else .value (ofBits (a.sdiv b))
  | .rem => if b = 0 then .divisionByZero else .value (ofBits (a.srem b))
  | .bitAnd => .value (ofBits (a &&& b))
  | .bitOr => .value (ofBits (a ||| b))
  | .bitXor => .value (ofBits (a ^^^ b))
  | .eq => .value (.boolean (a == b))
  | .ne => .value (.boolean (a != b))
  | .lt => .value (.boolean (a.slt b))
  | .le => .value (.boolean (a.sle b))
  | .gt => .value (.boolean (b.slt a))
  | .ge => .value (.boolean (b.sle a))
  | _ => .unsupported

def shift (a : BitVec bits) (distance : Nat) : BinaryOp → Result
  | .shl => .value (ofBits (a <<< distance))
  | .shr => .value (ofBits (a.sshiftRight distance))
  | .ushr => .value (ofBits (a >>> distance))
  | _ => .unsupported

/-- Shifts have the width of the left operand alone, all others that of the wider operand. -/
def binary (l r : Primitive) (op : BinaryOp) : Result :=
  if op.isShift then shift (l.word l.type.width) (r.integer % l.type.width).toNat op
  else operate (l.word (max l.type.width r.type.width)) (r.word (max l.type.width r.type.width)) op

def unary (p : Primitive) : UnaryOp → Result
  | .plus => .value (ofBits (p.word p.type.width))
  | .minus => .value (ofBits (-p.word p.type.width))
  | .complement => .value (ofBits (~~~p.word p.type.width))
  | .increment => .value (p.mapWord (· + 1))
  | .decrement => .value (p.mapWord (· - 1))
  | _ => .unsupported

end Machine

namespace Primitive

variable {p : Primitive} {bits : Nat}

theorem number_of_inRange (h : p.InRange) : p.number = .ok (.int p.integer) := by
  cases p with
  | boolean | float | double => exact h.elim
  | _ => rfl

theorem isIntegral_of_inRange (h : p.InRange) : p.type.isIntegral := by
  cases p with
  | boolean | float | double => exact h.elim
  | _ => rfl

theorem toInt_word (h : p.InRange) (hb : p.type.width ≤ bits) : (p.word bits).toInt = p.integer := by
  have bounds : -2 ^ (p.type.width - 1) ≤ p.integer ∧ p.integer < 2 ^ (p.type.width - 1) := by
    cases p with
    | boolean | float | double => exact h.elim
    | _ =>
      simp only [InRange] at h
      simp only [type, PrimType.width, integer]
      norm_num at h ⊢
      omega
  have wider : (2 : Int) ^ (p.type.width - 1) ≤ 2 ^ (bits - 1) := by
    apply pow_le_pow_right₀ <;> omega
  have positive : 0 < p.type.width := by unfold PrimType.width; split <;> decide
  exact BitVec.toInt_ofInt_eq_self (by omega) (by omega) (by omega)

theorem ofWord_eq_ofBits {t : PrimType} (hb : t.width = bits) {x : BitVec bits} {n : Int}
    (h : BitVec.ofInt bits n = x) : ofWord t n = ofBits x := by
  subst hb h
  cases t <;> simp [ofWord, ofBits, PrimType.width, Word.wrap, BitVec.toInt_ofInt]

theorem wordBits_eq_width (t : PrimType) : wordBits t = t.width := by cases t <;> rfl

theorem ofInt_tdiv (x y : BitVec bits) : BitVec.ofInt bits (x.toInt.tdiv y.toInt) = x.sdiv y := by
  apply BitVec.eq_of_toInt_eq
  rw [BitVec.toInt_ofInt, BitVec.toInt_sdiv]

theorem ofInt_tmod (x y : BitVec bits) : BitVec.ofInt bits (x.toInt.tmod y.toInt) = x.srem y := by
  rw [← BitVec.toInt_srem, BitVec.ofInt_toInt]

theorem ofInt_wrap (bits : Nat) (n : Int) : BitVec.ofInt bits (Word.wrap bits n) = BitVec.ofInt bits n := by
  have wrapped : Word.wrap bits n = (BitVec.ofInt bits n).toInt := by rw [BitVec.toInt_ofInt]; rfl
  rw [wrapped, BitVec.ofInt_toInt]

theorem ofInt_shiftLeft (x : BitVec bits) (k : Nat) : BitVec.ofInt bits (Word.shiftLeft bits x.toInt k) = x <<< k := by
  have power : BitVec.ofInt bits (2 ^ k) = BitVec.twoPow bits k := by
    apply BitVec.eq_of_toNat_eq
    rw [BitVec.toNat_ofInt, BitVec.toNat_twoPow]
    exact congrArg Int.toNat (Int.natCast_mod (2 ^ k) (2 ^ bits)).symm
  unfold Word.shiftLeft
  rw [ofInt_wrap, BitVec.ofInt_mul, BitVec.ofInt_toInt, power, BitVec.shiftLeft_eq_mul_twoPow]

theorem ofInt_shiftRight (x : BitVec bits) (k : Nat) :
    BitVec.ofInt bits (Word.shiftRight bits x.toInt k) = x.sshiftRight k := by
  unfold Word.shiftRight
  rw [ofInt_wrap, ← BitVec.toInt_sshiftRight, BitVec.ofInt_toInt]

theorem ofInt_shiftRightZero (x : BitVec bits) (k : Nat) :
    BitVec.ofInt bits (Word.shiftRightZero bits x.toInt k) = x >>> k := by
  have unsigned : Word.unsigned bits x.toInt = x.toNat := by
    unfold Word.unsigned
    rw [← BitVec.toNat_ofInt, BitVec.ofInt_toInt]
  unfold Word.shiftRightZero
  rw [ofInt_wrap, unsigned, BitVec.ofInt_natCast, ← BitVec.toNat_ushiftRight, BitVec.ofNat_toNat, BitVec.setWidth_eq]

end Primitive

namespace Machine

variable {t : PrimType} {l r p : Primitive} {op : BinaryOp} {bits : Nat}

/-- How the operators on boxed values put what the machine says. -/
def Result.verdict (complaint : Cause) : Result → Except Trouble Primitive
  | value p => .ok p
  | divisionByZero => .error (.throws ⟨.zeroDivisionError, "/ by zero"⟩ .arithmetic)
  | unsupported => .error (.fault complaint)

open Primitive

theorem integralOp_toInt (x y : BitVec t.width) (op : BinaryOp) :
    integralOp x.toInt y.toInt op t = (operate x y op).verdict (.badOperator op.symbol t.name) := by
  have zero : y.toInt = 0 ↔ y = 0 := by rw [← BitVec.toInt_zero, BitVec.toInt_inj]; rfl
  have same : (x.toInt == y.toInt) = (x == y) := by
    rw [Bool.eq_iff_iff]
    simp [BitVec.toInt_inj]
  cases op with
  | add =>
    simp only [integralOp, compareInt?, operate, Result.verdict]
    rw [ofWord_eq_ofBits rfl (by rw [BitVec.ofInt_add, BitVec.ofInt_toInt, BitVec.ofInt_toInt])]
  | sub =>
    simp only [integralOp, compareInt?, operate, Result.verdict]
    rw [ofWord_eq_ofBits rfl (by
      rw [Int.sub_eq_add_neg, BitVec.ofInt_add, BitVec.ofInt_neg, BitVec.ofInt_toInt, BitVec.ofInt_toInt])]
    rw [BitVec.sub_eq_add_neg]
  | mul =>
    simp only [integralOp, compareInt?, operate, Result.verdict]
    rw [ofWord_eq_ofBits rfl (by rw [BitVec.ofInt_mul, BitVec.ofInt_toInt, BitVec.ofInt_toInt])]
  | div =>
    simp only [integralOp, compareInt?, operate, zero]
    split
    · rfl
    · rw [ofWord_eq_ofBits rfl (ofInt_tdiv x y)]
      rfl
  | rem =>
    simp only [integralOp, compareInt?, operate, zero]
    split
    · rfl
    · rw [ofWord_eq_ofBits rfl (ofInt_tmod x y)]
      rfl
  | bitAnd | bitOr | bitXor =>
    simp only [integralOp, compareInt?, operate, Result.verdict, wordBits_eq_width]
    simp only [Word.land, Word.lor, Word.lxor]
    rw [ofWord_eq_ofBits rfl (by rw [BitVec.ofInt_toInt, BitVec.ofInt_toInt, BitVec.ofInt_toInt])]
  | eq | ne => simp only [integralOp, compareInt?, operate, Result.verdict, bne, same]
  | lt | le | gt | ge =>
    simp only [integralOp, compareInt?, operate, Result.verdict, BitVec.slt_eq_decide, BitVec.sle_eq_decide]
  | _ => rfl

theorem distance_width (t : PrimType) (n : Int) : Word.distance t.width n = (n % t.width).toNat := by
  have power : 2 ^ Nat.log2 t.width = t.width := by cases t <;> decide +kernel
  unfold Word.distance Word.unsigned
  rw [power]

theorem shiftOp_word (hl : l.InRange) (hr : r.InRange) (h : op.isShift) (complaint : Cause) :
    shiftOp l r op = (shift (l.word l.type.width) (r.integer % l.type.width).toNat op).verdict complaint := by
  have integral : l.type.isFloating = false ∧ r.type.isFloating = false := by
    constructor
    · cases l <;> first | exact hl.elim | rfl
    · cases r <;> first | exact hr.elim | rfl
  have width : l.type.promoted.width = l.type.width := by cases l <;> rfl
  have operand := toInt_word hl (Nat.le_refl _)
  unfold shiftOp
  simp only [integral, Bool.or_self, Bool.false_eq_true, if_false, number_of_inRange hl, number_of_inRange hr, hosted,
    wordBits_eq_width, width, distance_width]
  simp only [← operand]
  cases op with
  | shl => exact congrArg Except.ok (ofWord_eq_ofBits width (ofInt_shiftLeft _ _))
  | shr => exact congrArg Except.ok (ofWord_eq_ofBits width (ofInt_shiftRight _ _))
  | ushr => exact congrArg Except.ok (ofWord_eq_ofBits width (ofInt_shiftRightZero _ _))
  | _ => cases h

theorem commonType_integral {a b : PrimType} (ha : a.isIntegral) (hb : b.isIntegral) :
    commonType a b = if a = .long ∨ b = .long then .long else .int := by
  cases a <;> cases b <;> simp_all [PrimType.isIntegral, commonType, PrimType.promoted, PrimType.rank?]

def IsWide (t : PrimType) : Prop := t = .int ∨ t = .long

theorem ofInt_wide (ht : IsWide t) (n : Int) : ofInt t n = .ok (ofWord t n) := by
  obtain rfl | rfl := ht <;> rfl

theorem number_ofWord (ht : IsWide t) (n : Int) : (ofWord t n).number = .ok (.int (Word.wrap t.width n)) := by
  obtain rfl | rfl := ht <;> rfl

theorem wrap_integer (h : p.InRange) (bits : Nat) (hb : p.type.width ≤ bits) :
    Word.wrap bits p.integer = p.integer := by
  have held := toInt_word h hb
  rw [word, BitVec.toInt_ofInt] at held
  exact held

section

variable (hl : l.InRange) (hr : r.InRange)
include hl hr

theorem commonType_wide : IsWide (commonType l.type r.type) := by
  rw [commonType_integral (isIntegral_of_inRange hl) (isIntegral_of_inRange hr)]
  unfold IsWide
  split <;> simp

theorem width_commonType : (commonType l.type r.type).width = max l.type.width r.type.width := by
  rw [commonType_integral (isIntegral_of_inRange hl) (isIntegral_of_inRange hr)]
  generalize l.type = a
  generalize r.type = b
  cases a <;> cases b <;> simp [PrimType.width]

theorem promote_inRange :
    promote l r = .ok (ofWord (commonType l.type r.type) l.integer, ofWord (commonType l.type r.type) r.integer,
      commonType l.type r.type) := by
  have wide := commonType_wide hl hr
  unfold promote
  simp only [number_of_inRange hl, number_of_inRange hr]
  show (ofInt _ l.integer >>= fun x => ofInt _ r.integer >>= fun y => _) = _
  rw [ofInt_wide wide, ofInt_wide wide]
  rfl

theorem binary_integral (op : BinaryOp) : l.binary r op =
      if op.isShift then shiftOp l r op else integralOp l.integer r.integer op (commonType l.type r.type) := by
  have numeric : ¬(l.type = .boolean ∨ r.type = .boolean) := by
    rintro (h | h)
    · cases l <;> first | exact hl.elim | cases h
    · cases r <;> first | exact hr.elim | cases h
  have width := width_commonType hl hr
  have wide := commonType_wide hl hr
  unfold Primitive.binary
  split
  · exact hl.elim
  · rw [if_neg numeric, promote_inRange hl hr]
    simp only [number_ofWord wide, wrap_integer hl (commonType l.type r.type).width (by omega),
      wrap_integer hr (commonType l.type r.type).width (by omega)]

theorem binary_eq_verdict (op : BinaryOp) :
    l.binary r op = (binary l r op).verdict (.badOperator op.symbol (commonType l.type r.type).name) := by
  rw [binary_integral hl hr, binary]
  split
  · next h => exact shiftOp_word hl hr h _
  · have width := width_commonType hl hr
    rw [← width, ← integralOp_toInt, toInt_word hl (by omega), toInt_word hr (by omega)]

end

def unaryComplaint (t : PrimType) : UnaryOp → Cause
  | .other symbol => .unknownUnary symbol
  | op => .badOperator op.symbol t.name

theorem promoted_wide (h : p.InRange) : IsWide p.type.promoted := by
  cases p with
  | boolean | float | double => exact h.elim
  | _ => simp [IsWide, type, PrimType.promoted]

theorem mapNumber_promoted (h : p.InRange) {f : Int → Int} {g : Float → Float}
    {x : BitVec p.type.width} (hx : BitVec.ofInt p.type.width (f p.integer) = x) :
    mapNumber p.type.promoted f g (.int p.integer) = .ok (ofBits x) := by
  have width : p.type.promoted.width = p.type.width := by cases p <;> rfl
  show hosted (ofInt p.type.promoted (f p.integer)) = _
  rw [ofInt_wide (promoted_wide h), ofWord_eq_ofBits width hx]
  rfl

theorem ofInt_complement (bits : Nat) (n : Int) : BitVec.ofInt bits (-n - 1) = ~~~BitVec.ofInt bits n := by
  rw [Int.sub_eq_add_neg, BitVec.ofInt_add, BitVec.ofInt_neg, BitVec.ofInt_neg, BitVec.neg_eq_not_add,
    ← BitVec.sub_eq_add_neg]
  exact BitVec.add_sub_cancel _ _

theorem mapNumber_own (h : p.InRange) (k : Int) {f : Float → Float} {step : {bits : Nat} → BitVec bits → BitVec bits}
    (hs : ∀ (bits : Nat) (n : Int), BitVec.ofInt bits (n + k) = step (BitVec.ofInt bits n)) :
    mapNumber p.type (· + k) f (.int p.integer) = .ok (p.mapWord step) := by
  have signed : ∀ (bits : Nat) (n : Int), Word.wrap bits (n + k) = (step (BitVec.ofInt bits n)).toInt := by
    intro bits n
    rw [← hs, BitVec.toInt_ofInt]
    rfl
  have unsigned : ∀ c : Nat, Word.unsigned 16 (c + k) = (step (BitVec.ofNat 16 c)).toNat := by
    intro c
    rw [← BitVec.ofInt_natCast, ← hs, BitVec.toNat_ofInt]
    rfl
  cases p with
  | boolean | float | double => exact h.elim
  | byte n => exact congrArg (fun z => Except.ok (byte z)) (signed 8 n)
  | short n => exact congrArg (fun z => Except.ok (short z)) (signed 16 n)
  | char c => exact congrArg (fun z => Except.ok (char z)) (unsigned c)
  | int n => exact congrArg (fun z => Except.ok (int z)) (signed 32 n)
  | long n => exact congrArg (fun z => Except.ok (long z)) (signed 64 n)

theorem unary_eq_verdict (h : p.InRange) (op : UnaryOp) :
    p.unary op = (unary p op).verdict (unaryComplaint p.type op) := by
  cases op with
  | not | other s => cases p <;> first | exact h.elim | rfl
  | plus =>
    have opened : p.unary .plus = mapNumber p.type.promoted id id (.int p.integer) := by
      cases p <;> first | exact h.elim | rfl
    rw [opened, mapNumber_promoted h rfl]
    rfl
  | minus =>
    have opened : p.unary .minus = mapNumber p.type.promoted (fun n => -n) (fun x => -x) (.int p.integer) := by
      cases p <;> first | exact h.elim | rfl
    rw [opened, mapNumber_promoted h BitVec.ofInt_neg]
    rfl
  | complement =>
    have opened : p.unary .complement = mapNumber p.type.promoted (fun n => -n - 1) id (.int p.integer) := by
      cases p <;> first | exact h.elim | rfl
    rw [opened, mapNumber_promoted h (ofInt_complement _ _)]
    rfl
  | increment =>
    have opened : p.unary .increment = mapNumber p.type (· + 1) (· + 1.0) (.int p.integer) := by
      cases p <;> first | exact h.elim | rfl
    rw [opened]
    exact mapNumber_own h 1 fun bits n => BitVec.ofInt_add n 1
  | decrement =>
    have opened : p.unary .decrement = mapNumber p.type (· + -1) (· - 1.0) (.int p.integer) := by
      cases p <;> first | exact h.elim | rfl
    rw [opened]
    refine mapNumber_own h (-1) fun bits n => ?_
    rw [BitVec.ofInt_add, BitVec.ofInt_neg]
    exact (BitVec.sub_eq_add_neg _ _).symm

/-- What comes of an operation in a world when the machine says `r`: a value, a new exception for a
division by zero, or a fault without an exception. -/
def Result.Gives (r : Result) (mark : Nat) (complaint : Cause) (w : World) (o : Outcome World Value) : Prop :=
  match r with
  | .value p => o = .done (.boxed p mark) w
  | .divisionByZero => ∃ w' i args, o = .failed (.fault .arithmetic (some ⟨.object i, false⟩)) w' ∧
      w'.obj i = { cls := .core .zeroDivisionError, payload := .exception (.object args) } ∧
      (w'.obj args).payload = .tuple [.ofString "/ by zero"]
  | .unsupported => o = .failed (.fault complaint none) w

theorem Result.gives_verdict {r : Result} {mark : Nat} {complaint : Cause} {w : World}
    {f : Primitive → Run Value} (hf : ∀ p, r = .value p → f p w = .done (.boxed p mark) w) :
    r.Gives mark complaint w (((Run.ofTrouble (r.verdict complaint)).run >>= f) w) := by
  cases r with
  | value p => exact hf p rfl
  | unsupported => rfl
  | divisionByZero =>
    refine ⟨_, _, w.objects.size, rfl, ?_, ?_⟩
    · simp [World.obj, Array.getElem_push, ErrorClass.core]
    · have before : w.objects.size ≠ w.objects.size + 1 := Nat.ne_of_lt (Nat.lt_succ_self _)
      simp only [World.obj, Array.getElem?_push, Array.size_push, if_neg before, if_true, Option.getD_some]

def resultType (l r : PrimType) (op : BinaryOp) : PrimType :=
  if op.isComparison then .boolean
  else if op.isShift then l.promoted
  else if l = .long ∨ r = .long then .long
  else .int

theorem type_ofBits (ht : IsWide t) (hb : t.width = bits) (x : BitVec bits) : (ofBits x).type = t := by
  subst hb
  obtain rfl | rfl := ht <;> rfl

theorem type_operate (ht : IsWide t) (hb : t.width = bits) {a b : BitVec bits}
    (h : operate a b op = .value p) : p.type = if op.isComparison then .boolean else t := by
  cases op with
  | add | sub | mul | bitAnd | bitOr | bitXor =>
    cases h
    exact type_ofBits ht hb _
  | div | rem =>
    simp only [operate] at h
    split at h
    · cases h
    · cases h
      exact type_ofBits ht hb _
  | eq | ne | lt | le | gt | ge =>
    cases h
    rfl
  | _ => cases h

theorem type_shift (ht : IsWide t) (hb : t.width = bits) {a : BitVec bits} {k : Nat}
    (h : shift a k op = .value p) : p.type = t := by
  cases op with
  | shl | shr | ushr =>
    cases h
    exact type_ofBits ht hb _
  | _ => cases h

theorem type_binary (hl : l.InRange) (hr : r.InRange)
    (h : binary l r op = .value p) : p.type = resultType l.type r.type op := by
  unfold binary at h
  unfold resultType
  split at h
  · next hs =>
    have order : op.isComparison = false := by cases op <;> first | rfl | cases hs
    rw [if_neg (by simp [order]), if_pos hs]
    exact type_shift (promoted_wide hl) (by cases l <;> rfl) h
  · next hs =>
    rw [if_neg hs, ← commonType_integral (isIntegral_of_inRange hl) (isIntegral_of_inRange hr)]
    exact type_operate (commonType_wide hl hr) (width_commonType hl hr) h

theorem type_unary {l : Primitive} (hl : l.InRange) {op : UnaryOp} (h : unary l op = .value p) :
    p.type = if op = .increment ∨ op = .decrement then l.type else l.type.promoted := by
  cases op with
  | plus | minus | complement =>
    cases h
    exact type_ofBits (promoted_wide hl) (by cases l <;> rfl) _
  | increment | decrement =>
    cases h
    cases l <;> rfl
  | not | other s => cases h

theorem isNaN_of_isFloating (h : p.type.isFloating = false) : p.isNaN = false := by
  cases p <;> first | rfl | cases h

theorem isFloating_of_isWide (h : IsWide t) : t.isFloating = false := by
  obtain rfl | rfl := h <;> rfl

theorem isNaN_binary (hl : l.InRange) (hr : r.InRange) (h : binary l r op = .value p) : p.isNaN = false := by
  apply isNaN_of_isFloating
  rw [type_binary hl hr h, resultType, ← commonType_integral (isIntegral_of_inRange hl) (isIntegral_of_inRange hr)]
  split
  · rfl
  · split
    · exact isFloating_of_isWide (promoted_wide hl)
    · exact isFloating_of_isWide (commonType_wide hl hr)

theorem isNaN_unary {l : Primitive} (hl : l.InRange) {op : UnaryOp} (h : unary l op = .value p) : p.isNaN = false := by
  apply isNaN_of_isFloating
  rw [type_unary hl h]
  split
  · cases l <;> first | exact hl.elim | rfl
  · exact isFloating_of_isWide (promoted_wide hl)

theorem binary_eq_divisionByZero_iff (hr : r.InRange) :
    binary l r op = .divisionByZero ↔ (op = .div ∨ op = .rem) ∧ r.integer = 0 := by
  have zero : r.word (max l.type.width r.type.width) = 0 ↔ r.integer = 0 := by
    rw [← toInt_word hr (Nat.le_max_right l.type.width r.type.width), ← BitVec.toInt_inj]
    simp
  cases op with
  | div | rem =>
    simp only [binary, BinaryOp.isShift, operate, zero]
    simp
  | _ => simp [binary, BinaryOp.isShift, operate, shift]

theorem computedPrimitive_run (h : p.isNaN = false) (w : World) :
    (Run.computedPrimitive p).run w = .done (.boxed p 0) w := by
  unfold Run.computedPrimitive
  rw [if_neg (by simp [h])]
  rfl

theorem integer_operators_are_machine_arithmetic (ev : Evaluator) (w : World) {l r : Primitive}
    (hl : l.InRange) (hr : r.InRange) (m n : Nat) :
    (∀ op, (binary l r op).Gives 0 (.badOperator op.symbol (commonType l.type r.type).name) w
        ((ev.binaryOp (.boxed l m) (.boxed r n) op).run w)) ∧
    (∀ op p, binary l r op = .value p → p.type = resultType l.type r.type op) ∧
    (∀ op, binary l r op = .divisionByZero ↔ (op = .div ∨ op = .rem) ∧ r.integer = 0) ∧
    (∀ op, (unary l op).Gives (if op = .plus then m else 0) (unaryComplaint l.type op) w
        ((Run.unary (.boxed l m) op).run w)) ∧
    (∀ op p, unary l op = .value p →
        p.type = if op = .increment ∨ op = .decrement then l.type else l.type.promoted) ∧
    (l.word l.type.width).toInt = l.integer ∧
    (l.word (max l.type.width r.type.width)).toInt = l.integer ∧
    (r.word (max l.type.width r.type.width)).toInt = r.integer := by
  refine ⟨fun op => ?_, fun op p hp => type_binary hl hr hp, fun op => ?_, fun op => ?_,
    fun op p hp => type_unary hl hp, toInt_word hl (by omega), toInt_word hl (by omega), toInt_word hr (by omega)⟩
  · show Result.Gives _ _ _ _ (((Run.ofTrouble (l.binary r op)).run >>= _) w)
    rw [binary_eq_verdict hl hr]
    refine Result.gives_verdict fun p hp => ?_
    have number : p.isNaN = false := isNaN_binary hl hr hp
    simp only [Action.run_pure, apply_ite Action.run, Action.run_lift]
    split
    · rfl
    · exact computedPrimitive_run number w
  · exact binary_eq_divisionByZero_iff hr
  · show Result.Gives _ _ _ _ (((Run.ofTrouble (l.unary op)).run >>= _) w)
    rw [unary_eq_verdict hl]
    refine Result.gives_verdict fun p hp => ?_
    simp only [apply_ite Action.run]
    split
    · rfl
    · exact computedPrimitive_run (isNaN_unary hl hp) w

theorem integer_operators_are_machine_arithmetic_least :
    (Primitive.long (-2 ^ 63)).InRange ∧ (Primitive.byte (-1)).InRange ∧
    ((Evaluator.ofFuel 1).binaryOp (.boxed (.long (-2 ^ 63)) 0) (.boxed (.byte (-1)) 0) .div).run {}
    = .done (.boxed (.long (-2 ^ 63)) 0) {} := by
  have hl : (Primitive.long (-2 ^ 63)).InRange := by norm_num [InRange]
  have hr : (Primitive.byte (-1)).InRange := by norm_num [InRange]
  refine ⟨hl, hr, ?_⟩
  have all := integer_operators_are_machine_arithmetic (Evaluator.ofFuel 1) {} hl hr 0 0
  exact all.1 .div

end Machine

end ScriptCore
