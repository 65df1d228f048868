import ScriptCore.Proofs.MachineArithmetic

namespace ScriptCore

namespace Value

inductive Content where
  | truth (b : Bool)
  | number (n : Int)
  | reference (v : Value)

def content : Value → Content
  | boxed (.boolean b) _ => .truth b
  | boxed p _ => .number p.integer
  | v => .reference v

def IsWhole : Value → Prop
  | boxed p _ => p.InRange
  | _ => False

/-- A value of a script other than a floating point number. Numbers of the host are boxed before a
script sees them. -/
def IsDiscrete : Value → Prop
  | boxed p _ => p.type = .boolean ∨ p.InRange
  | int _ | float .. => False
  | _ => True

def Answers (l r : Value) (op : BinaryOp) (b : Bool) : Prop :=
  ∀ (ev : Evaluator) (w : World), (ev.binaryOp l r op).run w = .done (.ofTruth b) w

namespace Answers

variable {l r : Value} {op : BinaryOp} {a b : Bool}

theorem unique (h : Answers l r op a) (k : Answers l r op b) : a = b := by
  have same := (h Evaluator.exhausted {}).symm.trans (k Evaluator.exhausted {})
  simpa [ofTruth] using same

theorem true_iff (h : Answers l r op b) : Answers l r op true ↔ b = true := by
  constructor
  · intro k
    exact h.unique k
  · intro k
    rwa [← k]

theorem of_binary {p q : Primitive} (m n : Nat) (order : op.isComparison)
    (h : p.binary q op = .ok (.boolean b)) : Answers (boxed p m) (boxed q n) op b := by
  intro ev w
  have quotient : (op = .div || op = .rem) = false := by cases op <;> first | rfl | cases order
  simp only [Evaluator.binaryOp, h, quotient, Bool.false_and]
  rfl

theorem of_same (ev : Evaluator) (w : World) (apart : ¬(l.isPrimitive ∧ r.isPrimitive)) :
    (ev.binaryOp l r .eq).run w = .done (.ofTruth (l.same r)) w ∧
      (ev.binaryOp l r .ne).run w = .done (.ofTruth (!l.same r)) w := by
  have reference (op : BinaryOp) : ev.binaryOp l r op = ev.referenceOp l r op := by
    unfold Evaluator.binaryOp
    split
    · exact absurd ⟨rfl, rfl⟩ apart
    · rfl
  rw [reference, reference]
  exact ⟨rfl, rfl⟩

end Answers

theorem same_self {v : Value} (h : v.IsDiscrete) (unboxed : v.isPrimitive = false) : v.same v := by
  cases v with
  | boxed p mark => cases unboxed
  | int n => exact h.elim
  | float x mark => exact h.elim
  | _ => simp [same]

theorem eq_of_same {l r : Value} (hl : l.IsDiscrete) (apart : ¬(l.isPrimitive ∧ r.isPrimitive))
    (h : l.same r) : l = r := by
  unfold same at h
  split at h
  all_goals first
    | rfl
    | exact absurd ⟨rfl, rfl⟩ apart
    | exact hl.elim
    | cases h
    | simp_all

theorem content_unboxed {v : Value} (h : v.isPrimitive = false) : v.content = .reference v := by
  cases v with
  | boxed p mark => cases h
  | _ => rfl

theorem content_ne_reference {v : Value} (h : v.isPrimitive) (u : Value) : v.content ≠ .reference u := by
  cases v with
  | boxed p mark =>
    intro same
    cases p <;> cases same
  | _ => cases h

theorem same_iff {l r : Value} (hl : l.IsDiscrete) (apart : ¬(l.isPrimitive ∧ r.isPrimitive)) :
    l.same r ↔ l.content = r.content := by
  constructor
  · intro h
    rw [eq_of_same hl apart h]
  · intro h
    by_cases boxed : l.isPrimitive
    · have unboxed : r.isPrimitive = false := by simpa [boxed] using apart
      rw [content_unboxed unboxed] at h
      exact absurd h (content_ne_reference boxed r)
    · have unboxed : l.isPrimitive = false := by simpa using boxed
      rw [content_unboxed unboxed] at h
      by_cases other : r.isPrimitive
      · exact absurd h.symm (content_ne_reference other l)
      · rw [content_unboxed (by simpa using other)] at h
        cases h
        exact same_self hl unboxed

end Value

namespace Primitive

theorem content_inRange {p : Primitive} (h : p.InRange) (m : Nat) : (Value.boxed p m).content = .number p.integer := by
  cases p with
  | boolean b => exact h.elim
  | _ => rfl

theorem type_ne_boolean {p : Primitive} (h : p.InRange) : p.type ≠ .boolean := by
  intro truth
  cases p with
  | boolean b => exact h
  | _ => cases truth

theorem binary_compare {p q : Primitive} (hp : p.InRange) (hq : q.InRange) {op : BinaryOp} {b : Bool}
    (h : compareInt? p.integer q.integer op = some b) : p.binary q op = .ok (.boolean b) := by
  have straight : op.isShift = false := by cases op <;> first | rfl | cases h
  rw [Machine.binary_integral hp hq, straight, integralOp, h]
  rfl

theorem binary_mixed {p q : Primitive} (h : p.type = .boolean ∧ q.type ≠ .boolean ∨ p.type ≠ .boolean ∧ q.type = .boolean) :
    p.binary q .eq = .ok (.boolean false) ∧ p.binary q .ne = .ok (.boolean true) := by
  have mixed : p.type = .boolean ∨ q.type = .boolean := by
    rcases h with ⟨left, -⟩ | ⟨-, right⟩
    · exact .inl left
    · exact .inr right
  unfold binary
  split
  · rcases h with ⟨-, right⟩ | ⟨left, -⟩
    · exact absurd rfl right
    · exact absurd rfl left
  · simp [mixed]

end Primitive

namespace Value

variable {l r : Value}

theorem answers_compare {p q : Primitive} (hp : p.InRange) (hq : q.InRange) (m n : Nat) {op : BinaryOp} {b : Bool}
    (h : Primitive.compareInt? p.integer q.integer op = some b) : Answers (boxed p m) (boxed q n) op b := by
  have order : op.isComparison := by cases op <;> first | rfl | cases h
  exact .of_binary m n order (Primitive.binary_compare hp hq h)

theorem answers_eq (hl : l.IsDiscrete) (hr : r.IsDiscrete) :
    ∃ b, (b = true ↔ l.content = r.content) ∧ Answers l r .eq b ∧ Answers l r .ne (!b) := by
  by_cases both : l.isPrimitive ∧ r.isPrimitive
  · obtain ⟨p, m, rfl⟩ : ∃ p m, l = boxed p m := by
      cases l with
      | boxed p m => exact ⟨p, m, rfl⟩
      | _ => cases both.1
    obtain ⟨q, n, rfl⟩ : ∃ q n, r = boxed q n := by
      cases r with
      | boxed q n => exact ⟨q, n, rfl⟩
      | _ => cases both.2
    have apart (h : p.type = .boolean ∧ q.type ≠ .boolean ∨ p.type ≠ .boolean ∧ q.type = .boolean)
        (other : (boxed p m).content ≠ (boxed q n).content) :
        ∃ b, (b = true ↔ (boxed p m).content = (boxed q n).content) ∧ Answers (boxed p m) (boxed q n) .eq b ∧
          Answers (boxed p m) (boxed q n) .ne (!b) := by
      obtain ⟨eq, ne⟩ := Primitive.binary_mixed h
      exact ⟨false, by simp [other], .of_binary m n rfl eq, .of_binary m n rfl ne⟩
    rcases hl with truth | number
    · cases p with
      | boolean a =>
        rcases hr with truth' | number'
        · cases q with
          | boolean b => exact ⟨a == b, by simp [content], .of_binary m n rfl rfl, .of_binary m n rfl rfl⟩
          | _ => cases truth'
        · apply apart (.inl ⟨rfl, Primitive.type_ne_boolean number'⟩)
          rw [Primitive.content_inRange number']
          intro same
          cases same
      | _ => cases truth
    · rcases hr with truth' | number'
      · apply apart (.inr ⟨Primitive.type_ne_boolean number, truth'⟩)
        rw [Primitive.content_inRange number]
        intro same
        cases q with
        | boolean b => cases same
        | _ => cases truth'
      · refine ⟨p.integer == q.integer, ?_, answers_compare number number' m n rfl, answers_compare number number' m n rfl⟩
        simp [Primitive.content_inRange number, Primitive.content_inRange number']
  · exact ⟨l.same r, same_iff hl both, fun ev w => (Answers.of_same ev w both).1, fun ev w => (Answers.of_same ev w both).2⟩

theorem answers_eq_iff (hl : l.IsDiscrete) (hr : r.IsDiscrete) : Answers l r .eq true ↔ l.content = r.content := by
  obtain ⟨b, contents, equal, -⟩ := answers_eq hl hr
  rw [equal.true_iff, contents]

def integer : Value → Int
  | boxed p _ => p.integer
  | _ => 0

section

variable (hl : l.IsWhole) (hr : r.IsWhole)
include hl hr

theorem answers_whole (op : BinaryOp) {b : Bool}
    (h : Primitive.compareInt? l.integer r.integer op = some b) : Answers l r op b := by
  cases l with
  | boxed p m =>
    cases r with
    | boxed q n => exact answers_compare hl hr m n h
    | _ => exact hr.elim
  | _ => exact hl.elim

theorem answers_lt_iff : Answers l r .lt true ↔ l.integer < r.integer := by
  simpa using (answers_whole hl hr .lt rfl).true_iff

theorem answers_gt_iff : Answers l r .gt true ↔ r.integer < l.integer := by
  simpa using (answers_whole hl hr .gt rfl).true_iff

theorem answers_le_iff : Answers l r .le true ↔ l.integer ≤ r.integer := by
  simpa using (answers_whole hl hr .le rfl).true_iff

theorem answers_ge_iff : Answers l r .ge true ↔ r.integer ≤ l.integer := by
  simpa using (answers_whole hl hr .ge rfl).true_iff

theorem answers_eq_integer_iff : Answers l r .eq true ↔ l.integer = r.integer := by
  simpa using (answers_whole hl hr .eq rfl).true_iff

theorem exists_unique_order : ∃! op, op ∈ [BinaryOp.lt, .eq, .gt] ∧ Answers l r op true := by
  have lt := answers_lt_iff hl hr
  have eq := answers_eq_integer_iff hl hr
  have gt := answers_gt_iff hl hr
  have either {op : BinaryOp} (h : op ∈ [BinaryOp.lt, .eq, .gt]) : op = .lt ∨ op = .eq ∨ op = .gt := by simpa using h
  rcases lt_trichotomy l.integer r.integer with less | same | more
  · refine ⟨.lt, ⟨by simp, lt.mpr less⟩, ?_⟩
    rintro op ⟨listed, holds⟩
    rcases either listed with rfl | rfl | rfl
    · rfl
    · have same := eq.mp holds
      omega
    · have more := gt.mp holds
      omega
  · refine ⟨.eq, ⟨by simp, eq.mpr same⟩, ?_⟩
    rintro op ⟨listed, holds⟩
    rcases either listed with rfl | rfl | rfl
    · have less := lt.mp holds
      omega
    · rfl
    · have more := gt.mp holds
      omega
  · refine ⟨.gt, ⟨by simp, gt.mpr more⟩, ?_⟩
    rintro op ⟨listed, holds⟩
    rcases either listed with rfl | rfl | rfl
    · have less := lt.mp holds
      omega
    · have same := eq.mp holds
      omega
    · rfl

end

/-- On all values of a script but floating point numbers `==` gives a truth value, is an equivalence
and has `!=` for its negation. Boxed integers and `char` values of any types are in one linear
order. -/
theorem equality_and_order_cohere :
    (∀ l r : Value, l.IsDiscrete → r.IsDiscrete → ∃ b, Answers l r .eq b ∧ Answers l r .ne (!b)) ∧
    Equivalence (fun l r : {v : Value // v.IsDiscrete} => Answers l r .eq true) ∧
    (∀ l r : Value, l.IsWhole → r.IsWhole →
      (∀ op : BinaryOp, op.isComparison → ∃ b, Answers l r op b) ∧
      (∃! op, op ∈ [BinaryOp.lt, .eq, .gt] ∧ Answers l r op true) ∧
      (Answers l r .le true ↔ Answers l r .lt true ∨ Answers l r .eq true) ∧
      (Answers l r .ge true ↔ Answers l r .gt true ∨ Answers l r .eq true)) ∧
    ∀ a b c : Value, a.IsWhole → b.IsWhole → c.IsWhole →
      Answers a b .lt true → Answers b c .lt true → Answers a c .lt true := by
  refine ⟨?_, ?_, ?_, ?_⟩
  · intro l r hl hr
    obtain ⟨b, -, answers⟩ := answers_eq hl hr
    exact ⟨b, answers⟩
  · constructor
    · intro v
      exact (answers_eq_iff v.2 v.2).mpr rfl
    · intro l r equal
      have contents := (answers_eq_iff l.2 r.2).mp equal
      exact (answers_eq_iff r.2 l.2).mpr contents.symm
    · intro a b c first second
      have left := (answers_eq_iff a.2 b.2).mp first
      have right := (answers_eq_iff b.2 c.2).mp second
      exact (answers_eq_iff a.2 c.2).mpr (left.trans right)
  · intro l r hl hr
    refine ⟨?_, exists_unique_order hl hr, ?_, ?_⟩
    · intro op order
      obtain ⟨b, compared⟩ : ∃ b, Primitive.compareInt? l.integer r.integer op = some b := by
        cases op <;> first | exact ⟨_, rfl⟩ | cases order
      exact ⟨b, answers_whole hl hr op compared⟩
    · rw [answers_le_iff hl hr, answers_lt_iff hl hr, answers_eq_integer_iff hl hr]
      exact le_iff_lt_or_eq
    · rw [answers_ge_iff hl hr, answers_gt_iff hl hr, answers_eq_integer_iff hl hr, le_iff_lt_or_eq, eq_comm]
  · intro a b c ha hb hc first second
    have less := (answers_lt_iff ha hb).mp first
    have next := (answers_lt_iff hb hc).mp second
    exact (answers_lt_iff ha hc).mpr (less.trans next)

theorem equality_and_order_cohere_mixed :
    let least := boxed (.byte (-1)) 0
    let letter := boxed (.char 65) 0
    let great := boxed (.long (2 ^ 40)) 0
    least.IsWhole ∧ letter.IsWhole ∧ great.IsWhole ∧ Answers least letter .lt true ∧ Answers letter great .lt true ∧
      Answers least great .lt true ∧ ∃! op, op ∈ [BinaryOp.lt, .eq, .gt] ∧ Answers letter great op true := by
  intro least letter great
  have hl : least.IsWhole := by norm_num [least, IsWhole, Primitive.InRange]
  have hc : letter.IsWhole := by norm_num [letter, IsWhole, Primitive.InRange]
  have hg : great.IsWhole := by norm_num [great, IsWhole, Primitive.InRange]
  have first : Answers least letter .lt true := (answers_lt_iff hl hc).mpr (by decide)
  have second : Answers letter great .lt true := (answers_lt_iff hc hg).mpr (by decide)
  obtain ⟨-, -, orders, trans⟩ := equality_and_order_cohere
  exact ⟨hl, hc, hg, first, second, trans least letter great hl hc hg first second, (orders letter great hc hg).2.1⟩

end Value

end ScriptCore
