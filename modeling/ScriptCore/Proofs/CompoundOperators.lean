import ScriptCore.Proofs.InstanceCalls

namespace ScriptCore.Evaluator

variable {ev : Evaluator} {w w' : World} {l r v : Value} {op : BinaryOp}

def IsTextObject (w : World) (v : Value) : Prop := isText w v ∧ v.text? = none

def BothBoxed : Value → Value → Prop
  | .boxed .., .boxed .. => True
  | _, _ => False

theorem exists_str_of_isText (text : isText w l) (plain : ¬IsTextObject w l) : ∃ s mark, l = .str s mark := by
  cases l with
  | str s mark => exact ⟨s, mark, rfl⟩
  | _ => exact absurd ⟨text, rfl⟩ plain

theorem concat_done (a b : String × Nat) (w : World) : ∃ v w', (concat a b).run w = .done v w' := by
  unfold concat
  split
  · exact ⟨_, _, rfl⟩
  · split
    · exact ⟨_, _, rfl⟩
    · exact ⟨_, _, rfl⟩

theorem hostAdd_str (s t : String) (m n : Nat) (w : World) :
    (ev.hostAdd (.str s m) (.str t n)).run w = (concat (s, m) (t, n)).run w := by
  have joined : (coreSum w (.str s m) (.str t n)).run = (some <$> concat (s, m) (t, n) : Plain (Option Value)).run := by
    show (ite _ _ _ : Plain (Option Value)).run = (some <$> (ite _ _ _ : Plain Value)).run
    simp only [Value.text?, Option.isSome_some, Bool.and_true]
    split
    · rfl
    · split <;> rfl
  obtain ⟨v, w', made⟩ := concat_done (s, m) (t, n) w
  have sum : (ev.byOperands "__add__" "__radd__" (.str s m) (.str t n) (coreSum w (.str s m) (.str t n))).run w =
      .done (some v) w' := by
    -- Neither text has a class with a say of its own, so that the core classes decide.
    show (coreSum w (.str s m) (.str t n)).run w = _
    rw [joined]
    exact Comp.bind_of_done made
  rw [made]
  exact Comp.bind_of_done sum

theorem appendText_str (s : String) (m : Nat) (r : Value) (w : World) :
    (ev.appendText (.str s m) r).run w = (ev.joinTexts (.str s m) r).run w := by
  show Comp.bind (ev.scriptText r).run _ w = Comp.bind (ev.scriptText r).run _ w
  unfold Comp.bind
  cases (ev.scriptText r).run w with
  | done t w' => exact hostAdd_str s t.1 m t.2 w'
  | failed e w' => rfl
  | exhausted => rfl

theorem not_isText_of_bothBoxed (boxed : BothBoxed l r) : ¬isText w l ∧ ¬isText w r ∧ r ≠ .void := by
  cases l with
  | boxed p m =>
    cases r with
    | boxed q n => exact ⟨Bool.false_ne_true, Bool.false_ne_true, Value.noConfusion⟩
    | _ => cases boxed
  | _ => cases boxed

theorem appends_iff : (isText w l && !r.isVoid) = true ↔ isText w l ∧ r ≠ .void := by
  cases r <;> simp [Value.isVoid]

theorem compoundOp_of_isText (text : isText w l ∧ r ≠ .void) :
    (ev.compoundOp l r op).run w = .done v w' ↔ op = .add ∧ (ev.appendText l r).run w = .done v w' := by
  have rule : (ev.compoundOp l r op).run w =
      (if op = .add then ev.appendText l r else Run.fault .stringOperator : Action ev.may .fault Value).run w := by
    show (ite _ _ _ : Action ev.may .fault Value).run w = _
    rw [if_pos (appends_iff.mpr text)]
  rw [rule]
  by_cases add : op = .add
  · rw [if_pos add, and_iff_right add]
    rfl
  · rw [if_neg add]
    constructor
    · intro h
      cases h
    · intro h
      exact absurd h.1 add

theorem compoundOp_of_not_isText (other : ¬(isText w l ∧ r ≠ .void)) :
    (ev.compoundOp l r op).run w = .done v w' ↔ BothBoxed l r ∧ (ev.binaryOp l r op).run w = .done v w' := by
  by_cases boxed : BothBoxed l r
  · rw [and_iff_right boxed]
    cases l with
    | boxed p m =>
      cases r with
      | boxed q n => rfl
      | _ => cases boxed
    | _ => cases boxed
  · constructor
    · intro h
      have rule : (ev.compoundOp l r op).run w =
          (if l.isVoid || r.isVoid then Run.fault .undefinedOperand
          else if l.isNull || r.isNull then Run.fault .nullOperand
          else Run.fault (.nonPrimitiveOperand (w.qualname (w.classOf l)) op.symbol (w.qualname (w.classOf r))) :
            Action ev.may .fault Value).run w := by
        show (ite _ _ _ : Action ev.may .fault Value).run w = _
        rw [if_neg (mt appends_iff.mp other)]
        cases l with
        | boxed p m =>
          cases r with
          | boxed q n => exact absurd trivial boxed
          | _ => rfl
        | _ => rfl
      rw [rule] at h
      split at h
      · cases h
      · split at h <;> cases h
    · intro h
      exact absurd h.1 boxed

section

variable (known : AssignOp.compound op ∈ AssignOp.known)
include known

theorem ne_eq_of_known : op ≠ .eq ∧ op ≠ .ne := by
  constructor
  · rintro rfl
    simp [AssignOp.known] at known
  · rintro rfl
    simp [AssignOp.known] at known

theorem referenceOp_done_iff : (ev.referenceOp l r op).run w = .done v w' ↔
      op = .add ∧ (isText w l ∨ isText w r) ∧ (ev.joinTexts l r).run w = .done v w' := by
  obtain ⟨ne, nn⟩ := ne_eq_of_known known
  have rule : (ev.referenceOp l r op).run w =
      (if op = .add && (isText w l || isText w r) then ev.joinTexts l r
      else if l.isVoid || r.isVoid then Run.fault .illegalVoid
      else if l.isNull || r.isNull then Run.fault .illegalNull
      else Run.fault (.badOperator op.symbol "objects") : Action ev.may .fault Value).run w := by
    cases op with
    | eq => exact absurd rfl ne
    | ne => exact absurd rfl nn
    | _ => rfl
  rw [rule]
  by_cases joins : op = .add && (isText w l || isText w r)
  · rw [if_pos joins]
    simp only [Bool.and_eq_true, Bool.or_eq_true, decide_eq_true_eq] at joins
    exact ⟨fun h => ⟨joins.1, joins.2, h⟩, fun h => h.2.2⟩
  · rw [if_neg joins]
    simp only [Bool.and_eq_true, Bool.or_eq_true, decide_eq_true_eq] at joins
    constructor
    · intro h
      repeat' split at h
      all_goals cases h
    · intro h
      exact absurd ⟨h.1, h.2.1⟩ joins

theorem binaryOp_done_iff (loose : ¬BothBoxed l r) : (ev.binaryOp l r op).run w = .done v w' ↔
      op = .add ∧ (isText w l ∨ isText w r) ∧ (ev.joinTexts l r).run w = .done v w' := by
  have rule : ev.binaryOp l r op = ev.referenceOp l r op := by
    cases l with
    | boxed p m =>
      cases r with
      | boxed q n => exact absurd trivial loose
      | _ => rfl
    | _ => rfl
  rw [rule]
  exact referenceOp_done_iff known

theorem compoundOp_done_iff (plain : ¬IsTextObject w l) : (ev.compoundOp l r op).run w = .done v w' ↔
      (ev.binaryOp l r op).run w = .done v w' ∧ r ≠ .void ∧ (isText w l ∨ ¬isText w r) := by
  by_cases boxed : BothBoxed l r
  · obtain ⟨left, right, given⟩ := not_isText_of_bothBoxed (w := w) boxed
    rw [compoundOp_of_not_isText (fun text => left text.1), and_iff_right boxed]
    exact ⟨fun h => ⟨h, given, .inr right⟩, And.left⟩
  · rw [binaryOp_done_iff known boxed]
    by_cases text : isText w l ∧ r ≠ .void
    · obtain ⟨s, mark, rfl⟩ := exists_str_of_isText text.1 plain
      rw [compoundOp_of_isText text, appendText_str]
      exact ⟨fun h => ⟨⟨h.1, .inl text.1, h.2⟩, text.2, .inl text.1⟩, fun h => ⟨h.1.1, h.1.2.2⟩⟩
    · rw [compoundOp_of_not_isText text]
      constructor
      · intro h
        exact absurd h.1 boxed
      · rintro ⟨⟨-, one, -⟩, given, left | right⟩
        · exact absurd ⟨left, given⟩ text
        · exact absurd ⟨one.resolve_right right, given⟩ text

theorem add_of_refused (plain : ¬IsTextObject w l)
    (computed : (ev.binaryOp l r op).run w = .done v w') (differs : (ev.compoundOp l r op).run w ≠ .done v w') :
    op = .add ∧ (isText w l ∧ r = .void ∨ isText w r ∧ ¬isText w l) := by
  have refused : ¬(r ≠ .void ∧ (isText w l ∨ ¬isText w r)) := by
    intro kept
    exact differs ((compoundOp_done_iff known plain).mpr ⟨computed, kept⟩)
  have loose : ¬BothBoxed l r := by
    intro boxed
    obtain ⟨-, right, given⟩ := not_isText_of_bothBoxed (w := w) boxed
    exact refused ⟨given, .inr right⟩
  obtain ⟨add, one, -⟩ := (binaryOp_done_iff known loose).mp computed
  by_cases given : r = .void
  · have right : ¬isText w r := by
      rw [given]
      exact Bool.false_ne_true
    exact ⟨add, .inl ⟨one.resolve_right right, given⟩⟩
  · have left : ¬isText w l := fun text => refused ⟨given, .inl text⟩
    exact ⟨add, .inr ⟨one.resolve_left left, left⟩⟩

end

/-- The eleven operators of compound assignments give what the plain ones give, except that they
refuse an undefined right operand and a text that is added to something else. Objects of classes
that extend texts stand apart. -/
theorem compound_operators_match_plain (ev : Evaluator) (w : World) (l r : Value) {op : BinaryOp}
    (known : AssignOp.compound op ∈ AssignOp.known) :
    (¬IsTextObject w l →
      (∀ v w', (ev.compoundOp l r op).run w = .done v w' ↔
        (ev.binaryOp l r op).run w = .done v w' ∧ r ≠ .void ∧ (isText w l ∨ ¬isText w r)) ∧
      ∀ v w', (ev.binaryOp l r op).run w = .done v w' → (ev.compoundOp l r op).run w ≠ .done v w' →
        op = .add ∧ (isText w l ∧ r = .void ∨ isText w r ∧ ¬isText w l)) ∧
    (IsTextObject w l →
      (∀ v w', (ev.compoundOp l r op).run w = .done v w' ↔
        op = .add ∧ r ≠ .void ∧ (ev.appendText l r).run w = .done v w') ∧
      ∀ v w', (ev.binaryOp l r op).run w = .done v w' ↔ op = .add ∧ (ev.joinTexts l r).run w = .done v w') := by
  constructor
  · intro plain
    exact ⟨fun v w' => compoundOp_done_iff known plain, fun v w' => add_of_refused known plain⟩
  · intro object
    have loose : ¬BothBoxed l r := fun boxed => (not_isText_of_bothBoxed boxed).1 object.1
    constructor
    · intro v w'
      by_cases given : r = .void
      · rw [compoundOp_of_not_isText (fun text => text.2 given)]
        exact ⟨fun h => absurd h.1 loose, fun h => absurd given h.2.1⟩
      · rw [compoundOp_of_isText ⟨object.1, given⟩]
        exact ⟨fun h => ⟨h.1, given, h.2⟩, fun h => ⟨h.1, h.2.2⟩⟩
    · intro v w'
      rw [binaryOp_done_iff known loose]
      exact ⟨fun h => ⟨h.1, h.2.2⟩, fun h => ⟨h.1, .inl object.1, h.2⟩⟩

theorem compound_operators_match_plain_texts :
    let text := Value.str "a" 1
    let letter := Value.boxed (.char 98) 0
    AssignOp.compound .add ∈ AssignOp.known ∧ ¬IsTextObject .bare text ∧ ¬IsTextObject .bare letter ∧
      (∃ mark w, ((ofFuel 3).compoundOp text .null .add).run .bare = .done (.str "anull" mark) w) ∧
      (∃ mark w, ((ofFuel 3).binaryOp letter text .add).run .bare = .done (.str "ba" mark) w) ∧
      ∀ v w, ((ofFuel 3).compoundOp letter text .add).run .bare ≠ .done v w := by
  intro text letter
  have known : AssignOp.compound .add ∈ AssignOp.known := by decide
  have first : ¬IsTextObject .bare text := fun object => Option.some_ne_none _ object.2
  have second : ¬IsTextObject .bare letter := fun object => Bool.false_ne_true object.1
  obtain ⟨joins, -⟩ := (compound_operators_match_plain (ofFuel 3) .bare text .null known).1 first
  obtain ⟨refuses, -⟩ := (compound_operators_match_plain (ofFuel 3) .bare letter text known).1 second
  refine ⟨known, first, second, ⟨_, _, (joins _ _).mpr ⟨rfl, Value.noConfusion, .inl rfl⟩⟩, ⟨_, _, rfl⟩, ?_⟩
  intro v w done
  obtain ⟨-, -, left | right⟩ := (refuses v w).mp done
  · cases left
  · exact right rfl

/-- A class extends texts and has a script text of its own. In a sum its instance stands for that
text, in a compound assignment for the text that it extends, which is empty. -/
theorem compound_assignment_passes_over_script_text :
    let text (t : String) : Node := .literal {} (.ofString t)
    let type (name : String) : Node := .typeRef {} (.named name) 0
    let x : Node := .name {} "x"
    let c : Node := .classDecl {} "C" (.blockOf [.methodDecl {} "toString" [] (.blockOf [.return {} (text "c")]) .absent []])
      (type "builtins.str") [] [] false
    ∃ r σ, (ofFuel 9).exec (.exprList {} [c, .assignment {} x .plain (.allocation {} (type "C") [] .absent)])
        ⟨.bare, .own ⟨[0]⟩⟩ = .done r σ ∧
      (∃ mark τ, (ofFuel 9).exec (.binary {} x .add (text "!")) σ = .done (.value (.str "c!" mark)) τ) ∧
      ∃ mark τ, (ofFuel 9).exec (.assignment {} x (.compound .add) (text "!")) σ = .done (.value (.str "!" mark)) τ := by
  intro text type x c
  have run : ((ofFuel 9).exec (.exprList {} [c, .assignment {} x .plain (.allocation {} (type "C") [] .absent)])
      ⟨.bare, .own ⟨[0]⟩⟩).doneWith fun _ σ =>
        givesText "c!" ((ofFuel 9).exec (.binary {} x .add (text "!")) σ) &&
        givesText "!" ((ofFuel 9).exec (.assignment {} x (.compound .add) (text "!")) σ) := by decide +kernel
  obtain ⟨r, σ, made, run⟩ := Outcome.exists_of_doneWith run
  rw [Bool.and_eq_true] at run
  exact ⟨r, σ, made, givesText_iff.mp run.1, givesText_iff.mp run.2⟩

end ScriptCore.Evaluator
