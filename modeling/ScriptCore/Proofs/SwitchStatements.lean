import ScriptCore.Proofs.InstanceCalls

namespace ScriptCore

theorem Eval.done_of_catching {α : Type} {x : Eval α} {handler : World → Failure → Option (Eval α)}
    {σ τ : EvalState} {a : α}
    (strict : ∀ w e y, handler w e = some y → ∀ σ a τ, y σ ≠ .done a τ) (h : catching x handler σ = .done a τ) :
    x σ = .done a τ := by
  unfold catching Comp.catching at h
  cases ran : x σ with
  | done b υ => rwa [ran] at h
  | exhausted => rwa [ran] at h
  | failed e υ =>
    rw [ran] at h
    dsimp only at h
    cases handled : handler υ.world e with
    | none =>
      rw [handled] at h
      cases h
    | some y =>
      rw [handled] at h
      exact absurd h (strict _ _ y handled υ a τ)

namespace Evaluator

/-- `x` counts as true or as false in every world, and nothing changes when it is asked. -/
def Decides (ev : Evaluator) (x : Value) (b : Bool) : Prop := ∀ w, (ev.truth x).run w = .done b w

theorem decides_bool (ev : Evaluator) (b : Bool) : ev.Decides (.bool b) b := by
  intro w
  cases b <;> rfl

def labels : List Node → List Node
  | [] => []
  | .label _ e :: rest => e :: labels rest
  | _ :: rest => labels rest

def statements (body : List Node) : List Node := body.filter (!·.isLabel)

inductive Completes (ev : Evaluator) : List Node → EvalState → EvalState → Prop
  | nil {σ} : Completes ev [] σ σ
  | cons {n rest x σ τ υ} (runs : ev.exec n σ = .done (.value x) τ) (later : Completes ev rest τ υ)
      : Completes ev (n :: rest) σ υ

/-- How the statements of a switch end: with the last one, or with the first that gives a signal or
fails. A break ends only the switch. -/
inductive StatementsEnd (ev : Evaluator) (body : List Node) (σ : EvalState) : Outcome EvalState Ending → Prop
  | completed {τ} (all : Completes ev body σ τ) : StatementsEnd ev body σ (.done (.value .void) τ)
  | left {before n after s k τ υ} (parts : body = before ++ n :: after) (ran : Completes ev before σ τ)
      (signalled : ev.exec n τ = .done (.signal s k) υ) :
      StatementsEnd ev body σ (.done (if s.kind = .break then .value .void else .signal s k) υ)
  | failed {before n after e τ υ} (parts : body = before ++ n :: after) (ran : Completes ev before σ τ)
      (fails : ev.exec n τ = .failed e υ) : StatementsEnd ev body σ (.failed e υ)
  | exhausted {before n after τ} (parts : body = before ++ n :: after) (ran : Completes ev before σ τ)
      (endless : ev.exec n τ = .exhausted) : StatementsEnd ev body σ .exhausted

section

variable (ev : Evaluator) (node expr : Node) (v : Value)

/-- The value of the expression `e` of a label is compared with that of the switch, which gives `x`.
-/
structure Compared (e : Node) (σ : EvalState) (x : Value) (τ : EvalState) : Prop where
  given : e.isAbsent = false
  compares : ∃ label σ', ev.eval e σ = .done label σ' ∧ ev.switchEquals node expr v label σ' = .done x τ

inductive Unmatched : List Node → EvalState → EvalState → Prop
  | nil {σ} : Unmatched [] σ σ
  | cons {e rest x σ τ υ} (compared : Compared ev node expr v e σ x τ) (differs : ev.Decides x false)
      (later : Unmatched rest τ υ) : Unmatched (e :: rest) σ υ

inductive Matches (e : Node) (σ : EvalState) : EvalState → Prop
  | byDefault (absent : e.isAbsent) : Matches e σ σ
  | equal {x τ} (compared : Compared ev node expr v e σ x τ) (equals : ev.Decides x true) : Matches e σ τ

/-- No label before that of `e` matches, and the state is `τ` when it is its turn. -/
inductive Reaches (body : List Node) (σ : EvalState) (e : Node) (after : List Node) (τ : EvalState) : Prop
  | mk {before o} (parts : body = before ++ .label o e :: after) (first : Unmatched ev node expr v (labels before) σ τ)

/-- How the body of a switch ends: no label matches, or the statements after the first that does
run, or a label fails before. -/
inductive SwitchEnds (body : List Node) (σ : EvalState) : Outcome EvalState Ending → Prop
  | unmatched {τ} (none : Unmatched ev node expr v (labels body) σ τ) : SwitchEnds body σ (.done (.value .void) τ)
  | matched {e after τ υ out} (reached : Reaches ev node expr v body σ e after τ) (hit : Matches ev node expr v e τ υ)
      (run : StatementsEnd ev (statements after) υ out) : SwitchEnds body σ out
  | failed {e after err τ υ} (reached : Reaches ev node expr v body σ e after τ)
      (fails : ev.labelEquals node expr v e τ = .failed err υ) : SwitchEnds body σ (.failed err υ)
  | exhausted {e after τ} (reached : Reaches ev node expr v body σ e after τ)
      (endless : ev.labelEquals node expr v e τ = .exhausted) : SwitchEnds body σ .exhausted

/-- A label is reached whose comparison gives something that has no truth value of its own. -/
def Undecided (body : List Node) (σ : EvalState) : Prop :=
  ∃ e after x τ υ, Reaches ev node expr v body σ e after τ ∧ Compared ev node expr v e τ x υ ∧ ∀ b, ¬ev.Decides x b

end

variable {ev : Evaluator} {node expr : Node} {v m : Value} {o : Origin} {n e : Node} {rest : List Node} {σ τ : EvalState}
  {out : Outcome EvalState Ending}
variable {body : List Node} {x : Value}

theorem labels_append (before rest : List Node) : labels (before ++ rest) = labels before ++ labels rest := by
  induction before with
  | nil => rfl
  | cons n before ih =>
    cases n with
    | label o e => exact congrArg (e :: ·) ih
    | _ => exact ih

theorem isLabel_of_mem_statements (h : n ∈ statements body) : n.isLabel = false := by
  simpa using (List.mem_filter.mp h).2

theorem labelEquals_of_given (given : e.isAbsent = false) :
    ev.labelEquals node expr v e = (ev.eval e >>= fun label => ev.switchEquals node expr v label) := by
  unfold Evaluator.labelEquals
  rw [given]
  rfl

theorem Compared.labelEquals (h : Compared ev node expr v e σ x τ) : ev.labelEquals node expr v e σ = .done x τ := by
  obtain ⟨given, label, σ', evaluated, compared⟩ := h
  rw [labelEquals_of_given given]
  exact (Comp.bind_of_done evaluated).trans compared

theorem Compared.of_labelEquals (given : e.isAbsent = false)
    (h : ev.labelEquals node expr v e σ = .done x τ) : Compared ev node expr v e σ x τ := by
  rw [labelEquals_of_given given] at h
  obtain ⟨label, σ', evaluated, compared⟩ := Comp.bind_done_iff.mp h
  exact ⟨given, label, σ', evaluated, compared⟩

theorem switchBody_label_of_false (no : ev.Decides m false) :
    ev.switchBody node expr v m (.label o e :: rest) σ =
      (ev.labelEquals node expr v e >>= fun now => ev.switchBody node expr v now rest) σ :=
  Eval.lift_bind_of_done (no σ.world)

theorem switchBody_label_of_true (yes : ev.Decides m true) :
    ev.switchBody node expr v m (.label o e :: rest) σ = ev.switchBody node expr v m rest σ :=
  Eval.lift_bind_of_done (yes σ.world)

theorem switchBody_statement_of_false (no : ev.Decides m false) (plain : n.isLabel = false) :
    ev.switchBody node expr v m (n :: rest) σ = ev.switchBody node expr v m rest σ := by
  cases n with
  | label o e => cases plain
  | _ => exact Eval.lift_bind_of_done (no σ.world)

def goOn (rest : Eval Ending) : Ending → Eval Ending
  | .signal s k => if s.kind = .break then pure (.value .void) else pure (.signal s k)
  | .value _ => rest

theorem switchBody_statement_of_true (yes : ev.Decides m true) (plain : n.isLabel = false) :
    ev.switchBody node expr v m (n :: rest) σ = (ev.exec n >>= goOn (ev.switchBody node expr v m rest)) σ := by
  cases n with
  | label o e => cases plain
  | _ => exact Eval.lift_bind_of_done (yes σ.world)

theorem goOn_signal (later : Eval Ending) (s : Signal) (k : Option Nat) :
    goOn later (.signal s k) σ = .done (if s.kind = .break then .value .void else .signal s k) σ := by
  unfold goOn
  dsimp only
  split <;> rfl

theorem StatementsEnd.cons (runs : ev.exec n σ = .done (.value x) τ)
    (h : StatementsEnd ev body τ out) : StatementsEnd ev (n :: body) σ out := by
  cases h with
  | completed all => exact .completed (.cons runs all)
  | left parts ran signalled => exact .left (congrArg (n :: ·) parts) (.cons runs ran) signalled
  | failed parts ran fails => exact .failed (congrArg (n :: ·) parts) (.cons runs ran) fails
  | exhausted parts ran endless => exact .exhausted (congrArg (n :: ·) parts) (.cons runs ran) endless

theorem statementsEnd_switchBody (yes : ev.Decides m true) (body : List Node) (σ : EvalState) :
    StatementsEnd ev (statements body) σ (ev.switchBody node expr v m body σ) := by
  induction body generalizing σ with
  | nil => exact .completed .nil
  | cons n rest ih =>
    by_cases plain : n.isLabel = false
    · have listed : statements (n :: rest) = n :: statements rest := List.filter_cons_of_pos (by simp [plain])
      rw [switchBody_statement_of_true yes plain, listed]
      cases ran : ev.exec n σ with
      | done r τ =>
        rw [Comp.bind_of_done ran]
        cases r with
        | value x => exact .cons ran (ih τ)
        | signal s k =>
          rw [goOn_signal]
          exact .left (List.nil_append _).symm .nil ran
      | failed e τ =>
        rw [Comp.bind_of_failed ran]
        exact .failed (List.nil_append _).symm .nil ran
      | exhausted =>
        rw [Comp.bind_of_exhausted ran]
        exact .exhausted (List.nil_append _).symm .nil ran
    · cases n with
      | label o e =>
        rw [switchBody_label_of_true yes]
        exact ih σ
      | _ => exact absurd rfl plain

theorem switchBody_statements (yes : ev.Decides m true) (body : List Node) :
    ev.switchBody node expr v m (statements body) = ev.switchBody node expr v m body := by
  induction body with
  | nil => rfl
  | cons n rest ih =>
    funext σ
    by_cases plain : n.isLabel = false
    · have listed : statements (n :: rest) = n :: statements rest := List.filter_cons_of_pos (by simp [plain])
      rw [listed, switchBody_statement_of_true yes plain, switchBody_statement_of_true yes plain, ih]
    · cases n with
      | label o e =>
        rw [switchBody_label_of_true yes]
        exact congrFun ih σ
      | _ => exact absurd rfl plain

theorem switchBody_of_completes (yes : ev.Decides m true) {before : List Node}
    (ran : Completes ev before σ τ) (plain : ∀ n ∈ before, n.isLabel = false) :
    ev.switchBody node expr v m (before ++ rest) σ = ev.switchBody node expr v m rest τ := by
  induction ran with
  | nil => rfl
  | cons runs later ih =>
    rw [List.cons_append, switchBody_statement_of_true yes (plain _ List.mem_cons_self), Comp.bind_of_done runs]
    exact ih fun n hn => plain n (List.mem_cons_of_mem _ hn)

theorem switchBody_of_parts (yes : ev.Decides m true) {body before after : List Node}
    (parts : statements body = before ++ n :: after) (ran : Completes ev before σ τ) :
    ev.switchBody node expr v m body σ = (ev.exec n >>= goOn (ev.switchBody node expr v m after)) τ := by
  have plain (k : Node) (hk : k ∈ before ++ n :: after) : k.isLabel = false := isLabel_of_mem_statements (parts ▸ hk)
  rw [← switchBody_statements yes, parts, switchBody_of_completes yes ran fun k hk => plain k (List.mem_append_left _ hk)]
  exact switchBody_statement_of_true yes (plain n (List.mem_append_right _ List.mem_cons_self))

theorem StatementsEnd.switchBody (h : StatementsEnd ev (statements body) σ out)
    (yes : ev.Decides m true) : ev.switchBody node expr v m body σ = out := by
  cases h with
  | completed all =>
    have run : ev.switchBody node expr v m (statements body ++ []) σ = _ :=
      switchBody_of_completes yes all fun k hk => isLabel_of_mem_statements hk
    rwa [List.append_nil, switchBody_statements yes] at run
  | left parts ran signalled => rw [switchBody_of_parts yes parts ran, Comp.bind_of_done signalled, goOn_signal]
  | failed parts ran fails => rw [switchBody_of_parts yes parts ran, Comp.bind_of_failed fails]
  | exhausted parts ran endless => rw [switchBody_of_parts yes parts ran, Comp.bind_of_exhausted endless]

theorem labelEquals_of_absent (absent : e.isAbsent) : ev.labelEquals node expr v e σ = .done (.bool true) σ := by
  unfold Evaluator.labelEquals
  rw [if_pos absent]
  rfl

theorem Matches.labelEquals (h : Matches ev node expr v e σ τ) :
    ∃ x, ev.labelEquals node expr v e σ = .done x τ ∧ ev.Decides x true := by
  cases h with
  | byDefault absent => exact ⟨.bool true, labelEquals_of_absent absent, decides_bool ev true⟩
  | equal compared equals => exact ⟨_, compared.labelEquals, equals⟩

theorem matches_or_compared (h : ev.labelEquals node expr v e σ = .done x τ) :
    Matches ev node expr v e σ τ ∧ ev.Decides x true ∨ Compared ev node expr v e σ x τ := by
  by_cases absent : e.isAbsent
  · cases (labelEquals_of_absent absent).symm.trans h
    exact .inl ⟨.byDefault absent, decides_bool ev true⟩
  · exact .inr (.of_labelEquals (Bool.eq_false_iff.mpr absent) h)

theorem Unmatched.append {first second : List Node} {υ : EvalState} (h : Unmatched ev node expr v first σ τ)
    (k : Unmatched ev node expr v second τ υ) : Unmatched ev node expr v (first ++ second) σ υ := by
  induction h with
  | nil => exact k
  | cons compared differs later ih => exact .cons compared differs (ih k)

theorem Reaches.append {before body after : List Node} {υ : EvalState}
    (first : Unmatched ev node expr v (labels before) σ τ)
    (h : Reaches ev node expr v body τ e after υ) : Reaches ev node expr v (before ++ body) σ e after υ := by
  obtain ⟨parts, next⟩ := h
  rw [parts, ← List.append_assoc]
  exact .mk rfl (labels_append .. ▸ first.append next)

theorem Reaches.head : Reaches ev node expr v (.label o e :: rest) σ e rest σ :=
  .mk (List.nil_append _).symm .nil

theorem SwitchEnds.append {before body : List Node} (first : Unmatched ev node expr v (labels before) σ τ)
    (h : SwitchEnds ev node expr v body τ out) : SwitchEnds ev node expr v (before ++ body) σ out := by
  cases h with
  | unmatched none => exact .unmatched (labels_append before body ▸ first.append none)
  | matched reached hit run => exact .matched (reached.append first) hit run
  | failed reached fails => exact .failed (reached.append first) fails
  | exhausted reached endless => exact .exhausted (reached.append first) endless

theorem Undecided.append {before body : List Node} (first : Unmatched ev node expr v (labels before) σ τ)
    (h : Undecided ev node expr v body τ) : Undecided ev node expr v (before ++ body) σ := by
  obtain ⟨e, after, x, τ, υ, reached, open_⟩ := h
  exact ⟨e, after, x, τ, υ, reached.append first, open_⟩

theorem switchEnds_switchBody (no : ev.Decides m false) (body : List Node) (σ : EvalState) :
    SwitchEnds ev node expr v body σ (ev.switchBody node expr v m body σ) ∨ Undecided ev node expr v body σ := by
  induction body generalizing m σ with
  | nil => exact .inl (.unmatched .nil)
  | cons n rest ih =>
    by_cases plain : n.isLabel = false
    · rw [switchBody_statement_of_false no plain]
      have passed : Unmatched ev node expr v (labels [n]) σ σ := by
        cases n with
        | label o e => cases plain
        | _ => exact .nil
      exact (ih no σ).imp (.append passed) (.append passed)
    · cases n with
      | label o e =>
        rw [switchBody_label_of_false no]
        cases compared : ev.labelEquals node expr v e σ with
        | failed err τ =>
          rw [Comp.bind_of_failed compared]
          exact .inl (.failed .head compared)
        | exhausted =>
          rw [Comp.bind_of_exhausted compared]
          exact .inl (.exhausted .head compared)
        | done x τ =>
          rw [Comp.bind_of_done compared]
          obtain ⟨hit, yes⟩ | pair := matches_or_compared compared
          · exact .inl (.matched .head hit (statementsEnd_switchBody yes rest τ))
          · by_cases yes : ev.Decides x true
            · exact .inl (.matched .head (.equal pair yes) (statementsEnd_switchBody yes rest τ))
            · by_cases differs : ev.Decides x false
              · have passed : Unmatched ev node expr v (labels [.label o e]) σ τ := .cons pair differs .nil
                exact (ih differs τ).imp (.append passed) (.append passed)
              · exact .inr ⟨e, rest, x, σ, τ, .head, pair, Bool.forall_bool.mpr ⟨differs, yes⟩⟩
      | _ => exact absurd rfl plain

theorem switchBody_of_unmatched (no : ev.Decides m false) {before : List Node}
    (h : Unmatched ev node expr v (labels before) σ τ) :
    ∃ x, ev.Decides x false ∧ ∀ rest, ev.switchBody node expr v m (before ++ rest) σ =
      ev.switchBody node expr v x rest τ := by
  induction before generalizing m σ with
  | nil =>
    cases h
    exact ⟨m, no, fun _ => rfl⟩
  | cons n before ih =>
    by_cases plain : n.isLabel = false
    · have passed : Unmatched ev node expr v (labels before) σ τ := by
        cases n with
        | label o e => cases plain
        | _ => exact h
      obtain ⟨x, differs, leads⟩ := ih no passed
      refine ⟨x, differs, fun rest => ?_⟩
      rw [List.cons_append, switchBody_statement_of_false no plain]
      exact leads rest
    · cases n with
      | label o e =>
        obtain _ | ⟨compared, now, later⟩ := h
        obtain ⟨x, differs, leads⟩ := ih now later
        refine ⟨x, differs, fun rest => ?_⟩
        rw [List.cons_append, switchBody_label_of_false no, Comp.bind_of_done compared.labelEquals]
        exact leads rest
      | _ => exact absurd rfl plain

theorem Reaches.switchBody {body after : List Node} (h : Reaches ev node expr v body σ e after τ)
    (no : ev.Decides m false) :
    ev.switchBody node expr v m body σ =
      (ev.labelEquals node expr v e >>= fun now => ev.switchBody node expr v now after) τ := by
  obtain ⟨parts, first⟩ := h
  obtain ⟨x, differs, leads⟩ := switchBody_of_unmatched no first
  rw [parts, leads, switchBody_label_of_false differs]

theorem SwitchEnds.switchBody (h : SwitchEnds ev node expr v body σ out) (no : ev.Decides m false) :
    ev.switchBody node expr v m body σ = out := by
  cases h with
  | unmatched none =>
    obtain ⟨x, -, leads⟩ := switchBody_of_unmatched no none
    have run := leads []
    rwa [List.append_nil] at run
  | matched reached hit run =>
    obtain ⟨x, equals, yes⟩ := hit.labelEquals
    rw [reached.switchBody no, Comp.bind_of_done equals]
    exact run.switchBody yes
  | failed reached fails => rw [reached.switchBody no, Comp.bind_of_failed fails]
  | exhausted reached endless => rw [reached.switchBody no, Comp.bind_of_exhausted endless]

theorem exists_bool_of_switchEquals {c x : Value}
    (plain : v.isMarkerOrPrimitive ∨ c.isMarkerOrPrimitive ∨ v.text?.isSome ∧ c.text?.isSome)
    (h : ev.switchEquals node expr v c σ = .done x τ) : ∃ b, x = .bool b := by
  unfold Evaluator.switchEquals at h
  split at h
  · have compared := Eval.done_of_catching (fun w e y handled σ a τ done => ?_) h
    · obtain ⟨_, _, -, later⟩ := Comp.bind_done_iff.mp compared
      obtain ⟨b, _, -, given⟩ := Comp.bind_done_iff.mp later
      cases given
      exact ⟨b, rfl⟩
    · -- A comparison that fails is located, and fails then.
      split at handled
      · cases handled
        obtain ⟨_, _, -, later⟩ := Comp.bind_done_iff.mp done
        obtain ⟨_, _, -, fails⟩ := Comp.bind_done_iff.mp later
        cases fails
      · cases handled
  · next other =>
    obtain marked | marked | ⟨left, right⟩ := plain
    · simp [marked] at other
    · simp [marked] at other
    · cases v with
      | str s k =>
        cases c with
        | str t l =>
          cases h
          exact ⟨_, rfl⟩
        | _ => cases right
      | _ => cases left

/-- A switch whose body starts with a label compares the labels in order up to the first that
matches, and runs the statements after that one, up to the first that does not end with a value. A
return or a continue goes on outwards, a break does not. It is so unless the comparison with a label
gives something without a truth value of its own. -/
theorem switch_runs_from_first_match (fuel : Nat) (o o' : Origin) (expr e : Node) (rest : List Node)
    (σ : EvalState) : let ev := ofFuel fuel
    let body := .label o' e :: rest
    let node := .switch o expr body
    (∀ err τ, ev.eval expr σ = .failed err τ → (ofFuel (fuel + 1)).exec node σ = .failed err τ) ∧
    (ev.eval expr σ = .exhausted → (ofFuel (fuel + 1)).exec node σ = .exhausted) ∧
    (∀ v τ, ev.eval expr σ = .done v τ →
      (∀ out, SwitchEnds ev node expr v body τ out → (ofFuel (fuel + 1)).exec node σ = out) ∧
      (SwitchEnds ev node expr v body τ ((ofFuel (fuel + 1)).exec node σ) ∨ Undecided ev node expr v body τ)) ∧
    ∀ v c x τ υ, v.isMarkerOrPrimitive ∨ c.isMarkerOrPrimitive ∨ v.text?.isSome ∧ c.text?.isSome →
      ev.switchEquals node expr v c τ = .done x υ → ∃ b, x = .bool b := by
  intro ev body node
  have run {v : Value} {τ : EvalState} (value : ev.eval expr σ = .done v τ) :
      (ofFuel (fuel + 1)).exec node σ = ev.switchBody node expr v (.bool false) body τ := Comp.bind_of_done value
  have no : ev.Decides (.bool false) false := decides_bool ev false
  refine ⟨fun err τ fails => Comp.bind_of_failed fails, fun endless => Comp.bind_of_exhausted endless, ?_, ?_⟩
  · intro v τ value
    rw [run value]
    exact ⟨fun out ends => ends.switchBody no, switchEnds_switchBody no body τ⟩
  · intro v c x τ υ plain compared
    exact exists_bool_of_switchEquals plain compared

/-- The default label stands in the middle and is met before one that would match. Its statements
run, and so does that after the next label, which continues a loop outside. -/
theorem switch_runs_from_first_match_default :
    let number (k : Int) : Node := .literal {} (.ofInt k)
    let labelled (e : Node) : Node := .label {} e
    let rest := [number 10, labelled .absent, number 20, labelled (number 2), .continue {} none, number 30]
    let node : Node := .switch {} (number 2) (labelled (number 1) :: rest)
    let start : EvalState := ⟨.bare, .own ⟨[0]⟩⟩
    ∃ v σ out, (ofFuel 3).eval (number 2) start = .done v σ ∧
      SwitchEnds (ofFuel 3) node (number 2) v (labelled (number 1) :: rest) σ out ∧ (ofFuel 4).exec node start = out ∧
      ∃ s k τ, out = .done (.signal s k) τ ∧ s.kind = .continue := by
  intro number labelled rest node start
  have value : (ofFuel 3).eval (number 2) start = .done (.ofInt 2) start := rfl
  have passed : Unmatched (ofFuel 3) node (number 2) (.ofInt 2) (labels [labelled (number 1), number 10]) start start :=
    .cons ⟨rfl, .ofInt 1, start, rfl, rfl⟩ (decides_bool _ false) .nil
  have parts : labelled (number 1) :: rest = [labelled (number 1), number 10] ++ .label {} .absent ::
      [number 20, labelled (number 2), .continue {} none, number 30] := rfl
  have ran : Completes (ofFuel 3) [number 20] start start := .cons rfl .nil
  have left : statements [number 20, labelled (number 2), .continue {} none, number 30] =
      [number 20] ++ .continue {} none :: [number 30] := rfl
  have ends := SwitchEnds.matched (.mk parts passed) (.byDefault rfl) (.left left ran rfl)
  obtain ⟨-, -, follows, -⟩ := switch_runs_from_first_match 3 {} {} (number 2) (number 1) rest start
  exact ⟨_, _, _, value, ends, (follows _ _ value).1 _ ends, _, _, _, rfl, rfl⟩

/-- What the comparison of the switch gives counts as true when the first statement is due and as
false when the second is. -/
theorem switch_can_leave_statement_out :
    let name (x : String) : Node := .name {} x
    let number (k : Int) : Node := .literal {} (.ofInt k)
    let method (m : String) (params body : List Node) : Node := .methodDecl {} m params (.blockOf body) .absent []
    let cls (c : String) (body : List Node) : Node := .classDecl {} c (.blockOf body) .absent [] [] false
    let fresh (c : String) : Node := .allocation {} (.typeRef {} (.named c) 0) [] .absent
    let once : Node := cls "Once" [.varDecl {} (.typeRef {} (.resolved (.prim .int)) 0)
    [.declarator {} "n" (number 0) 0] [],
      method "__bool__" [] [.assignment {} (name "n") (.compound .add) (number 1),
        .return {} (.binary {} (name "n") .lt (number 2))]]
    let key : Node := cls "Key" [method "__eq__" [.param {} "other" .absent []] [.return {} (fresh "Once")]]
    let chosen : Node := .switch {} (fresh "Key") [.label {} (fresh "Key"), .assignment {} (name "a") .plain (number 1),
      .assignment {} (name "b") .plain (number 2)]
    ∃ r σ, (ofFuel 12).exec (.exprList {} [once, key, chosen]) ⟨.bare, .own ⟨[0]⟩⟩ = .done r σ ∧
      (σ.world.scope 0).vars.contains "a" = true ∧ (σ.world.scope 0).vars.contains "b" = false := by
  intro name number method cls fresh once key chosen
  have run : ((ofFuel 12).exec (.exprList {} [once, key, chosen]) ⟨.bare, .own ⟨[0]⟩⟩).doneWith fun _ σ =>
      (σ.world.scope 0).vars.contains "a" && !(σ.world.scope 0).vars.contains "b" := by decide +kernel
  obtain ⟨r, σ, done, vars⟩ := Outcome.exists_of_doneWith run
  exact ⟨r, σ, done, by simpa using vars⟩

end Evaluator

end ScriptCore
