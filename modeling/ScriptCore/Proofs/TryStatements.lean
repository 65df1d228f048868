import ScriptCore.Proofs.StackDiscipline
import ScriptCore.Proofs.TieredFailures

namespace ScriptCore

/-- How a try statement ends if its final block ends like this, after something that ended as
`earlier` says: only a final block that ends with a value leaves the earlier end as it was. -/
def Outcome.finishing (earlier : EvalState → Outcome EvalState Ending) : Outcome EvalState Ending → Outcome EvalState Ending
  | done (.value _) σ => earlier σ
  | o => o

namespace Evaluator

variable (ev : Evaluator) {final : Node}

theorem finishTry_ok (hf : final.isAbsent = false) (r : Ending) (σ : EvalState) :
    ev.finishTry final (.ok r) σ = (ev.execBlock final σ).finishing (.done r) := by
  simp only [finishTry, hf, Bool.false_eq_true, if_false, Bind.bind, Comp.bind]
  cases ev.execBlock final σ with
  | done last σ' => cases last <;> rfl
  | failed e σ' => rfl
  | exhausted => rfl

theorem finishTry_error (hf : final.isAbsent = false) (e : Failure) (σ : EvalState) :
    ev.finishTry final (.error e) σ = (ev.execBlock final σ).finishing (.failed e) := by
  simp only [finishTry, hf, Bool.false_eq_true, if_false, Bind.bind, Comp.bind]
  cases ev.execBlock final σ with
  | done last σ' => cases last <;> rfl
  | failed e σ' => rfl
  | exhausted => rfl

theorem tryStatement_eq (block : Node) (clauses : List Node) (final : Node) (σ : EvalState) :
    ev.tryStatement block clauses final σ =
      match ev.tryBlock block clauses σ with
      | .done r σ' => ev.finishTry final (.ok r) σ'
      | .failed e σ' => if e.isReport then ev.finishTry final (.error e) σ' else .failed e σ'
      | .exhausted => .exhausted := by
  simp only [tryStatement, Bind.bind, Comp.bind, Eval.catching, Comp.catching]
  cases ev.tryBlock block clauses σ with
  | done r σ' => rfl
  | failed e σ' => cases e <;> rfl
  | exhausted => rfl

theorem of_tryBlock_failed {n : Nat} {block : Node} {clauses : List Node} {σ σ' : EvalState} {e : Failure}
    (h : (ofFuel n).tryBlock block clauses σ = .failed e σ') (he : e.isReport = false) :
    (∃ m, e = .internal m) ∨ (∃ m, e = .classGeneration m) ∨ ∃ v, e = .thrown v := by
  have rule := (sound_anyCode n).tryBlock (allows_anyCode .branch block) fun clause (_ : clause ∈ clauses) =>
    allows_anyCode .piece clause
  obtain ⟨r, rfl⟩ | other := cases_of_proper ((rule σ ⟨[]⟩ (kept_anyCode σ _)).of_failed h).2.allowed
  · cases he
  · exact other

def setsX : Node := .blockOf [.assignment {} (.name {} "x") .plain (.literal {} (.ofInt 1))]

def hasX (o : Outcome EvalState Ending) : Bool := o.state?.any fun σ => (σ.world.scope 0).vars.contains "x"

/-- How the blocks of the next two theorems end. -/
theorem tries_of_declaring :
    let σ : EvalState := ⟨.declaring (.return {} .absent), .own ⟨[0]⟩⟩
    ((ofFuel 9).tryBlock (.blockOf [.return {} (.invocation {} "f" [])]) [] σ).isDone ∧
    ((ofFuel 9).tryBlock (.blockOf [.invocation {} "g" []]) [] σ).failsWith Failure.isReport ∧
    (((ofFuel 9).tryBlock (.blockOf [impossibleClass]) [] σ).failedWith fun e σ' =>
      hasX (((ofFuel 9).execBlock setsX σ').finishing (.failed e))) ∧
    hasX ((ofFuel 10).exec (.tryCatch {} (.blockOf [impossibleClass]) [] setsX) σ) = false := by
  decide +kernel

end Evaluator

end ScriptCore
