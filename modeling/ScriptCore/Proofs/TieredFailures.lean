import ScriptCore.Proofs.Hosting

namespace ScriptCore

/-- The classes of the exceptions by which components that do not know the current node report to
the interpreter. -/
def CoreClass.components : List CoreClass := [.utilEvalException, .reflectError, .hostInvocationError]

/-- The failure is an exception of one of the classes. -/
def Failure.isOneOf (classes : List CoreClass) (w : World) (e : Failure) : Bool := classes.any (Run.isFailureOf w e)

namespace Evaluator

/-- The terms of any code at all, by the classes that host code may raise exceptions of. -/
def anyCode (raises : CoreClass → Prop) : Terms := .lenient (fun _ => true) raises false

variable {raises : CoreClass → Prop}

theorem allows_anyCode (r : Role) (node : Node) : (anyCode raises).Allows r node where
  names := node.usesOnly_true
  orderly ho := by cases ho
  complete hc := by cases hc

theorem fits_anyCode (w : World) :
    (anyCode raises).Fits w := .of_code (fun node _ => allows_anyCode _ node) fun ho => by cases ho

theorem kept_anyCode (σ : EvalState) (k : CallStack) : (anyCode raises).Kept σ.world k σ where
  fits := fits_anyCode _
  since := .refl σ.world
  stack hd := absurd (hd "callStack" rfl) (by decide)
  started hc := by cases hc

theorem sound_anyCode (n : Nat) : (ofFuel n).Sound (anyCode fun _ => True) := .ofFuel n fun _ _ _ _ => trivial

theorem own_respects_anyCode : Embedding.own.Respects fun _ => True :=
  Embedding.own_respects ⟨fun _ => trivial, fun _ => fits_anyCode _⟩ sound_anyCode

/-- In a host that withholds all answers by exceptions of components, no exceptions of these classes
come up. -/
theorem sound_withholding (n : Nat) :
    (hosted (Embedding.own.withholding (Failure.isOneOf CoreClass.components)) n).Sound
    (anyCode (· ∉ CoreClass.components)) := by
  refine Embedding.sound_hosted ⟨fun _ => trivial, fun _ => fits_anyCode _⟩ (own_respects_anyCode.withholding _)
    (fun level _ r w w' v d failed hv => ?_) (fun _ _ _ _ _ _ _ => trivial) n
  have spared := (Action.withholding_failed failed).2
  rw [Failure.isOneOf, List.any_eq_false] at spared
  exact fun hd => spared d hd hv

theorem permits_of_eval {ev : Evaluator} (h : ev.Sound (anyCode raises)) {node : Node} {σ σ' : EvalState} {e : Failure}
    (failed : ev.eval node σ = .failed e σ') : (anyCode raises).Permits ⟨[]⟩ .proper σ'.world e := by
  have run : (ev.eval node).Sound (anyCode raises) .proper fun _ => True :=
    .bind (h.exec node (allows_anyCode _ node)) fun r _ => .asValue fun ho => by cases ho
  exact ((run σ ⟨[]⟩ (kept_anyCode σ _)).of_failed failed).2

theorem not_isLow_of_proper {e : Failure} (h : Tier.proper.Allows e) : e.isLow = false := by
  cases e <;> first | rfl | exact h.elim

theorem cases_of_proper {e : Failure} (h : Tier.proper.Allows e) :
    (∃ r, e = .report r) ∨ (∃ m, e = .internal m) ∨ (∃ m, e = .classGeneration m) ∨ ∃ v, e = .thrown v := by
  cases e with
  | report r => exact .inl ⟨r, rfl⟩
  | internal m => exact .inr (.inl ⟨m, rfl⟩)
  | classGeneration m => exact .inr (.inr (.inl ⟨m, rfl⟩))
  | thrown v => exact .inr (.inr (.inr ⟨v, rfl⟩))
  | _ => exact h.elim

/-- A class that cannot be made, since nothing can extend the truth values. -/
def impossibleClass : Node :=
  .classDecl {} "A" (.blockOf []) (.typeRef {} (.resolved (.cls (.core .bool))) 0) [] [] false

def throwingClass : Node :=
  .classDecl {} "A"
    (.blockOf [.methodDecl {} "equals" [.param {} "o" .absent []] (.blockOf [.throw {} (.name {} "saved")]) .absent []])
    .absent [] [] false

def comparingSwitch : Node :=
  let made := .allocation {} (.typeRef {} (.named "A") 0) [] .absent
  .switch {} made [.label {} made]

def savingFault : World where
  scopes := #[{ name := "global", registry := some 0, vars := .ofList [("saved", { value := some (.object 0) })] }]
  objects := #[
    { cls := .core .utilEvalException, payload := .failure (.fault (.text "late") none) (.object 1) },
    { cls := .core .tuple, payload := .tuple [] }]
  registries := #[{}]

/-- What is no failure of a component as such can only be an exception of its class that is thrown
as it is. -/
theorem thrown_of_isFailureOf {w : World} {e : Failure} {c : CoreClass} (proper : Tier.proper.Allows e)
    (hc : c ∈ CoreClass.components) (h : Run.isFailureOf w e c) : ∃ v, e = .thrown v ∧ w.isInstance v (.core c) := by
  have other : ∀ k ∈ [CoreClass.targetException, .evalError, .interpreterError, .classGenerationError],
      k.mro.contains c = false :=
    (by decide : ∀ c ∈ CoreClass.components, ∀ k ∈ [CoreClass.targetException, .evalError, .interpreterError,
      .classGenerationError], k.mro.contains c = false) c hc
  have absurd {k : CoreClass} (hk : k ∈ [CoreClass.targetException, .evalError, .interpreterError, .classGenerationError])
      (held : k.mro.contains c) : False := by
    rw [other k hk] at held
    cases held
  cases e with
  | thrown v => exact ⟨v, rfl, h⟩
  | report r =>
    simp only [Run.isFailureOf, World.failureClass] at h
    split at h
    · exact (absurd (by decide) h).elim
    · exact (absurd (by decide) h).elim
  | internal m => exact (absurd (k := .interpreterError) (by decide) h).elim
  | classGeneration m => exact (absurd (k := .classGenerationError) (by decide) h).elim
  | _ => exact proper.elim

/-- No evaluation fails with a failure that is meant for the caller of a component. If none of the
requests that it makes is answered by an exception of the classes that components report with, it
does not end in one of these either. -/
theorem eval_fails_properly {n : Nat} {node : Node} {σ σ' : EvalState} {e : Failure}
    (h : (ofFuel n).eval node σ = .failed e σ') :
    e.isLow = false ∧
    (Embedding.own.Spares (Failure.isOneOf CoreClass.components) n (·.eval node) σ →
      ∀ c ∈ CoreClass.components, Run.isFailureOf σ'.world e c = false) := by
  have proper := (permits_of_eval (sound_anyCode n) h).allowed
  refine ⟨not_isLow_of_proper proper, fun spared c hc => Bool.eq_false_iff.mpr fun held => ?_⟩
  obtain ⟨v, rfl, isInstance⟩ := thrown_of_isFailureOf proper hc held
  rw [Embedding.Spares, ← ofFuel_eq_hosted, h] at spared
  have reserved : c ∈ CoreClass.reserved := (by decide : ∀ c ∈ CoreClass.components, c ∈ CoreClass.reserved) c hc
  exact (permits_of_eval (sound_withholding n) spared).raised rfl reserved isInstance hc

/-- A number in the place of a condition: the fault of the conversion leaves as a located error, in
any host. -/
theorem eval_fails_properly_conditional :
    let node : Node := .binary {} (.literal {} (.ofInt 1)) .and (.literal {} (.ofTruth true))
    let σ : EvalState := ⟨savingFault, .own ⟨[0]⟩⟩
    Embedding.own.Spares (Failure.isOneOf CoreClass.components) 4 (·.eval node) σ ∧
      ∃ r, (ofFuel 4).eval node σ = .failed (.report r) σ ∧ (Failure.report r).isLow = false ∧
        ∀ c ∈ CoreClass.components, Run.isFailureOf σ.world (.report r) c = false := by
  intro node σ
  have located (E : Embedding) : (hosted E 4).eval node σ = .failed (.report
      { message := Cause.conditionNotBoolean.message, node := .literal {} (.ofInt 1), stack := some [0] }) σ := rfl
  have spared : Embedding.own.Spares (Failure.isOneOf CoreClass.components) 4 (·.eval node) σ :=
    (located _).trans (located _).symm
  have failed := located .own
  rw [← ofFuel_eq_hosted] at failed
  exact ⟨spared, _, failed, (eval_fails_properly failed).1, (eval_fails_properly failed).2 spared⟩

/-- It does happen that such an exception leaves: nothing locates what a comparison of objects in a
switch raises. -/
theorem comparison_can_leave_fault :
    ∃ (n : Nat) (σ σ' : EvalState) (e : Failure),
      (ofFuel n).eval (.blockOf [throwingClass, comparingSwitch]) σ = .failed e σ' ∧
        Run.isFailureOf σ'.world e .utilEvalException := by
  have leak : ((ofFuel 12).eval (.blockOf [throwingClass, comparingSwitch]) ⟨savingFault, .own ⟨[0]⟩⟩).failedWith
      fun e σ => Run.isFailureOf σ.world e .utilEvalException := by decide +kernel
  obtain ⟨e, σ', failed, isInstance⟩ := Outcome.exists_of_failedWith leak
  exact ⟨12, _, σ', e, failed, isInstance⟩

end Evaluator

end ScriptCore
