import ScriptCore.Proofs.Gives
import ScriptCore.Proofs.Programs
import ScriptCore.Proofs.StackDiscipline
import ScriptCore.Proofs.TieredFailures

namespace ScriptCore

namespace Template

def inOrder (template : String) : Bool := (render template .null).isOk

theorem isOk_render (template : String) (context : Data) : (render template context).isOk = inOrder template := by
  simp only [inOrder, render]
  cases parse (template.toList.length + 1) ⟨['\x7b', '\x7b'], ['\x7d', '\x7d'], true, [], []⟩ template.toList <;> rfl

end Template

namespace Evaluator

variable (ev : Evaluator) {w : World}

theorem gives_ofTemplate {x : Except Template.Fault String} :
    ((Run.ofTemplate x).run.Gives w fun _ _ => True) ↔ x.isOk := by
  cases x with
  | ok s => exact ⟨fun _ => rfl, fun _ => trivial⟩
  | error e => exact ⟨False.elim, fun h => by cases h⟩

theorem gives_settleTexts (r : Report) : (Run.settleTexts r).run.Gives w fun _ _ => True := by
  simp only [Run.settleTexts, Action.run_bind, Comp.gives_bind, Run.gives_get, Action.run_forEach]
  exact Comp.gives_forEach (P := fun _ => True) (fun _ _ _ _ => trivial) trivial

theorem gives_reportText {t : String} {mark : Nat} {r : Report} :
    ((ev.reportText (.str t mark) r).run.Gives w fun _ _ => True) ↔
      Template.inOrder t ∧ ∀ x, r.target = some x → (ev.text x.exception).run.Gives w fun _ _ => True := by
  have fill (shown : String) (w : World) :
      ((Run.settleTexts r).run.Gives w fun _ w' =>
        (Run.ofTemplate (r.format? w' (fun _ => shown) t)).run.Gives w' fun _ _ => True) ↔ Template.inOrder t := by
    simp only [gives_ofTemplate, Report.format?, Template.isOk_render]
    rw [Comp.gives_const]
    exact and_iff_right (gives_settleTexts r)
  cases hx : r.target with
  | none =>
    simp only [reportText, hx, Action.run_bind, Action.run_pure, Comp.gives_bind, Comp.gives_pure]
    refine (fill "" w).trans ⟨fun h => ⟨h, fun _ hx => by cases hx⟩, fun h => h.1⟩
  | some x =>
    simp only [reportText, hx, Action.run_bind, Comp.gives_bind]
    refine (Comp.gives_congr fun shown w' => fill shown w').trans (Comp.gives_const.trans ?_)
    simp [and_comm]

theorem gives_describeReport {t : String} (mark : Nat) (source : Option String) {r : Report} :
    ((ev.describeReport (.str t mark) source r).Gives w fun _ _ => True) ↔
      Template.inOrder t ∧ ∀ x, r.target = some x → (ev.text x.exception).run.Gives w fun _ _ => True := by
  rw [← gives_reportText]
  simp only [describeReport, Action.liftM_run, Comp.gives_bind]
  refine Comp.gives_congr fun text w' => ?_
  cases source with
  | none => rfl
  | some s => dsimp only; split <;> rfl

theorem execute_eq (s : ScopeId) (template : Value) (nodes : List Node) (source : Option String)
    (w : World) :
    ev.execute s template nodes source w =
      match ev.evaluate s nodes w with
      | .done v w' => .done { status := "success", value := v } w'
      | .failed e w' =>
        match reported? w' e with
        | some r => ev.resultOf template source r w'
        | none =>
          if Run.isFailureOf w' e .interpreterError then
            (ev.failureText e >>= fun text => pure { status := "error", message := some ("InternalError: " ++ text) }) w'
          else .failed e w'
      | .exhausted => .exhausted := by
  simp only [execute, Comp.catching, Bind.bind, Comp.bind]
  cases ev.evaluate s nodes w with
  | done v w' => rfl
  | failed e w' =>
    dsimp only [Comp.get]
    cases reported? w' e with
    | some r => rfl
    | none => dsimp only; split <;> rfl
  | exhausted => rfl

theorem reported?_eq_none_iff {e : Failure} : reported? w e = none ↔ Run.isFailureOf w e .evalError = false := by
  cases e with
  | report r =>
    refine ⟨fun h => (by cases h), fun h => ?_⟩
    simp only [Run.isFailureOf, World.failureClass] at h
    split at h <;> exact absurd h (by decide)
  | thrown v =>
    simp only [reported?, Run.isFailureOf]
    split
    · next h => simp [h]
    · next h => simpa using h
  | fault cause target =>
    refine ⟨fun _ => ?_, fun _ => rfl⟩
    cases cause <;> cases target <;> rfl
  | reflect | hostCall | internal | classGeneration => exact ⟨fun _ => rfl, fun _ => rfl⟩

theorem gives_resultOf {t : String} {mark : Nat} {source : Option String} {r : Report} :
    ((ev.resultOf (.str t mark) source r).Gives w fun result _ =>
        result.status = "error" ∧ result.message.isSome ∧ result.line = if r.node.isAbsent then none else some r.line) ↔
      Template.inOrder t ∧ ∀ x, r.target = some x → (ev.text x.exception).run.Gives w fun _ _ => True := by
  rw [← ev.gives_describeReport mark source]
  simp [resultOf]

theorem cases_of_evaluate {n : Nat} {s : ScopeId} {nodes : List Node} {w' : World} {e : Failure}
    (h : (ofFuel n).evaluate s nodes w = .failed e w') :
    (∃ r, e = .report r) ∨ (∃ m, e = .internal m) ∨ (∃ m, e = .classGeneration m) ∨ ∃ v, e = .thrown v := by
  have rule := (sound_anyCode n).runProgram fun node (_ : node ∈ nodes) => allows_anyCode .statement node
  exact cases_of_proper ((Sound.onStack rule [s] (fits_anyCode w)).of_failed h).2.allowed

def isPlainReport : Failure → Bool
  | .report r => r.target.isNone
  | _ => false

theorem eq_report_of_isPlainReport {e : Failure} (h : isPlainReport e) : ∃ r, e = .report r ∧ r.target = none := by
  cases e with
  | report r => exact ⟨r, rfl, Option.isNone_iff_eq_none.mp h⟩
  | _ => cases h

def isClassGeneration : Failure → Bool
  | .classGeneration _ => true
  | _ => false

end Evaluator

end ScriptCore
