import ScriptCore.Proofs.SettledNames
import ScriptCore.Proofs.Views

namespace ScriptCore.Run

variable {may : May} {field : Value → String → Action may .fault Value} {s b : ScopeId} {full name : String} {k : Walk}
  {w : World}

theorem Took.leavesClass {r : Value × Walk} (h : Took k r w) (long : 1 < k.rest.length)
    (empty : r.2.rest = []) : (w.classId? r.1).isSome := by
  obtain ⟨i, rest, named, -⟩ := h
  exact named (Nat.lt_of_lt_of_le long (List.drop_eq_nil_iff.mp (rest.symm.trans empty)))

variable [May.Within .retype may]

theorem walkToOwner_leavesClass (view : View) (fuel : Nat) {v : Value} (h : k.rest = [] → (w.classId? v).isSome) :
    (walkToOwner view field s full fuel v k).run.Meets w
    (fun r w' => r.2.rest = [] → (w'.classId? r.1).isSome) fun _ _ => True := by
  induction fuel generalizing w v k with
  | zero => trivial
  | succ fuel ih =>
    unfold walkToOwner
    split
    · exact h
    · next long =>
      refine Comp.meets_bind.mpr ((takes_step view w).impDone fun r w' taken => ?_)
      exact ih (taken.leavesClass (Nat.lt_of_not_le long))

theorem resolvePlace_passes {may' : May} [May.Within .retype may'] [May.Within .halting may']
    [May.Within may may'] (view : View) (w : World) :
    (resolvePlace view field s name : Action may' .fault Place).run.Meets w (fun _ _ => True) fun e _ =>
      e.isOutright → ∃ u, Reaches may w u ∧ may.passes u e := by
  unfold resolvePlace
  split
  · split
    · exact fun ho => by cases ho
    · trivial
  · extract_lets segments found
    have owner : found.run.Meets w (fun r w' => r.2.rest = [] → (w'.classId? r.1).isSome) fun _ _ => True := by
      refine Action.meets_catching.mpr ((walkToOwner_leavesClass view _ fun empty => ?_).mono
        (fun _ _ left => left) fun e w' _ => ?_)
      · exact absurd empty (Path.segments_ne_nil name)
      · split
        · next handled =>
          split at handled
          · cases handled
            trivial
          · cases handled
        · trivial
    refine Comp.meets_bind.mpr ((owner.and (found.meets w)).mono (fun r w' ran => ?_) fun e w' ran ho => ran.2.2.passed ho)
    obtain ⟨owner, k⟩ := r
    dsimp only
    cases left : k.rest with
    | nil =>
      have isClass : (w'.classId? owner).isSome := ran.1 left
      refine Comp.meets_bind.mpr (Run.meets_read.mpr ?_)
      dsimp only
      rw [if_pos isClass]
      exact fun ho => by cases ho
    | cons last rest =>
      refine ((fieldPlace name k owner last).meets w').mono (fun _ _ _ => trivial) fun e w'' law ho => ?_
      obtain ⟨_, _, passes⟩ := law.2.passed ho
      exact passes.elim

end ScriptCore.Run
