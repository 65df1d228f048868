import ScriptCore.Proofs.StatementRules
import ScriptCore.Session.Result

namespace ScriptCore

variable {ev : Evaluator} {c : Terms}

namespace Evaluator.Sound

theorem blockOf {nodes : List Node} (hn : ∀ n ∈ nodes, c.Allows .statement n) : c.Allows .statement (.blockOf nodes) where
  names := by simpa [Node.blockOf, Node.usesOnly] using fun n hm => (hn n hm).names
  orderly ho := by simpa [Node.blockOf, Node.orderly, Role.position, Position.isStatement] using
    fun n hm => (hn n hm).orderly ho
  complete hc := by
    refine Node.complete_iff.mpr ⟨rfl, ?_⟩
    simpa [Node.blockOf, Node.arranged, Role.admits, Node.isAbsent] using fun n hm =>
      Node.complete_iff.mp ((hn n hm).complete hc)

theorem runProgram (h : ev.Sound c) {nodes : List Node} (hn : ∀ n ∈ nodes, c.Allows .statement n) :
    (ev.runProgram nodes).Sound c .proper fun _ => True := by
  refine .bind (h.execHere (blockOf hn).branch) fun r _ => ?_
  split
  · exact h.lift _
  · split
    · exact h.lift _
    · exact .stop

end Evaluator.Sound

end ScriptCore
