import ScriptCore.Change

namespace ScriptCore

namespace World

variable {w w' : World} {s t : ScopeId} {ss k : List ScopeId}

structure IsBlockIn (w : World) (s t : ScopeId) : Prop where
  isBlock : (w.scope s).isBlock = true
  parent : (w.scope s).parent = some t
  caller : (w.scope s).caller = none

/-- The frames `ss` are what has become of a call stack: again and again, a scope was put on top, or
a block was put in the place of the scope around it. -/
inductive Extends (w : World) (ss : List ScopeId) : List ScopeId → Prop
  | refl : Extends w ss ss
  | call {s : ScopeId} {k : List ScopeId} (h : Extends w ss (s :: k)) : Extends w ss k
  | block {s t : ScopeId} {rest : List ScopeId} (inside : w.IsBlockIn s t) (h : Extends w ss (s :: rest)) :
      Extends w ss (t :: rest)

theorem SameFrames.scope (h : w.SameFrames w') (inside : s < w.scopes.size) : (w.scope s).SameFrame (w'.scope s) := by
  obtain ⟨y, hy, same⟩ := Grows.kept h (Array.getElem?_eq_getElem inside)
  simpa [World.scope, hy, Array.getElem?_eq_getElem inside] using same

theorem scope_of_size_le (outside : w.scopes.size ≤ s) : w.scope s = {} := by
  rw [scope, Array.getElem?_eq_none outside]
  rfl

theorem IsBlockIn.inside (h : w.IsBlockIn s t) : s < w.scopes.size := by
  apply Nat.lt_of_not_le
  intro outside
  have isBlock := h.isBlock
  rw [scope_of_size_le outside] at isBlock
  cases isBlock

theorem IsBlockIn.later (h : w.IsBlockIn s t) (same : w.SameFrames w') : w'.IsBlockIn s t where
  isBlock := (same.scope h.inside).isBlock.trans h.isBlock
  parent := (same.scope h.inside).parent.trans h.parent
  caller := (same.scope h.inside).caller.trans h.caller

theorem Extends.later (h : w.Extends ss k) (same : w.SameFrames w') : w'.Extends ss k := by
  induction h with
  | refl => exact .refl
  | call _ ih => exact ih.call
  | block inside _ ih => exact ih.block (inside.later same)

def RaisedOn (w : World) (k : CallStack) (e : Failure) : Prop :=
  ∃ r ss, e = .report r ∧ r.stack = some ss ∧ w.Extends ss k.frames

theorem RaisedOn.later {k : CallStack} {e : Failure} (h : w.RaisedOn k e) (same : w.SameFrames w') : w'.RaisedOn k e := by
  obtain ⟨r, ss, located, shown, extends'⟩ := h
  exact ⟨r, ss, located, shown, extends'.later same⟩

end World

end ScriptCore
