import ScriptCore.Report

namespace ScriptCore

namespace CallStack

variable (k : CallStack)

def push (s : ScopeId) : CallStack := ⟨s :: k.frames⟩

def depth : Nat := k.frames.length

def get? (depth : Int) : Option ScopeId := if depth < 0 then none else k.frames[depth.toNat]?

def top? : Option ScopeId := k.get? 0

def pop (k : CallStack) : Action .halting .proper (ScopeId × CallStack) :=
  match k.frames with
  | [] => Run.internal "pop on empty CallStack"
  | s :: rest => pure (s, ⟨rest⟩)

def swap (k : CallStack) (s : ScopeId) : Action .halting .proper (ScopeId × CallStack) :=
  match k.frames with
  | [] => Run.internal "swap on empty CallStack"
  | t :: rest => pure (t, ⟨s :: rest⟩)

def position? (depth : Int) : Option Nat :=
  let n : Int := k.depth
  let p := if depth < 0 then n + depth else depth
  if 0 ≤ p && p < n then some p.toNat else none

def set (k : CallStack) (depth : Int) (s : ScopeId) : Plain CallStack :=
  match k.position? depth with
  | some n => pure ⟨k.frames.set n s⟩
  | none => Run.raise ⟨.indexError, "list assignment index out of range"⟩

def text (w : World) (k : CallStack) : String := w.stackText k.frames

end CallStack

end ScriptCore
