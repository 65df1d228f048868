import ScriptCore.Proofs.Parts

namespace ScriptCore

def Ending.LeavesLoop : Ending → Prop
  | value v => v = .void
  | signal s _ => s.kind = .return

/-- A switch statement ends without a value, or with a signal that it does not take for itself. -/
def Ending.LeavesSwitch : Ending → Prop
  | value v => v = .void
  | signal s _ => s.kind ≠ .break

namespace Node

def isLoop : Node → Bool
  | whileLoop .. | forLoop .. | forEach .. => true
  | _ => false

def isSwitch : Node → Bool
  | switch .. => true
  | _ => false

mutual

/-- The tree can stand in the position, and so can the trees in it in theirs. -/
def orderly (p : Position) : Node → Bool
  | absent | hostCall | unknown _ | literal .. | name .. | typeRef .. | fieldSuffix .. | classSuffix _ | param ..
  | importDecl .. | packageDecl .. => true
  | «break» .. | «continue» .. => p.isStatement
  | indexSuffix _ n | propertySuffix _ n | unary _ _ n _ | cast _ _ n | label _ n | throw _ n | declarator _ _ n _ =>
    orderly .expression n
  | «return» _ n => p.isStatement && orderly .expression n
  | catchClause _ _ n | methodDecl _ _ _ n _ _ | classDecl _ _ n _ _ _ _ => orderly .statement n
  | invocation _ _ ns | callSuffix _ _ ns | arrayInit _ ns => allOrderly .expression ns
  | varDecl _ _ ns _ | exprList _ ns => allOrderly .statement ns
  | primary _ n ns | arrayAlloc _ _ ns n => orderly .expression n && allOrderly .expression ns
  | allocation _ _ ns n => orderly .statement n && allOrderly .expression ns
  | assignment _ m _ n | binary _ m _ n => orderly .expression m && orderly .expression n
  | ternary _ l m n => orderly .expression l && orderly .expression m && orderly .expression n
  | block _ ns n | switch _ n ns => p.isStatement && orderly .expression n && allOrderly .statement ns
  | ifElse _ l m n => p.isStatement && orderly .expression l && orderly .statement m && orderly .statement n
  | whileLoop _ m n _ | forEach _ _ m n _ _ => p.isStatement && orderly .expression m && orderly .statement n
  | forLoop _ ls m ns n =>
    p.isStatement && allOrderly .statement ls && orderly .expression m && allOrderly .statement ns && orderly .statement n
  | tryCatch _ m ns n => p.isStatement && orderly .statement m && allOrderly .statement ns && orderly .statement n

def allOrderly (p : Position) : List Node → Bool
  | [] => true
  | n :: rest => orderly p n && allOrderly p rest

end

@[simp] theorem allOrderly_iff {p : Position} {ns : List Node} : allOrderly p ns ↔ ∀ n ∈ ns, n.orderly p := by
  induction ns with
  | nil => simp [allOrderly]
  | cons n rest ih => simp [allOrderly, ih]

theorem orderly_of_part {n m : Node} {r : Role} {q : Position} (h : n.orderly q)
    (hm : (r, m) ∈ n.parts) : m.orderly r.position := by
  cases n <;> simp only [parts, orderly, Bool.and_eq_true, allOrderly_iff, List.mem_cons, List.mem_map, List.mem_append,
    Prod.mk.injEq, List.not_mem_nil] at h hm <;> grind [Role.position]

theorem orderly_statement {n : Node} {p : Position} (h : n.orderly p) : n.orderly .statement := by
  cases p with
  | statement => exact h
  | expression => cases n <;> first | exact h | cases h

structure Ends (n : Node) (r : Ending) : Prop where
  expression : n.orderly .expression → r.signal? = none
  loop : n.isLoop → r.LeavesLoop
  switch : n.isSwitch → r.LeavesSwitch

namespace Ends

variable {n : Node} {r : Ending}

theorem of_statement (hp : n.orderly .expression = false) (hl : n.isLoop = false) (hs : n.isSwitch = false) : n.Ends r where
  expression h := by rw [hp] at h; cases h
  loop h := by rw [hl] at h; cases h
  switch h := by rw [hs] at h; cases h

theorem of_value (hr : r.signal? = none) (hl : n.isLoop = false) (hs : n.isSwitch = false) : n.Ends r where
  expression _ := hr
  loop h := by rw [hl] at h; cases h
  switch h := by rw [hs] at h; cases h

theorem of_loop (hr : r.LeavesLoop) (hp : n.orderly .expression = false) (hs : n.isSwitch = false) : n.Ends r where
  expression h := by rw [hp] at h; cases h
  loop _ := hr
  switch h := by rw [hs] at h; cases h

theorem of_switch (hr : r.LeavesSwitch) (hp : n.orderly .expression = false) (hl : n.isLoop = false) : n.Ends r where
  expression h := by rw [hp] at h; cases h
  loop h := by rw [hl] at h; cases h
  switch _ := hr

end Ends

end Node

end ScriptCore
