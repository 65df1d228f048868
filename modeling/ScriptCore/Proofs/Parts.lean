import ScriptCore.Proofs.Names

namespace ScriptCore

/-- What the result of a node in some place is used for: as a value, or to see whether to go on. -/
inductive Position where
  | expression | statement

def Position.isStatement : Position → Bool
  | expression => false
  | statement => true

/-- What a part of a tree is there for: to be evaluated, now or when it is not left out, to be
applied to a value, or to be looked at by the node that it is a part of. -/
inductive Role where
  | expression | statement
  | optional | branch
  | suffix
  | piece

def Role.position : Role → Position
  | expression | optional | suffix => .expression
  | statement | branch | piece => .statement

namespace Node

def isEvaluable : Node → Bool
  | absent | hostCall | unknown _ | fieldSuffix .. | callSuffix .. | indexSuffix .. | propertySuffix .. | classSuffix _
  | param .. | catchClause .. | declarator .. => false
  | _ => true

def isControl : Node → Bool
  | block .. | ifElse .. | whileLoop .. | forLoop .. | forEach .. | switch .. | tryCatch .. | «return» .. | «break» ..
  | «continue» .. => true
  | _ => false

def isSuffix : Node → Bool
  | fieldSuffix .. | callSuffix .. | indexSuffix .. | propertySuffix .. | classSuffix _ => true
  | _ => false

end Node

def Role.admits : Role → Node → Bool
  | expression, n | statement, n => n.isEvaluable
  | optional, n | branch, n => n.isAbsent || n.isEvaluable
  | suffix, n => n.isSuffix
  | piece, _ => true

namespace Node

/-- The trees right below a node whose evaluation is part of its own. -/
def parts : Node → List (Role × Node)
  | absent | hostCall | unknown _ | literal .. | name .. | typeRef .. | fieldSuffix .. | classSuffix _ | param ..
  | importDecl .. | packageDecl .. | «break» .. | «continue» .. => []
  | indexSuffix _ n | propertySuffix _ n | unary _ _ n _ | cast _ _ n | throw _ n => [(.expression, n)]
  | label _ n | declarator _ _ n _ | «return» _ n => [(.optional, n)]
  | catchClause _ _ n | methodDecl _ _ _ n _ _ | classDecl _ _ n _ _ _ _ => [(.branch, n)]
  | invocation _ _ ns | callSuffix _ _ ns | arrayInit _ ns => ns.map (.expression, ·)
  | exprList _ ns => ns.map (.statement, ·)
  | varDecl _ _ ns _ => ns.map (.piece, ·)
  | primary _ n ns => (.expression, n) :: ns.map (.suffix, ·)
  | arrayAlloc _ _ ns n => (.optional, n) :: ns.map (.optional, ·)
  | allocation _ _ ns n => (.branch, n) :: ns.map (.expression, ·)
  | assignment _ m _ n | binary _ m _ n => [(.expression, m), (.expression, n)]
  | ternary _ l m n => [(.expression, l), (.expression, m), (.expression, n)]
  | block _ ns n => (.optional, n) :: ns.map (.statement, ·)
  | switch _ n ns => (.expression, n) :: ns.map (.statement, ·)
  | ifElse _ l m n => [(.expression, l), (.statement, m), (.branch, n)]
  | whileLoop _ m n _ | forEach _ _ m n _ _ => [(.expression, m), (.branch, n)]
  | forLoop _ ls m ns n => (.optional, m) :: (.branch, n) :: (ls ++ ns).map (.statement, ·)
  | tryCatch _ m ns n => (.branch, m) :: (.branch, n) :: ns.map (.piece, ·)

mutual

def arranged : Node → Bool
  | absent | hostCall | unknown _ | literal .. | name .. | typeRef .. | fieldSuffix .. | classSuffix _ | param ..
  | importDecl .. | packageDecl .. | «break» .. | «continue» .. => true
  | indexSuffix _ n | propertySuffix _ n | unary _ _ n _ | cast _ _ n | throw _ n => Role.expression.admits n && arranged n
  | label _ n | declarator _ _ n _ | «return» _ n => Role.optional.admits n && arranged n
  | catchClause _ _ n | methodDecl _ _ _ n _ _ | classDecl _ _ n _ _ _ _ => Role.branch.admits n && arranged n
  | invocation _ _ ns | callSuffix _ _ ns | arrayInit _ ns => allArranged .expression ns
  | exprList _ ns => allArranged .statement ns
  | varDecl _ _ ns _ => allArranged .piece ns
  | primary _ n ns => Role.expression.admits n && arranged n && allArranged .suffix ns
  | arrayAlloc _ _ ns n => Role.optional.admits n && arranged n && allArranged .optional ns
  | allocation _ _ ns n => Role.branch.admits n && arranged n && allArranged .expression ns
  | assignment _ m _ n | binary _ m _ n =>
    Role.expression.admits m && arranged m && Role.expression.admits n && arranged n
  | ternary _ l m n =>
    Role.expression.admits l && arranged l && Role.expression.admits m && arranged m &&
      Role.expression.admits n && arranged n
  | block _ ns n => Role.optional.admits n && arranged n && allArranged .statement ns
  | switch _ n ns => Role.expression.admits n && arranged n && allArranged .statement ns
  | ifElse _ l m n =>
    Role.expression.admits l && arranged l && Role.statement.admits m && arranged m && Role.branch.admits n && arranged n
  | whileLoop _ m n _ | forEach _ _ m n _ _ =>
    Role.expression.admits m && arranged m && Role.branch.admits n && arranged n
  | forLoop _ ls m ns n =>
    allArranged .statement ls && Role.optional.admits m && arranged m && allArranged .statement ns
      && Role.branch.admits n && arranged n
  | tryCatch _ m ns n =>
    Role.branch.admits m && arranged m && allArranged .piece ns && Role.branch.admits n && arranged n

def allArranged (r : Role) : List Node → Bool
  | [] => true
  | n :: rest => r.admits n && arranged n && allArranged r rest

end

def complete (r : Role) (n : Node) : Bool := r.admits n && n.arranged

@[simp] theorem allArranged_iff {r : Role} {ns : List Node} : allArranged r ns ↔ ∀ n ∈ ns, r.admits n ∧ n.arranged := by
  induction ns with
  | nil => simp [allArranged]
  | cons n rest ih => simp [allArranged, ih]

theorem complete_iff {r : Role} {n : Node} : n.complete r ↔ r.admits n ∧ n.arranged := by
  simp [complete]

theorem complete_of_part {n m : Node} {r : Role} (h : n.arranged) (hm : (r, m) ∈ n.parts) : m.complete r := by
  rw [complete_iff]
  cases n <;> simp only [parts, arranged, Bool.and_eq_true, allArranged_iff, List.mem_cons, List.mem_map, List.mem_append,
    Prod.mk.injEq, List.not_mem_nil] at h hm <;> grind

theorem usesOnly_of_part {f : String → Bool} {n m : Node} {r : Role} (h : n.usesOnly f)
    (hm : (r, m) ∈ n.parts) : m.usesOnly f := by
  cases n <;> simp only [parts, usesOnly, Bool.and_eq_true, allUseOnly_iff, List.mem_cons, List.mem_map, List.mem_append,
    Prod.mk.injEq, List.not_mem_nil] at h hm <;> grind

end Node

end ScriptCore
