import ScriptCore.Proofs.ExpressionRules

namespace ScriptCore

namespace Evaluator.Sound

variable {α : Type} {ev : Evaluator} {c : Terms} {t : Tier}
variable {body final n : Node} {w w' : World} (h : ev.Sound c)
include h

theorem runLoopBody (hb : c.Allows .branch body) :
    (ev.runLoopBody body).Sound c .proper fun r => ∀ e, r = .leaveWith e → e.LeavesLoop := by
  unfold Evaluator.runLoopBody
  split
  · exact .pure fun _ he => by cases he
  · next given =>
    refine .bind (h.exec body (hb.taken (Bool.eq_false_iff.mpr given))) fun r _ => .pure fun e he => ?_
    unfold Evaluator.loopEnd at he
    split at he
    · cases he
    · split at he
      · next hk => cases he; exact hk
      · cases he
      · cases he

theorem evalEach {nodes : List Node} (hn : ∀ n ∈ nodes, c.Allows .statement n) :
    (ev.evalEach nodes).Sound c .proper fun _ => True :=
  .forEach fun n hm => h.perform (hn n hm)

theorem whileTurns {cond body : Node} (hc : c.Allows .expression cond) (hb : c.Allows .branch body)
    (fuel : Nat) (first : Bool) : (ev.whileTurns cond body fuel first).Sound c .proper Ending.LeavesLoop := by
  induction fuel generalizing first with
  | zero => exact .exhausted
  | succ fuel ih =>
    unfold Evaluator.whileTurns
    extract_lets turn
    have after (go : Bool) : (turn go).Sound c .proper Ending.LeavesLoop := by
      dsimp only [turn]
      split
      · exact .pure rfl
      · refine .bind (h.runLoopBody hb) fun r hr => ?_
        split
        · exact ih false
        · exact .pure rfl
        · exact .pure (hr _ rfl)
    split
    · exact .pure_bind (after true)
    · exact .bind (h.condition hc) fun go _ => after go

theorem forTurns {cond : Node} {update : List Node} (hc : c.Allows .optional cond)
    (hu : ∀ n ∈ update, c.Allows .statement n) (hb : c.Allows .branch body) (fuel : Nat) :
    (ev.forTurns cond update body fuel).Sound c .proper Ending.LeavesLoop := by
  induction fuel with
  | zero => exact .exhausted
  | succ fuel ih =>
    unfold Evaluator.forTurns
    extract_lets turn
    have after (go : Bool) : (turn go).Sound c .proper Ending.LeavesLoop := by
      dsimp only [turn]
      split
      · exact .pure rfl
      · refine .bind (h.runLoopBody hb) fun r hr => ?_
        split
        · exact .bind (h.evalEach hu) fun _ _ => ih
        · exact .pure rfl
        · exact .pure (hr _ rfl)
    split
    · exact .pure_bind (after true)
    · next given => exact .bind (h.condition (hc.given (Bool.eq_false_iff.mpr given))) fun go _ => after go

theorem forLoop {init : List Node} {cond : Node} {update : List Node}
    (hi : ∀ n ∈ init, c.Allows .statement n) (hc : c.Allows .optional cond)
    (hu : ∀ n ∈ update, c.Allows .statement n) (hb : c.Allows .branch body) :
    (ev.forLoop init cond update body).Sound c .proper Ending.LeavesLoop :=
  .inBlock h fun _ => .bind (h.evalEach hi) fun _ _ => h.forTurns hc hu hb _

theorem loopItems (n : Node) (v : Value) : (ev.loopItems n v).Sound c .proper fun _ => True := by
  refine .bind (h.lift _) fun w _ => ?_
  split
  · exact .stop
  · split
    · exact .bind (h.lift _) fun _ _ => .pure trivial
    · exact .stop

theorem eachTurns (n : Node) (x : LoopVariable) (kind : Elements)
    (hb : c.Allows .branch body) (fuel : Nat) (cursor : Cursor) :
    (ev.eachTurns n x kind body fuel cursor).Sound c .proper Ending.LeavesLoop := by
  induction fuel generalizing cursor with
  | zero => exact .exhausted
  | succ fuel ih =>
    simp only [Evaluator.eachTurns]
    refine .bind (.catching_lift (h.lift (t := .proper) _) (fun w e y hy => ?_) fun w e he hn => he) fun next _ => ?_
    · split at hy
      · cases hy
      · cases hy; exact .bind (h.lift _) fun _ _ => .stopWith
    · split
      · exact .pure rfl
      · refine .bind (h.lift _) fun item _ => .bind (.located (h.lift _)) fun _ _ => .bind (h.runLoopBody hb) fun r hr => ?_
        split
        · exact ih _
        · exact .pure rfl
        · exact .pure (hr _ rfl)

theorem forEachLoop (n : Node) (name : String) {iterable body : Node} (type : Node)
    (modifiers : List String) (hi : c.Allows .expression iterable) (hb : c.Allows .branch body) :
    (ev.forEachLoop n name iterable body type modifiers).Sound c .proper Ending.LeavesLoop :=
  .bind (h.eval hi) fun v _ => .bind (h.loopItems n v) fun _ _ => .bind (h.resolveType type) fun _ _ =>
    .bind (h.modifiersOf _ modifiers n) fun _ _ => .inBlock h fun _ => h.eachTurns n _ _ hb _ _

theorem switchEquals (n expr : Node) (v label : Value) :
    (ev.switchEquals n expr v label).Sound c .proper fun _ => True := by
  unfold Evaluator.switchEquals
  split
  · refine .catching (s := .fault) (.bind (h.lift _) fun r _ => .bind (h.lift _) fun b _ => .pure trivial)
      (fun w e y hy => ?_) (fun w e he hn => ?_) fun _ _ => rfl
    · split at hy
      · cases hy
        exact .bind (h.lift _) fun _ _ => .locate
      · cases hy
    · cases e <;> first | exact Tier.allows_of_not_isLow rfl | exact he.elim | cases hn
  · exact h.lift _

theorem labelEquals (n expr : Node) (v : Value) {e : Node} (he : c.Allows .optional e) :
    (ev.labelEquals n expr v e).Sound c .proper fun _ => True := by
  unfold Evaluator.labelEquals
  split
  · exact .pure trivial
  · next present =>
    exact .bind (h.eval (he.given (Bool.eq_false_iff.mpr present))) fun label _ => h.switchEquals n expr v label

theorem switchBody (n expr : Node) (v : Value) (matched : Value) (body : List Node)
    (hb : ∀ n ∈ body, c.Allows .statement n) :
    (ev.switchBody n expr v matched body).Sound c .proper Ending.LeavesSwitch := by
  induction body generalizing matched with
  | nil => unfold Evaluator.switchBody; exact .pure rfl
  | cons m rest ih =>
    have hrest := fun m hm => hb m (List.mem_cons_of_mem _ hm)
    have hm := hb m List.mem_cons_self
    unfold Evaluator.switchBody
    split
    · next he => cases he
    · next he =>
      cases he
      refine .bind (h.lift _) fun b _ => ?_
      split
      · exact ih _ hrest
      · have optional : c.Allows .optional _ := hm.part (by simp only [Node.parts]; exact List.mem_singleton.mpr rfl)
        exact .bind (h.labelEquals n expr v optional) fun now _ => ih now hrest
    · next he =>
      cases he
      refine .bind (h.lift _) fun b _ => ?_
      split
      · refine .bind (h.exec m hm) fun r _ => ?_
        split
        · split
          · exact .pure rfl
          · next hk => exact .pure hk
        · exact ih _ hrest
      · exact ih _ hrest

theorem switch (n : Node) {expr : Node} {body : List Node} (he : c.Allows .expression expr)
    (hb : ∀ n ∈ body, c.Allows .statement n) : (ev.switch n expr body).Sound c .proper Ending.LeavesSwitch := by
  refine .bind (h.eval he) fun v _ => ?_
  split
  · exact .stop
  · exact h.switchBody n expr v (.bool false) _ hb
  · exact .stop

theorem runClause (param : Node) {block : Node} (hb : c.Allows .branch block) (name : String)
    (ty : Ty) (exception : Value) : (ev.runClause param block name ty exception).Sound c .proper fun _ => True := by
  refine .bind (h.lift _) fun _ _ => .inBlock_after h _ (fun r => .located (P := fun _ => True) ?_) fun _ => h.execHere hb
  split
  · exact h.lift _
  · exact .bind (h.lift _) fun _ _ => .bind (h.modifiersOf _ _ param) fun _ _ => h.lift _

/-- If no clause takes the exception, the error goes on; where it was located does not change. -/
theorem handleCatch_meets {w₀ : World} {k : CallStack} {error : Failure} (ho : error.isOutright)
    (raised : c.passes error ∨ w₀.RaisedOn k error) (exception : Value) (clauses : List Node)
    (hc : ∀ n ∈ clauses, c.Allows .piece n) {σ : EvalState} (hk : c.Kept w₀ k σ) :
    (ev.handleCatch error exception clauses).Meets σ (fun _ σ' => c.Kept w₀ k σ' ∧ True) fun e σ' =>
      c.Kept w₀ k σ' ∧ c.Permits k .proper σ'.world e := by
  induction clauses generalizing σ with
  | nil => exact ⟨hk, .of_passes ho (raised.imp_right fun located => located.later hk.since.frames)⟩
  | cons n rest ih =>
    have hn := hc n List.mem_cons_self
    unfold Evaluator.handleCatch
    split
    · next hl => cases hl
    · next hl =>
      cases hl
      refine (h.keeps_lift _).bind_meets hk fun type σ₁ hk₁ _ =>
        (h.resolveType type).keeps.bind_meets hk₁ fun ty σ₂ hk₂ _ =>
        (h.keeps_lift _).bind_meets hk₂ fun takes σ₃ hk₃ _ => ?_
      split
      · exact (h.keeps_lift _).bind_meets hk₃ fun name σ₄ hk₄ _ =>
          (h.runClause _ (hn.part (by simp [Node.parts])) name ty exception) σ₄ k hk₄
      · exact ih (fun m hm => hc m (List.mem_cons_of_mem _ hm)) hk₃
    · exact (h.keeps_lift _ σ k hk).imp fun _ _ ran => ran

theorem handleCatch_alike (hl : c.Lexical) {error error' : Failure}
    (same : error.untraced = error'.untraced) (exception : Value) (clauses : List Node)
    (hc : ∀ n ∈ clauses, c.Allows .piece n) :
    Eval.Alike c CallStack.SameTop (fun a b => a = b ∧ True)
      (ev.handleCatch error exception clauses) (ev.handleCatch error' exception clauses) := by
  induction clauses with
  | nil => exact .fail same
  | cons n rest ih =>
    have hn := hc n List.mem_cons_self
    unfold Evaluator.handleCatch
    split
    · next he => cases he
    · next he =>
      cases he
      refine (h.lift (t := .proper) _).bind_alike hl fun type _ => (h.resolveType type).bind_alike hl fun ty _ =>
        (h.lift (t := .proper) _).bind_alike hl fun takes _ => ?_
      split
      · exact (h.lift (t := .proper) _).bind_alike hl fun name _ =>
          (h.runClause _ (hn.part (by simp [Node.parts])) name ty exception).alike hl
      · exact ih fun m hm => hc m (List.mem_cons_of_mem _ hm)
    · exact (h.lift (t := .proper) _).alike hl

/-- A try block leaves the stack as it was; if the stack is nobody else's, there was nothing to
unwind. -/
theorem tryBlock {block : Node} {clauses : List Node} (hb : c.Allows .branch block)
    (hc : ∀ n ∈ clauses, c.Allows .piece n) : (ev.tryBlock block clauses).Sound c .proper fun _ => True where
  keeps := by
    intro w₀ σ k hk
    simp only [Evaluator.tryBlock, Comp.meets_bind, Eval.meets_frames, Eval.meets_catching]
    refine ((h.execBlock hb) σ k hk).mono (fun _ _ hr => hr) fun e σ' he => ?_
    split
    · next y hy =>
      split at hy
      · cases hy
        rw [Comp.meets_bind]
        refine (Eval.Sound.unwindTo he.1.afresh fun hd => ?_).imp fun _ σ'' hk' => ?_
        · exact Nat.le_of_eq (congrArg List.length (hk.frames hd).symm)
        · exact (h.handleCatch_meets rfl (he.2.passed rfl) _ clauses hc hk').mono (fun _ _ hr => ⟨he.1.trans hr.1, hr.2⟩)
            fun _ _ hf => ⟨he.1.trans hf.1, hf.2⟩
      · cases hy
    · exact he
  alike hl := by
    intro w k k' hw hk
    -- The depth to unwind to is that of the stack at hand, so the two stacks are fixed from here on.
    have body := ((h.execBlock hb).alike hl).on (T := fun l l' => l = k ∧ l' = k') fun _ _ at' => at'.1 ▸ at'.2 ▸ hk
    have depth (l : CallStack) : Eval.frames ⟨w, .own l⟩ = .done l.frames ⟨w, .own l⟩ := rfl
    unfold Evaluator.tryBlock
    rw [Comp.bind_of_done (depth k), Comp.bind_of_done (depth k')]
    refine Eval.Alike.catching body (fun w' e e' same => ?_) w k k' hw ⟨rfl, rfl⟩
    cases e with
    | report r =>
      cases e' with
      | report r' =>
        obtain ⟨message, node, stack, target⟩ := r
        obtain ⟨message', node', stack', target'⟩ := r'
        cases same
        cases target with
        | none => exact .none
        | some t =>
          have same : (Failure.report ⟨message, node, stack, some t⟩).untraced =
            (Failure.report ⟨message, node, stack', some t⟩).untraced := rfl
          refine .some ?_
          rintro v l l' hv ⟨rfl, rfl⟩
          rw [Comp.bind_of_done (Eval.Sound.unwindTo_own v l), Comp.bind_of_done (Eval.Sound.unwindTo_own v l')]
          exact h.handleCatch_alike hl same t.exception clauses hc v l l' hv hk
      | _ => cases same
    | _ =>
      cases e' with
      | report r' => cases same
      | _ => exact .none

theorem finishTry_ok (hf : c.Allows .branch final) (r : Ending) :
    (ev.finishTry final (.ok r)).Sound c .proper fun _ => True := by
  unfold Evaluator.finishTry
  dsimp only
  split
  · exact .pure_bind (.pure trivial)
  · refine .bind (h.execBlock hf) fun last _ => ?_
    cases last <;> exact .pure trivial

/-- An error that a final block does not replace goes on; where it was located does not change. -/
theorem finishTry_error_meets (hf : c.Allows .branch final) {w₀ : World} {k : CallStack}
    {e : Failure} (ho : e.isOutright) (raised : c.passes e ∨ w₀.RaisedOn k e) {σ : EvalState} (hk : c.Kept w₀ k σ) :
    (ev.finishTry final (.error e)).Meets σ (fun _ σ' => c.Kept w₀ k σ' ∧ True) fun e σ' =>
      c.Kept w₀ k σ' ∧ c.Permits k .proper σ'.world e := by
  have goesOn {σ' : EvalState} (hk' : c.Kept w₀ k σ') : c.Permits k .proper σ'.world e :=
    .of_passes ho (raised.imp_right fun located => located.later hk'.since.frames)
  unfold Evaluator.finishTry
  dsimp only
  split
  · exact ⟨hk, goesOn hk⟩
  · refine (h.execBlock hf).keeps.bind_meets hk fun last σ' hk' _ => ?_
    cases last with
    | signal s n => exact ⟨hk', trivial⟩
    | value v => exact ⟨hk', goesOn hk'⟩

theorem finishTry_alike (hl : c.Lexical) (hf : c.Allows .branch final)
    {e e' : Failure} (same : e.untraced = e'.untraced) :
    Eval.Alike c CallStack.SameTop (fun a b => a = b ∧ True) (ev.finishTry final (.error e))
      (ev.finishTry final (.error e')) := by
  unfold Evaluator.finishTry
  dsimp only
  split
  · exact .fail same
  · refine (h.execBlock hf).bind_alike hl fun last _ => ?_
    cases last with
    | signal s k => exact .pure ⟨rfl, trivial⟩
    | value v => exact .fail same

theorem tryStatement {block : Node} {clauses : List Node}
    (hb : c.Allows .branch block) (hc : ∀ n ∈ clauses, c.Allows .piece n) (hf : c.Allows .branch final) :
    (ev.tryStatement block clauses final).Sound c .proper fun _ => True where
  keeps := by
    intro w₀ σ k hk
    simp only [Evaluator.tryStatement, Comp.meets_bind, Eval.meets_catching]
    refine ((h.tryBlock hb hc) σ k hk).mono (fun r σ' hr => ?_) fun e σ' he => ?_
    · exact (h.finishTry_ok hf r) σ' k hr.1
    · split
      · next y hy =>
        split at hy
        · cases hy
          exact (h.finishTry_error_meets hf rfl (he.2.passed rfl) he.1.afresh).mono (fun _ _ hr => ⟨he.1.trans hr.1, hr.2⟩)
            fun _ _ hf => ⟨he.1.trans hf.1, hf.2⟩
        · cases hy
      · exact he
  alike hl := by
    unfold Evaluator.tryStatement
    refine .bind (R := fun r r' => r.mapError Failure.untraced = r'.mapError Failure.untraced)
      (.catching ((h.tryBlock hb hc).bind_alike hl fun v _ => .pure rfl) fun w e e' same => ?_) fun r r' same => ?_
    · cases e with
      | report r =>
        cases e' with
        | report r' => exact .some (.pure (congrArg Except.error same))
        | _ => cases same
      | _ =>
        cases e' with
        | report r' => cases same
        | _ => exact .none
    · cases r with
      | ok a =>
        cases r' with
        | ok b =>
          cases Except.ok.inj same
          exact (h.finishTry_ok hf a).alike hl
        | error e' => cases same
      | error e =>
        cases r' with
        | ok b => cases same
        | error e' => exact h.finishTry_alike hl hf (Except.error.inj same)

theorem throw (n : Node) {expr : Node} (he : c.Allows .expression expr) :
    (ev.throw n expr).Sound c .proper fun _ => True := by
  refine .bind (h.eval he) fun v _ => .bind (h.lift _) fun ok _ => ?_
  split
  · exact .stopWith
  · exact .stop

theorem declare (n : Node) (r : ScopeId) (base : Ty) (modifiers : Modifiers) {decl : Node}
    (hd : c.Allows .piece decl) : (ev.declare n r base modifiers decl).Sound c .proper fun _ => True := by
  unfold Evaluator.declare
  split
  · next name init dims =>
    have hinit : c.Allows .optional init := hd.part (by simp [Node.parts])
    have after : ∀ (ty : Ty) (value : Option Value), (Eval.located (some "Typed variable declaration") n
        (Run.setTypedVariable r name ty value modifiers)).Sound c .proper fun _ => True :=
      fun _ _ => .located (h.lift _)
    dsimp only
    split
    · split
      · exact .bind (h.initArray _ hinit) fun v _ => .pure_bind (after _ _)
      · exact .bind (h.initArray _ hinit) fun v _ => .pure_bind (after _ _)
      · exact .bind (h.lift _) fun _ _ => .bind (P := fun _ => True) .stop fun _ _ => after _ _
    · split
      · exact .pure_bind (after _ _)
      · next given =>
        refine .bind (h.eval (hinit.given (Bool.eq_false_iff.mpr given))) fun v _ => ?_
        split
        · exact .bind (P := fun _ => True) .stop fun _ _ => after _ _
        · exact .pure_bind (after _ _)
  · exact h.lift _
  · split
    · exact h.lift _
    · exact h.lift _
  · exact h.lift _

theorem varDecl (n type : Node) {decls : List Node} (hd : ∀ d ∈ decls, c.Allows .piece d)
    (modifiers : List String) : (ev.varDecl n type decls modifiers).Sound c .proper fun _ => True := by
  refine .bind .top fun r _ => .bind (h.resolveType type) fun base _ => .bind (h.lift _) fun strict _ => ?_
  split
  · exact .stop
  · exact .bind (h.modifiersOf _ modifiers n) fun ms _ =>
      .bind (.forEach fun d hm => h.declare n r base ms (hd d hm)) fun _ _ => .pure trivial

theorem importDecl (n : Node) (path : String) (wildcard static : Bool) :
    (Evaluator.importDecl n path wildcard static).Sound c .proper fun _ => True := by
  unfold Evaluator.importDecl
  refine .bind .top fun r _ => ?_
  have after : ∀ parts, (do
      Run.debug fun _ => parts
      pure .void : Eval Value).Sound c .proper fun _ => True := fun _ => .bind (h.lift _) fun _ _ => .pure trivial
  dsimp only
  split
  · split
    · exact .bind (P := fun _ => True) .stop fun _ _ => after _
    · refine .bind (h.lift _) fun found _ => ?_
      split
      · exact .bind (P := fun _ => True) .stop fun _ _ => after _
      · exact .bind (h.lift _) fun _ _ => after _
  · split
    · exact .bind (h.lift _) fun _ _ => after _
    · exact .bind (h.lift _) fun _ _ => after _

omit h in
theorem jump (n : Node) (kind : SignalKind) (label : Option String) :
    (Evaluator.jump n kind label).Sound c .proper fun _ => True := by
  unfold Evaluator.jump
  split
  · exact .stop
  · exact .pure trivial

theorem nameValue (n : Node) {path : String} (hp : c.names path) :
    (ev.nameValue n path).Sound c .proper fun _ => True :=
  .located (.bind .top fun r _ => .bind (h.lift _) fun _ _ => h.resolveName r hp)

theorem invocation (n : Node) {path : String} {args : List Node} (hp : c.names path)
    (ha : ∀ a ∈ args, c.Allows .expression a) : (ev.invocation n path args).Sound c .proper fun _ => True :=
  .bind (h.evalArgs ha) fun values _ => .bind .top fun r _ => .bind (h.lift _) fun _ _ =>
    .located (h.invokeName r hp values n)

theorem methodDecl (hn : c.Allows .statement n) : (do
    let s ← Eval.top
    let m ← Evaluator.buildMethod n s
    Run.setMethod s m
    pure .void : Eval Value).Sound c .proper fun _ => True :=
  .bind .top fun r _ => .bind (h.buildMethod hn r) fun _ hm => .bind (.setMethod h hm) fun _ _ => .pure trivial

theorem valueOf (hn : c.Allows .statement n) (hv : n.isControl = false) :
    (ev.valueOf n).Sound c .proper fun _ => True := by
  cases n with
  | literal o v => exact .pure trivial
  | name o path => exact h.nameValue _ hn.names
  | primary o base suffixes =>
    exact h.primaryValue (hn.part (by simp [Node.parts])) fun s hs => hn.part (by simp [Node.parts, hs])
  | invocation o path args =>
    have used := hn.names
    simp only [Node.usesOnly, Bool.and_eq_true] at used
    exact h.invocation _ used.1 fun a ha => hn.part (by simp [Node.parts, ha])
  | assignment o target op value =>
    exact h.assignment _ op (hn.part (by simp [Node.parts])) (hn.part (by simp [Node.parts]))
  | binary o l op r => exact h.binary _ op (hn.part (by simp [Node.parts])) (hn.part (by simp [Node.parts]))
  | unary o op e trailing => exact h.unary _ op (hn.part (by simp [Node.parts])) trailing
  | ternary o k a b =>
    refine .bind (h.condition (hn.part (by simp [Node.parts]))) fun go _ => ?_
    split
    · exact h.eval (hn.part (by simp [Node.parts]))
    · exact h.eval (hn.part (by simp [Node.parts]))
  | cast o type e => exact h.castExpr _ type (hn.part (by simp [Node.parts]))
  | typeRef o target dims => exact .bind (h.resolveType _) fun ty _ => h.lift _
  | allocation o type args body =>
    exact h.allocation _ type (fun a ha => hn.part (by simp [Node.parts, ha])) (hn.part (by simp [Node.parts]))
  | arrayAlloc o type dims init =>
    exact h.arrayAllocation _ type (fun d hd => hn.part (by simp [Node.parts, hd])) (hn.part (by simp [Node.parts]))
  | arrayInit o es => exact h.initArray _ hn
  | label o e =>
    simp only [Evaluator.valueOf]
    split
    · exact .pure trivial
    · next given =>
      have present : c.Allows .optional e := hn.part (by simp [Node.parts])
      exact h.eval (present.given (Bool.eq_false_iff.mpr given))
  | throw o e => exact h.throw _ (hn.part (by simp [Node.parts]))
  | varDecl o type decls ms => exact h.varDecl _ type (fun d hd => hn.part (by simp [Node.parts, hd])) ms
  | methodDecl => exact h.methodDecl hn
  | classDecl => exact h.generateClass hn
  | importDecl o path wildcard static => exact h.importDecl _ path wildcard static
  | packageDecl o path => exact .bind .top fun r _ => .bind (h.lift _) fun _ _ => .pure trivial
  | exprList o es => exact .bind (h.evalEach fun e he => hn.part (by simp [Node.parts, he])) fun _ _ => .pure trivial
  | absent | hostCall | unknown | fieldSuffix | callSuffix | indexSuffix | propertySuffix | classSuffix | param
  | catchClause | declarator => exact .internal (hn.incomplete rfl)
  | _ => cases hv

theorem evalNode_of_value (rule : ev.evalNode n = Eval.endingWith (ev.valueOf n))
    (hv : n.isControl = false) (hl : n.isLoop = false) (hs : n.isSwitch = false) (hn : c.Allows .statement n) :
    (ev.evalNode n).Sound c .proper fun r => c.orderly → n.Ends r := by
  rw [rule]
  exact (Eval.SoundOn.endingWith (h.valueOf hn hv)).imp fun r hr ho => .of_value (hr ho) hl hs

theorem evalNode (hn : c.Allows .statement n) :
    (ev.evalNode n).Sound c .proper fun r => c.orderly → n.Ends r := by
  cases n with
  | block o ss lock =>
    exact (h.execBlock hn.branch).imp fun r _ _ => .of_statement rfl rfl rfl
  | ifElse o k a b =>
    refine Eval.SoundOn.imp (P := fun _ => True) (.bind (h.condition (hn.part (by simp [Node.parts]))) fun go _ => ?_)
      fun r _ _ => .of_statement rfl rfl rfl
    split
    · exact (h.exec a (hn.part (by simp [Node.parts]))).imp fun _ _ => trivial
    · split
      · exact .pure trivial
      · next given =>
        have present : c.Allows .branch b := hn.part (by simp [Node.parts])
        exact (h.exec b (present.taken (Bool.eq_false_iff.mpr given))).imp fun _ _ => trivial
  | whileLoop o k body first =>
    refine (h.whileTurns (hn.part ?_) (hn.part ?_) _ first).imp fun r hr _ =>
      .of_loop hr rfl rfl
    all_goals simp [Node.parts]
  | forLoop o init k update body =>
    refine (h.forLoop (fun m hm => hn.part ?_) (hn.part ?_) (fun m hm => hn.part ?_) (hn.part ?_)).imp fun r hr _ =>
      .of_loop hr rfl rfl
    all_goals simp [Node.parts, *]
  | forEach o x iterable body type ms =>
    refine (h.forEachLoop _ x type ms (hn.part ?_) (hn.part ?_)).imp fun r hr _ =>
      .of_loop hr rfl rfl
    all_goals simp [Node.parts]
  | switch o e body =>
    refine (h.switch _ (hn.part ?_) fun m hm => hn.part ?_).imp fun r hr _ =>
      .of_switch hr rfl rfl
    all_goals simp [Node.parts, *]
  | tryCatch o block clauses final =>
    refine (h.tryStatement (hn.part ?_) (fun m hm => hn.part ?_) (hn.part ?_)).imp fun r _ _ =>
      .of_statement rfl rfl rfl
    all_goals simp [Node.parts, *]
  | «return» o e =>
    have after : ∀ v : Value, (pure (.signal { kind := .return, value := v, node := .return o e } none) :
        Eval Ending).Sound c .proper fun r => c.orderly → (Node.return o e).Ends r :=
      fun v => .pure fun _ => .of_statement rfl rfl rfl
    simp only [Evaluator.evalNode]
    split
    · exact .pure_bind (after .void)
    · next given =>
      have present : c.Allows .optional e := hn.part (by simp [Node.parts])
      exact .bind (h.eval (present.given (Bool.eq_false_iff.mpr given))) fun v _ => after v
  | «break» o l =>
    exact (jump _ .break l).imp fun r _ _ => .of_statement rfl rfl rfl
  | «continue» o l =>
    exact (jump _ .continue l).imp fun r _ _ => .of_statement rfl rfl rfl
  | _ => exact h.evalNode_of_value rfl rfl rfl rfl hn

omit h in
theorem onStack {x : Eval α} {P : α → Prop} (hx : x.Sound c t P) (frames : List ScopeId) {w : World}
    (hw : c.Fits w) (given : frames ≠ [] := by exact List.cons_ne_nil _ _) :
    (Run.onStack frames x).Meets w (fun _ w' => c.Fits w' ∧ c.Since w w') fun e w' =>
      (c.Fits w' ∧ c.Since w w') ∧ c.Permits ⟨frames⟩ t w' e := by
  have run := hx ⟨w, .own ⟨frames⟩⟩ ⟨frames⟩ ⟨hw, .refl w, fun _ => rfl, fun _ => given⟩
  unfold Comp.Meets Run.onStack at *
  cases h : x ⟨w, .own ⟨frames⟩⟩ with
  | done a σ => rw [h] at run; exact ⟨run.1.fits, run.1.since⟩
  | failed e σ => rw [h] at run; exact ⟨⟨run.1.fits, run.1.since⟩, run.2⟩
  | exhausted => trivial

omit h in
theorem carries_onStack {x : Eval α} {P : α → Prop} (hx : x.Sound c t P) {s : ScopeId}
    (hl : (Run.onStack [s] x).Leads w w') (hw : c.Fits w) : c.Fits w' ∧ c.Since w w' :=
  Comp.Meets.of_leads (P := fun v => c.Fits v ∧ c.Since w v) ((onStack hx [s] hw).mono (fun _ _ h => h) fun _ _ h => h.1) hl

theorem respond (r : Request α) (hl : (ev.respond r).Leads w w') (hw : c.Fits w) :
    c.Fits w' ∧ c.Since w w' := by
  cases r with
  | call f args => exact h.reaches id ((ev.callValue f args).reaches hl) hw
  | text v => exact h.reaches id ((ev.textOf v).reaches hl) hw
  | describe v => exact h.reaches id ((ev.describeOf v).reaches hl) hw
  | equal a b => exact h.reaches id ((ev.equalTo a b).reaches hl) hw
  | hash v => exact h.reaches id ((ev.hashOf v).reaches hl) hw
  | enter s name args declaredOnly => exact carries_onStack (h.invokeIn s name args .hostCall declaredOnly none) hl hw
  | setUp s v k args => exact carries_onStack (h.setUpScripted v k args .hostCall) hl hw

omit h in
theorem operation {x : Run α} {p : World → Prop} (hx : ∀ {w w' : World}, x.Leads w w' → p w → p w')
    (hc : ∀ {w w' : World}, w.Calm w' → p w → p w') (hl : (Evaluator.operation x).run.Leads w w') : p w → p w' := by
  intro hw
  cases h : x w with
  | done a v =>
    have hv := hx (.done a h) hw
    cases hl with
    | done b hb => simp only [Evaluator.operation, h] at hb; cases hb; exact hv
    | failed e he => simp only [Evaluator.operation, h] at he; cases he
  | failed e v =>
    have hv := hx (.failed e h) hw
    by_cases low : e.isLow
    · have he : (Evaluator.operation x).run w = (Run.raiseFailure e).run v := by
        simp only [Evaluator.operation, h, if_pos low]
      have reached : Reaches .raising v w' := (Run.raiseFailure e).reaches (by
        cases hl with
        | done b hb => exact .done b (he ▸ hb)
        | failed e' hb => exact .failed e' (he ▸ hb))
      exact reached.preserves hc False.elim hv
    · have he : (Evaluator.operation x).run w = .failed e v := by simp only [Evaluator.operation, h, if_neg low]
      cases hl with
      | done b hb => rw [he] at hb; cases hb
      | failed e' hb => rw [he] at hb; cases hb; exact hv
  | exhausted =>
    cases hl with
    | done b hb => simp only [Evaluator.operation, h] at hb; cases hb
    | failed e he => simp only [Evaluator.operation, h] at he; cases he

omit h in
theorem level {below : Unit → Evaluator} (h : (below ()).Sound c) {fuel : Nat}
    (hr : ∀ {d}, (Evaluator.level fuel below).Raises d → c.raises d)
    (hp : ∀ {w e}, c.Fits w → (Evaluator.level fuel below).Passes w e → c.passes e) :
      (Evaluator.level fuel below).Sound c where
  exec _ hn := h.evalNode hn
  answer r w _ hl hw := by
    refine operation (p := fun v => c.Fits v ∧ c.Since w v) (fun ran hv => ?_) (fun calm hv => ?_) hl ⟨hw, .refl w⟩
    · obtain ⟨fits, same⟩ := h.respond r ran hv.1
      exact ⟨fits, hv.2.trans same⟩
    · exact ⟨hv.1.of_calm calm, hv.2.trans (.of_calm calm)⟩
  raises := hr
  passes := hp

omit h in
theorem ofFuel (n : Nat) (hr : ∀ m ≤ n, ∀ {d}, (Evaluator.ofFuel m).Raises d → c.raises d)
    (hp : ∀ m ≤ n, ∀ {w e}, c.Fits w → (Evaluator.ofFuel m).Passes w e → c.passes e := by
      exact fun _ _ _ _ _ _ => trivial) :
    (Evaluator.ofFuel n).Sound c := by
  induction n with
  | zero =>
    refine ⟨fun _ _ => .exhausted, fun r w w' hl => ?_, hr 0 (Nat.le_refl 0), hp 0 (Nat.le_refl 0)⟩
    cases hl with
    | done a h => cases h
    | failed e h => cases h
  | succ n ih =>
    exact level (ih (fun m hm => hr m (Nat.le_succ_of_le hm)) fun m hm => hp m (Nat.le_succ_of_le hm))
      (hr (n + 1) (Nat.le_refl _)) (hp (n + 1) (Nat.le_refl _))

end Evaluator.Sound

end ScriptCore
