import ScriptCore.Proofs.CallRules

namespace ScriptCore

variable {ev : Evaluator} {c : Terms} {t : Tier}

theorem World.holdsMember_of_inheritedScript {w : World} {k : ClassRef} {n : Node}
    (hn : n ∈ ((w.inheritedScript? k).getD default).body.nodes) : w.HoldsMember n := by
  cases hs : w.inheritedScript? k with
  | none => simp [hs, ClassBody.nodes, default, instInhabitedScriptPart.default, instInhabitedClassBody.default] at hn
  | some part =>
    obtain ⟨b, -, hb⟩ := List.exists_of_findSome?_eq_some hs
    exact holdsMember_of_script hb (by simpa [hs] using hn)

theorem ClassSpec.meets_make (spec : ClassSpec) (w : World) :
    spec.make.run.Meets w (fun r w' => ∀ k, r = .ok k → k = .made w.classes.size ∧
      ∃ x, spec.build w = .ok x ∧ w' =
        { w with classes := w.classes.push { x with script := none } }) fun _ _ => False := by
  unfold ClassSpec.make
  simp only [Action.meets_bind, Run.meets_read]
  cases built : spec.build w with
  | error m => exact fun k hk => by cases hk
  | ok x => exact fun k hk => by cases hk; exact ⟨rfl, x, rfl, rfl⟩

/-- What a constructor has taken from the code of its class may run. -/
structure Terms.Ready (c : Terms) (k : Evaluator.ConstructorCall) : Prop where
  body : ∀ n ∈ k.body.nodes, c.Allows .statement n
  chosen : ∀ e, k.chosen = some e → c.Allows .branch e.2.body
  statements : ∀ n ∈ k.statements, c.Allows .statement n

theorem Terms.Ready.remaining {k : Evaluator.ConstructorCall} (hk : c.Ready k) :
    ∀ n ∈ Evaluator.remaining k.statements, c.Allows .statement n := by
  unfold Evaluator.remaining
  split
  · exact fun n hn => hk.statements n (List.mem_of_mem_tail hn)
  · exact hk.statements

namespace Evaluator.Sound

variable (h : ev.Sound c)
include h

theorem lift_part {α : Type} {n : Node} {name : String} {p : Option α} :
    (monadLift (Run.part n name p) : Eval α).Sound c t fun a => p = some a := by
  refine (h.lift_meets (Run.part n name p) (P := fun _ a => p = some a) fun w => ?_).imp fun a ⟨_, _, ha⟩ => ha
  cases p with
  | none => trivial
  | some a => exact rfl

theorem resolveBase (n : Node) : (Evaluator.resolveBase n).Sound c .proper fun _ => True := by
  refine .bind (h.resolveType n) fun ty _ => ?_
  split
  · exact .pure trivial
  · exact .bind (h.lift _) fun _ _ => .stop

theorem resolveSuperclass (n : Node) :
    (Evaluator.resolveSuperclass n).Sound c .proper fun _ => True := by
  unfold Evaluator.resolveSuperclass
  split
  · exact .pure trivial
  · exact .bind (h.resolveBase n) fun _ _ => .pure trivial

theorem evalNested {nested : List Node} (hn : ∀ n ∈ nested, c.Allows .expression n) :
    (ev.evalNested nested).Sound c .proper fun _ => True :=
  .bind (.collect (P := fun _ => True) fun n hm => .bind (h.eval (hn n hm)) fun _ _ => .pure trivial) fun _ _ =>
    .pure trivial

theorem evalStatics (k : ClassRef) (r : ScopeId) {statics : List Node}
    (hn : ∀ n ∈ statics, c.Allows .statement n) : (ev.evalStatics k r statics).Sound c .proper fun _ => True := by
  refine .forEach fun n hm => ?_
  split
  · exact .bind (h.buildMethod (hn _ hm) r) fun m hb => .setMethod h hb
  · exact h.perform (hn n hm)

/-- A class that is made and at once becomes one of a script. Until then nobody has seen it. -/
theorem declared {α : Type} {P : α → Prop} (spec : ClassSpec) {part : ScriptPart}
    (hp : ∀ n ∈ part.body.nodes, c.Allows .statement n) {f : Except String ClassRef → Eval α} {rest : ClassRef → Eval α}
    (refused : ∀ m, (f (.error m)).Sound c .proper P)
    (made : ∀ k, f (.ok k) = (monadLift (Run.setScript k part) : Eval Unit) >>= fun _ => rest k)
    (hk : ∀ k, (rest k).Sound c .proper P) : (monadLift spec.make >>= f : Eval α).Sound c .proper P := by
  have script (n : Nat) {w : World} (hw : c.Fits w) :
      c.Fits (w.modifyMade n fun m => { m with script := some part }) :=
    hw.modifyMade n fun x m hm => .inr (hp m (by simpa [MadeClass.code] using hm))
  constructor
  · intro w₀ σ k kept
    rw [Comp.meets_bind]
    refine Eval.meets_lift.mpr (((spec.make.meets_calm σ.world).and (spec.meets_make σ.world)).mono ?_ ?_)
    · rintro r w ⟨calm, new⟩
      have later : c.Kept w₀ k { σ with world := w } := kept.world (kept.fits.of_calm calm) (.of_calm calm)
      cases r with
      | error m => exact refused m _ k later
      | ok ref =>
        obtain ⟨rfl, -⟩ := new ref rfl
        rw [made, Comp.meets_bind]
        have since : c.Since w₀ (w.modifyMade σ.world.classes.size fun m => { m with script := some part }) :=
          ⟨later.since.frames, fun steady => { later.since.upheld steady with
            classes := (later.since.classes steady).modifyMade (kept.since.classes steady).size _ }⟩
        exact hk _ _ k ⟨script _ later.fits, since, kept.stack, kept.started⟩
    · rintro e w ⟨calm, never⟩
      exact never.elim
  · intro hl
    refine (h.lift (t := .proper) spec.make).bind_alike hl fun r _ => ?_
    cases r with
    | error m => exact (refused m).alike hl
    | ok ref =>
      rw [made]
      refine .bind (.lift (P := fun _ => True) fun w hw => ?_) fun _ _ _ => (hk ref).alike hl
      cases ref with
      | made n => exact ⟨script n hw, trivial⟩
      | core k => exact ⟨hw, trivial⟩
      | library k => exact ⟨hw, trivial⟩

theorem generate {plan : ClassPlan} (hp : c.Allows .branch plan.body) :
    (ev.generate plan).Sound c .proper fun _ => True := by
  unfold Evaluator.generate
  refine .bind (h.lift _) fun w _ => .bind .top fun enclosing _ => ?_
  dsimp only
  split
  · exact .stop
  · refine .bind h.lift_part fun statements hs => .bind (h.lift _) fun r _ => .withFrame ?_
    have hbody : ∀ n ∈ (ClassBody.ofStatements plan.name plan.isInterface statements).nodes, c.Allows .statement n :=
      fun n hn => hp.statements hs n (ClassBody.nodes_ofStatements _ _ _ hn)
    refine .bind (h.evalNested fun n hn => ?_) fun nested _ => .bind (h.lift _) fun members _ =>
      h.declared _ hbody (fun _ => .fail trivial) (fun _ => rfl) fun k => .bind (h.lift _) fun _ _ =>
        .bind (h.evalStatics k r fun n hn => hbody n ?_) fun _ _ => .pure trivial
    · have declared := hbody n (by simp [ClassBody.nodes, hn])
      exact declared.ofClassDecl (ClassBody.isClassDecl_of_nested hn)
    · simp [ClassBody.nodes, hn]

theorem generateClass {decl : Node} (hd : c.Allows .statement decl) :
    (ev.generateClass decl).Sound c .proper fun _ => True := by
  unfold Evaluator.generateClass
  split
  · refine .bind (h.resolveSuperclass _) fun above _ => .bind (.collect fun n _ => h.resolveBase n) fun others _ =>
      .bind (h.modifiersOf _ _ _) fun modifiers _ => .bind (h.generate ?_) fun _ _ => .pure trivial
    split <;> exact hd.part (by simp [Node.parts])
  · exact .pure trivial

theorem generateAnonymous (base : ClassRef) {body : Node} (hb : c.Allows .branch body) (n : Node) :
    (ev.generateAnonymous base body n).Sound c .proper fun _ => True := by
  refine .bind (h.lift _) fun w _ => .bind (h.lift _) fun _ _ => h.generate ?_
  split <;> exact hb

theorem buildConstructors (k : ClassRef) (inst : ScopeId) {body : ClassBody}
    (hb : ∀ n ∈ body.constructors, c.Allows .statement n) :
    (Evaluator.buildConstructors k inst body).Sound c .proper fun ms => ∀ m ∈ ms, c.Allows .branch m.body :=
  .collect fun n hn => .bind (h.buildMethod (hb n hn) inst) fun _ hm => .pure hm

theorem chooseConstructor (w : World) (k : ClassRef) (anonymous : Bool) {ms : List Method}
    (hm : ∀ m ∈ ms, c.Allows .branch m.body) (args : List Value) (caller : Node) (calling : Option Nat) :
    (Evaluator.chooseConstructor w k anonymous ms args caller calling).Sound c .proper
      fun chosen => ∀ e, chosen = some e → c.Allows .branch e.2.body := by
  unfold Evaluator.chooseConstructor
  split
  · split
    · exact .stop
    · exact .pure fun _ he => by cases he
  · refine .bind (.located (h.lift _)) fun best _ => ?_
    split
    · exact .stop
    · next i m hb =>
      split
      · exact .stop
      · refine .pure fun e he => ?_
        cases he
        obtain ⟨j, -, hj⟩ := Option.bind_eq_some_iff.mp hb
        obtain ⟨m', hm', he⟩ := Option.map_eq_some_iff.mp hj
        cases he
        exact hm _ (List.mem_of_getElem? hm')

theorem constructHostPart (v : Value) (k : ClassRef) (args : List Value) (caller : Node) :
    (ev.constructHostPart v k args caller).Sound c .proper fun _ => True := by
  unfold Evaluator.constructHostPart
  refine .bind (h.lift _) fun w _ => ?_
  dsimp only
  split
  · exact .pure trivial
  · refine .catching_lift (h.lift (t := .proper) _) (fun w e y hy => ?_) fun w e he hn => by cases hn
    cases hy
    refine .bind (h.lift _) fun exception _ => ?_
    split
    · exact .bind (h.lift _) fun _ _ => .stop
    · exact .stopWith

theorem constructorStatements {chosen : Option (Nat × Method)}
    (hc : ∀ e, chosen = some e → c.Allows .branch e.2.body) :
    (monadLift (Evaluator.constructorStatements chosen) : Eval (List Node)).Sound c t
      fun ss => ∀ n ∈ ss, c.Allows .statement n := by
  unfold Evaluator.constructorStatements
  split
  · exact h.lift_part.imp fun ss hs => (hc _ rfl).statements hs
  · exact .pure nofun

theorem bindChosen (frame : ScopeId) (chosen : Option (Nat × Method)) (args : List Value)
    (caller : Node) : (Evaluator.bindChosen frame chosen args caller).Sound c .proper fun _ => True := by
  unfold Evaluator.bindChosen
  split
  · exact h.bindArguments frame _ args caller
  · exact .pure trivial

theorem passedOn {ss : List Node} (hs : ∀ n ∈ ss, c.Allows .statement n) (implicit : List Value) :
    (ev.passedOn (explicitCall? ss) implicit).Sound c .proper fun _ => True := by
  unfold Evaluator.passedOn
  split
  · next nodes he =>
    refine h.evalArgs ?_
    unfold explicitCall? at he
    split at he
    · next args rest =>
      split at he
      · cases he
        exact fun a ha => (hs _ List.mem_cons_self).part (by simp [Node.parts, ha])
      · cases he
    · cases he
  · exact .pure trivial

theorem evalFields (inst : ScopeId) {fields : List Node}
    (hf : ∀ n ∈ fields, c.Allows .statement n) : (ev.evalFields inst fields).Sound c .proper fun _ => True :=
  .withFrame (.forEach fun n hn => h.perform (hf n hn))

theorem prepareStatements (name : String) {chosen : Option (Nat × Method)}
    (hc : ∀ e, chosen = some e → c.Allows .branch e.2.body) (args : List Value) (remaining : List Node) :
    (ev.prepareStatements name chosen args remaining).Sound c .proper fun _ => True := by
  unfold Evaluator.prepareStatements
  split
  · next m =>
    split
    · exact .pure trivial
    · refine .bind (h.lift _) fun _ _ => ?_
      split
      · next hb =>
        have hm := hc _ rfl
        rw [hb] at hm
        exact h.checkLock (hm.part (by simp [Node.parts]))
      · exact .pure trivial
  · exact .pure trivial

theorem openConstructor {w : World} (hw : c.Fits w) (k : ClassRef) (inst : ScopeId) (args : List Value) (caller : Node)
    (calling : Option Nat) : (Evaluator.openConstructor w k inst args caller calling).Sound c .proper c.Ready := by
  have hpart n (hn : n ∈ ((w.inheritedScript? k).getD default).body.nodes) : c.Allows .statement n :=
    hw.members n (World.holdsMember_of_inheritedScript hn)
  exact .bind (h.buildConstructors k inst fun n hn => hpart n (by simp [ClassBody.nodes, hn])) fun ms hms =>
    .bind (h.chooseConstructor w k _ hms args caller calling) fun chosen hchosen =>
    .bind (h.constructorStatements hchosen) fun statements hs => .bind (h.lift _) fun frame _ => .pure ⟨hpart, hchosen, hs⟩

theorem beginConstructor {level : ClassRef → List Value → Node → Option Nat → Eval Unit}
    (hl : ∀ k args caller calling, (level k args caller calling).Sound c .proper fun _ => True) (w : World) (v : Value)
    (k : ClassRef) (inst : ScopeId) (args : List Value) (caller : Node) {call : ConstructorCall} (hc : c.Ready call) :
    (ev.beginConstructor level w v k inst args caller call).Sound c .proper fun _ => True := by
  refine .bind (h.bindChosen call.frame call.chosen args caller) fun _ _ =>
    .bind (h.passedOn hc.statements _) fun passed _ =>
    .bind (P := fun _ => True) ?_ fun _ _ => h.prepareStatements _ hc.chosen args _
  split
  · exact hl k passed _ _
  · refine .bind (P := fun _ => True) ?_ fun _ _ =>
      h.evalFields inst fun n hn => hc.body n (by simp [ClassBody.nodes, hn])
    split
    · exact hl _ passed _ none
    · exact h.constructHostPart v k passed _

theorem constructLevel (fuel : Nat) (v : Value) (k : ClassRef) (inst : ScopeId) (args : List Value)
    (caller : Node) (calling : Option Nat) :
    (ev.constructLevel fuel v k inst args caller calling).Sound c .proper fun _ => True := by
  induction fuel generalizing k args caller calling with
  | zero => exact .exhausted
  | succ fuel ih =>
    exact .bind .get fun w hw => .bind (h.openConstructor hw k inst args caller calling) fun call hc =>
      .withFrame (.bind (h.beginConstructor ih w v k inst args caller hc) fun _ _ =>
        .bind (h.runStatements hc.remaining) fun _ _ => .pure trivial)

theorem declareMethods (i : ObjectId) (inst : ScopeId) (k : ClassRef) {body : ClassBody}
    (hb : ∀ n ∈ body.methods, c.Allows .statement n) :
    (Evaluator.declareMethods i inst k body).Sound c .proper fun _ => True := by
  refine .bind (.collect (P := fun m => c.Allows .branch m.body) fun n hn => ?_) fun ms hms => .modify fun w hw => ?_
  · exact .bind (h.buildMethod (hb n hn) inst) fun m hm => .bind (.setMethod h hm) fun _ _ => .pure hm
  · refine ⟨hw.modifyObj i fun o n hn => ?_, .modifyObj w i fun o => List.prefix_append _ _⟩
    obtain ⟨m, hm, rfl⟩ := List.mem_map.mp hn
    obtain ⟨e, he, hm⟩ := List.mem_flatMap.mp hm
    rcases List.mem_append.mp he with he | he
    · exact .inl (List.mem_map_of_mem (List.mem_flatMap.mpr ⟨e, he, hm⟩))
    · cases List.mem_singleton.mp he
      exact .inr (hms m hm)

theorem setUpScripted (v : Value) (k : ClassRef) (args : List Value) (caller : Node) :
    (ev.setUpScripted v k args caller).Sound c .proper fun _ => True := by
  unfold Evaluator.setUpScripted
  refine .bind .get fun w hw => .bind (h.lift _) fun inst _ => .bind (h.lift _) fun _ _ => ?_
  split
  · refine .bind (h.lift _) fun _ _ => .withFrame (.bind (.forEach fun e he => ?_) fun _ _ =>
      h.constructLevel _ _ k inst args caller none)
    obtain ⟨k', -, hk⟩ := List.mem_filterMap.mp he
    obtain ⟨part, hpart, rfl⟩ := Option.map_eq_some_iff.mp hk
    exact h.declareMethods _ inst k' fun n hn => hw.members n (World.holdsMember_of_script hpart
      (by simp [ClassBody.nodes, hn]))
  · exact .pure trivial

theorem constructScripted (k : ClassRef) (args : List Value) (n : Node) :
    (ev.constructScripted k args n).Sound c .proper fun _ => True := by
  unfold Evaluator.constructScripted
  refine .bind (h.lift _) fun w _ => ?_
  dsimp only
  split
  · exact .stop
  · refine .bind (.catching_lift (h.lift (t := .proper) _) (fun w e y hy => ?_) fun w e he hn => by cases hn) fun v _ =>
      .bind (h.setUpScripted v k args n) fun _ _ => .pure trivial
    cases hy
    exact .bind (h.lift _) fun _ _ => .stopWith

end Evaluator.Sound

end ScriptCore
