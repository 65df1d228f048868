import ScriptCore.Proofs.Sound

namespace ScriptCore

variable {α : Type} {ev : Evaluator} {S : CallStack → CallStack → Prop} {c : Terms} {s t : Tier}

theorem Run.newBlock_isBlockIn (top : ScopeId) (name : Option String) (w : World) {F : Failure → World → Prop} :
    (Run.newBlock top name).run.Meets w (fun s w' => w'.IsBlockIn s top) F := by
  change World.IsBlockIn { w with scopes := w.scopes.push _ } w.scopes.size top
  constructor <;> simp [World.scope]

namespace Eval.Keeps

variable {w₀ : World} {k : CallStack} {σ : EvalState} {P : α → Prop}

theorem newBlock (h : ev.Sound c) (hk : c.Kept w₀ k σ) :
    Eval.newBlock.Meets σ
      (fun s σ' => c.Kept w₀ k σ' ∧ (c.Discreet → ∀ top, k.frames.head? = some top → σ'.world.IsBlockIn s top))
      fun e σ' => c.Kept w₀ k σ' ∧ c.Permits k t σ'.world e := by
  simp only [Eval.newBlock, Comp.meets_bind, Eval.meets_frames]
  split
  · next hf =>
    refine ⟨hk, .of_passes rfl (.inl (Terms.passes_internal (fun hc hd => hk.started hc ?_) _))⟩
    exact (hk.frames hd).symm.trans hf
  · next top rest hf =>
    have opened : (monadLift (Run.newBlock top none) : Eval ScopeId).Meets σ (fun s σ' => σ'.world.IsBlockIn s top)
        fun _ _ => True := Eval.meets_lift.mpr (Run.newBlock_isBlockIn top none σ.world)
    refine ((h.keeps_lift (Run.newBlock top none) σ k hk).and opened).mono (fun s σ' hs => ?_) fun _ _ he => he.1
    refine ⟨hs.1.1, fun hd top' at' => ?_⟩
    rw [← hk.frames hd, hf] at at'
    cases at'
    exact hs.2

theorem inBlock (h : ev.Sound c) {prepare : ScopeId → Eval Unit} {body : ScopeId → Eval α}
    (hp : ∀ r, (prepare r).Keeps c t fun _ => True) (hb : ∀ r, (body r).Keeps c t P) :
    (Eval.newBlock >>= fun r => prepare r >>= fun _ => Eval.inPlace r (body r)).Keeps c t P := by
  intro w₀ σ k hk
  rw [Comp.meets_bind]
  refine (newBlock h hk).imp fun r σ₁ h₁ => ?_
  -- What is a block in `σ₁` is one later on, so the scopes are followed from there.
  have prepared := hp r σ₁ k h₁.1.afresh
  rw [Comp.meets_bind]
  refine prepared.mono (fun _ σ₂ h₂ => ?_) fun _ _ he => ⟨h₁.1.trans he.1, he.2⟩
  exact inPlace (hb r) (h₁.1.trans h₂.1) fun hd top at' => (h₁.2 hd top at').later h₂.1.since.frames

end Eval.Keeps

namespace Eval.SoundOn

variable {P : α → Prop}

theorem internal {m : String} (loose : c.complete = false) : (monadLift (Run.internal m) : Eval α).SoundOn S c t P :=
  .passing rfl (Terms.passes_internal (fun hc => by rw [loose] at hc; cases hc) m)

theorem newBlock_alike (h : ev.Sound c) (hl : c.Lexical) :
    Eval.Alike c CallStack.SameTop Eq Eval.newBlock Eval.newBlock := by
  refine .frames fun fs fs' same => ?_
  cases fs with
  | nil =>
    cases List.head?_eq_none_iff.mp same.symm
    exact .fail rfl
  | cons top rest =>
    obtain ⟨rest', rfl⟩ := List.head?_eq_some_iff.mp same.symm
    exact ((h.lift (t := .proper) (Run.newBlock top none)).alike hl).mono fun _ _ ha => ha.1

theorem inBlock_after (h : ev.Sound c) (prepare : ScopeId → Eval Unit) {body : ScopeId → Eval α}
    (hp : ∀ r, (prepare r).Sound c t fun _ => True) (hb : ∀ r, (body r).Sound c t P) :
    (Eval.newBlock >>= fun r => prepare r >>= fun _ => Eval.inPlace r (body r)).Sound c t P where
  keeps := .inBlock h (fun r => (hp r).keeps) fun r => (hb r).keeps
  alike hl := .bind (newBlock_alike h hl) fun r _ same => same ▸
    (hp r).bind_alike hl fun _ _ => .inPlace ((hb r).alike hl)

theorem inBlock (h : ev.Sound c) {body : ScopeId → Eval α} (hb : ∀ r, (body r).Sound c t P) :
    (Eval.newBlock >>= fun r => Eval.inPlace r (body r)).Sound c t P :=
  inBlock_after h (fun _ => Pure.pure ()) (fun _ => .pure trivial) hb

/-- A name that may be used gives nobody a hold on the call stack, unless names may mention it, and
sees nothing of it if names are lexical. -/
theorem view {name : String} (hn : c.names name) {f : View → Eval α} (hf : ∀ view, (f view).Sound c t P)
    (same : View.asks name = false → ∀ view view', f view = f view') : (Eval.view name >>= f).Sound c t P where
  keeps := by
    refine .bind (P := fun _ => True) (.bind .frames fun k _ => ?_) fun view _ => (hf view).keeps
    split
    · next hm =>
      have share : Eval.share.Keeps c t fun _ => True := by
        intro w₀ σ k hk
        have indiscreet : ¬c.Discreet := fun hd => by simp [hd name hn] at hm
        unfold Comp.Meets Eval.share
        cases σ.running with
        | own k' =>
          exact ⟨⟨hk.fits.of_calm (World.calm_of_eq rfl rfl rfl rfl rfl), hk.since.trans (.of_eq rfl rfl rfl),
            fun hd => absurd hd indiscreet, hk.started⟩, trivial⟩
        | shared n => exact ⟨⟨hk.fits, hk.since, fun hd => absurd hd indiscreet, hk.started⟩, trivial⟩
      exact .bind share fun _ _ => .pure trivial
    · exact .pure trivial
  alike hl := by
    have unmentioned : View.mentions name = false := hl.discreet name hn
    have plain : Eval.view name >>= f = Eval.frames >>= fun fs => f { frames := fs } := by
      funext σ
      simp only [Eval.view, unmentioned]
      rfl
    rw [plain]
    exact .frames fun fs fs' _ => same (hl name hn) { frames := fs' } { frames := fs } ▸ (hf _).alike hl

end Eval.SoundOn

theorem Evaluator.meets_nameIn_super (ev : Evaluator) (view : View) (s : ScopeId) {owner : String} (w : World) :
    (ev.nameIn view s owner).run.Meets w (fun obj _ => owner = "super" → ∃ t, obj = .closure t) fun _ _ => True := by
  by_cases above : owner = "super"
  · subst above
    exact fun _ => ⟨_, rfl⟩
  · exact (Comp.meets_self _ w).impDone fun _ _ _ same => absurd same above

namespace Evaluator.Sound

variable {name : String} (h : ev.Sound c)
include h

open Eval

theorem runOthers (last : Value) (nodes : List Node) (hn : ∀ n ∈ nodes, c.Allows .statement n) :
    (ev.runOthers last nodes).Sound c .proper fun _ => True := by
  induction nodes generalizing last with
  | nil => exact .pure trivial
  | cons n rest ih =>
    have hrest := fun m hm => hn m (List.mem_cons_of_mem _ hm)
    unfold Evaluator.runOthers
    split
    · exact ih last hrest
    · refine .bind (h.lift _) fun _ _ => .bind (h.exec n (hn n List.mem_cons_self)) fun r _ => ?_
      split
      · exact .pure trivial
      · exact ih _ hrest

theorem runStatements {nodes : List Node} (hn : ∀ n ∈ nodes, c.Allows .statement n) :
    (ev.runStatements nodes).Sound c .proper fun _ => True :=
  .bind (.forEach fun n hm => h.perform (hn n (List.mem_filter.mp hm).1)) fun _ _ => h.runOthers .void nodes hn

theorem checkLock {block lock : Node} (hl : c.Allows .optional lock) :
    (ev.checkLock block lock).Sound c .proper fun _ => True := by
  unfold Evaluator.checkLock
  split
  · exact .pure trivial
  · next given =>
    refine .bind (h.eval (hl.given (Bool.eq_false_iff.mpr given))) fun v _ => ?_
    split
    · exact .stop
    · exact .pure trivial

theorem execHere {block : Node} (hb : c.Allows .branch block) :
    (ev.execHere block).Sound c .proper fun _ => True := by
  unfold Evaluator.execHere
  split
  · exact .bind (h.checkLock (hb.part (by simp [Node.parts]))) fun _ _ => h.runStatements (hb.statements rfl)
  · exact .pure trivial
  · exact h.lift _

theorem execBlock {block : Node} (hb : c.Allows .branch block) :
    (ev.execBlock block).Sound c .proper fun _ => True := by
  unfold Evaluator.execBlock
  split
  · exact .bind (h.checkLock (hb.part (by simp [Node.parts]))) fun _ _ =>
      .inBlock h fun _ => h.runStatements (hb.statements rfl)
  · exact .pure trivial
  · exact h.lift _

theorem runBlock {block : Node} (hb : c.Allows .branch block) (hc : c.orderly = false) :
    (ev.runBlock block).Sound c .proper fun _ => True :=
  .bind (h.execBlock hb) fun _ _ => .asValue fun ho => by rw [hc] at ho; cases ho

variable (r : ScopeId)

theorem bindParameter (method : String) (caller : Node) (p : MethodParam) (arg : Value) :
    (Evaluator.bindParameter r method caller p arg).SoundOn S c .proper fun _ => True := by
  unfold Evaluator.bindParameter
  split
  · split
    · exact .stop
    · exact .bind (h.lift _) fun strict _ => .located (h.lift _)
  · refine .bind (.catching_lift (h.lift (t := .fault) _) (fun w e y hy => ?_) fun w e he hn => ?_) fun v _ =>
      .located (h.lift _)
    · split at hy
      · cases hy; exact .stop
      · cases hy
    · cases e <;> first | exact Tier.allows_of_not_isLow rfl | exact he.elim | cases hn

theorem bindArguments (m : Method) (args : List Value) (caller : Node) :
    (Evaluator.bindArguments r m args caller).SoundOn S c .proper fun _ => True := by
  unfold Evaluator.bindArguments
  split
  · exact .stop
  · exact .forEach fun e _ => h.bindParameter r m.name caller e.1 e.2

theorem convertReturned (m : Method) (result : Ending) (value : Value) :
    (Evaluator.convertReturned m result value).SoundOn S c .proper fun _ => True := by
  unfold Evaluator.convertReturned
  split
  · exact .pure trivial
  · exact .pure trivial
  · exact .located (h.lift _)

omit h in
theorem returned_alike (r : Ending) (fs fs' : List ScopeId) :
    Eval.Alike c S Eq (monadLift (Evaluator.returned r fs)) (monadLift (Evaluator.returned r fs')) := by
  unfold Evaluator.returned
  split
  · exact .pure rfl
  · split
    · exact .pure rfl
    · exact .fail rfl

omit h in
theorem returned_meets {w₀ : World} {k : CallStack} {σ : EvalState} {r : ScopeId} {fs : List ScopeId} (hk : c.Kept w₀ k σ)
    (ran : c.Discreet → fs = r :: k.frames) (result : Ending) :
    (Evaluator.returned result fs).Meets σ (fun _ σ' => c.Kept w₀ k σ') fun e σ' =>
      c.Kept w₀ k σ' ∧ c.Permits ⟨r :: k.frames⟩ t σ'.world e := by
  unfold Evaluator.returned
  split
  · exact hk
  · split
    · exact hk
    · refine ⟨hk, .of_passes rfl ?_⟩
      rcases c.reports with discreet | all
      · exact .inr ⟨_, fs, rfl, rfl, ran discreet ▸ .refl⟩
      · exact .inl (all _)

theorem inFrame_meets {m : Method} (hm : c.Allows .branch m.body) (r : ScopeId) {w₀ : World}
    {k : CallStack} {σ : EvalState} (hk : c.Kept w₀ k σ) :
    (Eval.withFrame r do
      noteCall m r
      let r ← ev.execHere m.body
      let frames ← Eval.frames
      pure (r, frames)).Meets σ (fun p σ' => c.Kept w₀ k σ' ∧ (c.Discreet → p.2 = r :: k.frames)) fun e σ' =>
        c.Kept w₀ k σ' ∧ c.Permits ⟨r :: k.frames⟩ .proper σ'.world e := by
  refine Eval.Keeps.withFrame_meets hk fun σ₁ hk₁ => (h.keeps_lift _).bind_meets hk₁ fun _ σ₂ hk₂ _ => ?_
  exact (h.execHere hm).keeps.bind_meets hk₂ fun result σ₃ hk₃ _ => ⟨hk₃, hk₃.frames⟩

theorem openMethod (m : Method) (args : List Value) (caller : Node) :
    (Evaluator.openMethod m args caller).SoundOn S c .proper fun _ => True :=
  .bind (h.lift _) fun r _ => .bind (h.bindArguments r m args caller) fun _ _ => .pure trivial

theorem runBody {m : Method} (hm : c.Allows .branch m.body) (args : List Value) (caller : Node) :
    (ev.runBody m args caller).SoundOn S c .proper fun _ => True := by
  refine .bind (h.openMethod m args caller) fun r _ => ?_
  constructor
  · intro w₀ σ k hk
    rw [Comp.meets_bind]
    refine (h.inFrame_meets hm r hk).mono (fun p σ₂ h₂ => ?_) fun _ _ he => ⟨he.1, he.2.call⟩
    · rw [Comp.meets_bind]
      refine (returned_meets h₂.1 h₂.2 p.1).mono (fun value σ₃ hk₃ => ?_) fun _ _ he => ⟨he.1, he.2.call⟩
      exact (h.convertReturned (S := S) m p.1 value) σ₃ k hk₃
  · intro hl
    refine .bind (.withFrame (R := fun p q => p.1 = q.1) ?_) fun p q same => ?_
    · exact (h.lift (t := .proper) _).bind_alike hl fun _ _ => (h.execHere hm).bind_alike hl fun _ _ =>
        .frames fun _ _ _ => .pure rfl
    · obtain ⟨r, fs⟩ := p
      obtain ⟨r', fs'⟩ := q
      cases same
      exact .bind (returned_alike r fs fs') fun value _ same => same ▸ (h.convertReturned m r value).alike hl

theorem invoke {m : Method} (hm : c.Allows .branch m.body) (args : List Value) (caller : Node) :
    (ev.invoke m args caller).SoundOn S c .proper fun _ => True := by
  unfold Evaluator.invoke
  split
  · refine .catching_lift (h.lift (t := .call) _) (fun w e y hy => ?_) fun w e he hn => ?_
    · split at hy
      · cases hy; exact .stopWith
      · cases hy
    · cases e <;> first | exact Tier.allows_of_not_isLow rfl | exact he.elim | cases hn
  · exact h.runBody hm args caller

theorem cloneScope : (Evaluator.cloneScope r).Sound c t fun _ => True := by
  refine .bind (h.lift _) fun x _ => .bind (h.lift _) fun child _ => .bind (.located (P := fun _ => True) ?_) fun _ _ =>
    .bind .read fun methods hms => .bind (.forEach fun m hm => ?_) fun _ _ => .pure trivial
  · exact .forEach fun name _ => .bind (h.lift _) fun v _ => h.lift _
  · obtain ⟨w, hw, rfl⟩ := hms
    exact .setMethod h (hw.code.method hm)

theorem objectProtocol {r : ScopeId} {args : List Value} {run : Eval Value}
    (hr : Evaluator.objectProtocol? r name args = some run) : run.Sound c t fun _ => True := by
  unfold Evaluator.objectProtocol? at hr
  split at hr
  · cases hr; exact .bind (h.lift _) fun w _ => h.lift _
  · cases hr; exact .pure trivial
  · cases hr; exact .pure trivial
  · cases hr; exact h.cloneScope r
  · cases hr

omit h in
theorem catchAll_findsKept : Run.FindsKept (Evaluator.catchAll r) := by
  intro w
  rw [Evaluator.catchAll, Action.meets_converting]
  refine ((Run.findMethod_findsOffered r).kept w).mono (fun _ _ h => h) fun e w' _ => ?_
  split
  · next y hy =>
    split at hy
    · cases hy; intro m hm; cases hm
    · cases hy
  · trivial

theorem invokeIn (name : String) (arguments : List Value) (caller : Node)
    (declaredOnly : Bool) (origin : Option ScopeId) :
    (ev.invokeIn r name arguments caller declaredOnly origin).Sound c .proper fun _ => True := by
  have found : ∀ types, (Eval.located (some ("Method " ++ name)) caller
      (if declaredOnly then Run.declaredMethod r name types else Run.findMethod r name types)).Sound c .proper
      fun r => ∀ m, r = some m → c.Allows .branch m.body := by
    intro types
    split
    · exact .located (h.lift_found (Run.declaredMethod_findsOffered r).kept)
    · exact .located (h.lift_found (Run.findMethod_findsOffered r).kept)
  refine .bind (h.lift _) fun types _ => .bind (found types) fun found hfound => ?_
  split
  · next m =>
    refine .bind (h.lift _) fun hidden _ => ?_
    split
    · exact .bind (h.lift _) fun _ _ => .stop
    · exact h.invoke (hfound m rfl) _ caller
  · split
    · next run hr => exact h.objectProtocol hr
    · refine .bind (h.lift_found (catchAll_findsKept r)) fun handler hhandler => ?_
      split
      · exact .bind (h.lift _) fun packed _ => h.invoke (hhandler _ rfl) _ caller
      · exact .bind (h.lift _) fun _ _ => .bind (h.lift _) fun _ _ => .stop

theorem callHost (b : Bridge) (target : Value) (name : String) (args : List Value) (caller : Node) :
    (ev.callHost b target name args caller).Sound c .proper fun _ => True := by
  refine .catching_lift (h.lift (t := .bridge) _) (fun w e y hy => ?_) fun w e he hn => ?_
  · split at hy
    · cases hy; exact .stopWith
    · cases hy; exact .stop
    · cases hy
  · cases e <;> first | exact Tier.allows_of_not_isLow rfl | exact he.elim | cases hn

theorem invokeStatic (target : Value) (name : String) (args : List Value)
    (caller : Node) : (ev.invokeStatic r target name args caller).Sound c .fault fun _ => True := by
  unfold Evaluator.invokeStatic
  refine .bind (h.lift _) fun w _ => ?_
  extract_lets called
  have after (found : Option Method) (hfound : ∀ m, found = some m → c.Allows .branch m.body) :
      (called found).Sound c .fault fun _ => True := by
    dsimp only [called]
    split
    · exact .weaken (h.invoke (hfound _ rfl) args caller)
    · exact .weaken (h.callHost _ target name args caller)
  split
  · exact .pure_bind (after none fun _ hm => by cases hm)
  · exact .bind (h.lift_found (Run.declaredMethod_findsOffered _).kept) after

theorem invokeOnInstance (r inst : ScopeId) (obj : Value) (name : String) (args : List Value)
    (caller : Node) : (ev.invokeOnInstance r inst obj name args caller).Sound c .fault fun _ => True := by
  unfold Evaluator.invokeOnInstance
  refine .bind (h.lift _) fun w _ => .bind (h.lift _) fun found _ => ?_
  have after : ∀ onHost : Bool, (if onHost then ev.callHost (w.bridge r) obj name args caller
      else ev.invokeIn inst name args caller false (some r)).Sound c .fault fun _ => True := by
    intro onHost
    split
    · exact .weaken (h.callHost _ obj name args caller)
    · exact .weaken (h.invokeIn inst name args caller false _)
  dsimp only
  split
  · exact .pure_bind (after false)
  · exact .bind (h.lift _) fun m _ => .pure_bind (after m.isSome)

theorem invokeOn (obj : Value) (name : String) (args : List Value) (caller : Node) :
    (ev.invokeOn r obj name args caller).Sound c .fault fun _ => True := by
  unfold Evaluator.invokeOn
  split
  · exact h.lift _
  · exact h.lift _
  · exact h.lift _
  · exact .weaken (h.invokeIn _ name args caller false _)
  · refine .bind (h.lift _) fun w _ => ?_
    split
    · exact h.invokeStatic r _ name args caller
    · exact h.invokeOnInstance r _ obj name args caller
    · exact .weaken (h.callHost _ obj name args caller)

theorem invokeLocal (name : String) (args : List Value) (caller : Node) :
    (ev.invokeLocal r name args caller).Sound c .proper fun _ => True := by
  refine .bind (h.lift _) fun types _ =>
    .bind (.located (h.lift_found (Run.findMethod_findsOffered r).kept)) fun found hfound => ?_
  split
  · exact .bind (h.lift _) fun _ _ => .stop
  · next m =>
    refine .bind (h.lift _) fun w _ => ?_
    split
    · exact .stop
    · exact h.invoke (hfound m rfl) args caller

theorem callInherited (self : Value) (name : String) (content : Attribute) (args : List Value)
    (caller : Node) : (ev.callInherited self name content args caller).Sound c .fault fun _ => True := by
  unfold Evaluator.callInherited
  split
  · exact h.lift _
  · refine .catching_lift (h.lift (t := .call) _) (fun w e y hy => ?_) fun w e he hn => ?_
    · split at hy
      · cases hy; exact .stopWith
      · cases hy
    · cases e <;> first | exact Tier.allows_of_not_isLow rfl | exact he.elim | cases hn

theorem invokeInChain (k : ClassRef) (self : Value) (name : String) (args : List Value) (caller : Node)
    (chain : List ClassRef) : (ev.invokeInChain k self name args caller chain).Sound c .fault fun _ => True := by
  induction chain with
  | nil => exact .bind (h.lift _) fun _ _ => h.lift _
  | cons base rest ih =>
    unfold Evaluator.invokeInChain
    refine .bind .get fun w hw => ?_
    split
    · dsimp only
      split
      · exact h.lift _
      · next best _ =>
        split
        · next m hm =>
          refine .weaken (h.invoke ?_ args caller)
          obtain ⟨i, -, hi⟩ := Option.bind_eq_some_iff.mp hm
          exact hw.code.keptMethod (List.mem_filter.mp (List.mem_of_getElem? hi)).1
        · exact ih
    · split
      · exact h.callInherited self name _ args caller
      · exact ih

theorem invokeSuper (self : Value) (name : String) (args : List Value) (caller : Node) :
    (ev.invokeSuper r self name args caller).Sound c .fault fun _ => True :=
  .bind (h.lift _) fun _ _ => h.invokeInChain _ self name args caller _

omit h in
theorem remember (other : Path.owner? name ≠ some "super") (s : ScopeId) (resolver : Resolver)
    (f : Resolver → Resolver) : (monadLift (Run.remember s name resolver f) : Eval Unit).Sound c .fault fun _ => True := by
  have calm (w : World) : w.Calm (w.modifyMemory s (Run.noted name resolver f)) :=
    World.calm_modifyMemory s (Run.sparesSuper_noted fun owner => absurd owner other)
  exact .lift fun w hw => ⟨⟨hw.of_calm (calm w), .of_calm (calm w)⟩, trivial⟩

theorem invokeAfresh (hn : c.names name) (resolver : Resolver)
    (args : List Value) (caller : Node) : (ev.invokeAfresh r name resolver args caller).Sound c .fault fun _ => True := by
  unfold Evaluator.invokeAfresh
  dsimp only
  split
  · exact .weaken (h.invokeLocal r name args caller)
  · refine .bind (h.lift _) fun above _ => ?_
    split
    · exact h.invokeSuper r _ _ args caller
    · refine .bind (h.lift _) fun _ _ => .view hn (fun view => ?_) fun unasked view view' => ?_
      · refine .bind (h.lift_meets _ (meets_nameIn_super ev view r)) fun obj found => ?_
        split
        · exact h.lift _
        · refine .bind .read fun id read => ?_
          split
          · have other : Path.owner? name ≠ some "super" := by
              intro owner
              obtain ⟨w, -, closure⟩ := found
              obtain ⟨t, rfl⟩ := closure (by rw [owner]; rfl)
              -- A closure is no class.
              obtain ⟨w, -, none⟩ := read
              cases none
            exact .bind (remember other r resolver _) fun _ _ => h.invokeOn r obj _ args caller
          · exact .pure_bind (h.invokeOn r obj _ args caller)
      · rw [Evaluator.nameIn, Evaluator.nameIn, Run.resolveName_view (Run.unasking_owner unasked) view view']

theorem invokeName (hn : c.names name) (args : List Value)
    (caller : Node) : (ev.invokeName r name args caller).Sound c .fault fun _ => True := by
  refine .bind (h.lift _) fun resolver _ => ?_
  split
  · exact h.invokeStatic r _ _ args caller
  · exact h.invokeAfresh r hn resolver args caller

theorem resolveType (n : Node) : (Evaluator.resolveType n).Sound c .proper fun _ => True := by
  unfold Evaluator.resolveType
  split
  · exact .pure trivial
  · next o target dims =>
    split
    · exact .pure trivial
    · have after : ∀ base : Ty, (if dims = 0 then pure base
          else if base.isVoid then Eval.stop (.typeRef o target dims) .voidArray
          else pure (base.nested dims.toNat) : Eval Ty).Sound c .proper fun _ => True := by
        intro base
        split
        · exact .pure trivial
        · split
          · exact .stop
          · exact .pure trivial
      dsimp only
      split
      · exact .pure_bind (after _)
      · exact .pure_bind (after _)
      · split
        · exact .pure_bind (after _)
        · exact .bind .top fun r _ => .bind (.located (h.lift _)) fun found _ => .pure_bind (after _)
  · exact h.lift _

theorem modifiersOf (kind : DeclKind) (names : List String) (n : Node) :
    (Evaluator.modifiersOf kind names n).Sound c t fun _ => True :=
  .located (h.lift _)

theorem buildParam (method : String) (p : Node) :
    (Evaluator.buildParam method p).Sound c .proper fun _ => True := by
  refine .bind (h.lift _) fun strict _ => .bind (h.lift _) fun type _ => .bind (h.lift _) fun name _ => ?_
  split
  · exact .stop
  · exact .bind (h.resolveType type) fun _ _ => .bind (h.lift _) fun names _ =>
      .bind (h.modifiersOf _ names p) fun _ _ => .pure trivial

theorem buildMethod {decl : Node} (hd : c.Allows .statement decl) (home : ScopeId) :
    (Evaluator.buildMethod decl home).Sound c .proper fun m => c.Allows .branch m.body := by
  unfold Evaluator.buildMethod
  split
  · refine .bind (h.lift _) fun strict _ => ?_
    split
    · exact .stop
    · refine .bind (h.resolveType _) fun _ _ => .bind (.collect fun p _ => h.buildParam _ p) fun _ _ =>
        .bind (h.modifiersOf _ _ _) fun _ _ => .pure (hd.part (by simp [Node.parts]))
  · exact .pure .absent

theorem evalArgs {args : List Node} (ha : ∀ a ∈ args, c.Allows .expression a) :
    (ev.evalArgs args).Sound c .proper fun _ => True := by
  refine (Eval.SoundOn.collect (P := fun _ => True) fun a hm => .bind (h.eval (ha a hm)) fun v _ =>
    ?_).imp fun _ _ => trivial
  split
  · exact .bind (h.lift _) fun _ _ => .stop
  · exact .pure trivial

end Evaluator.Sound

end ScriptCore
