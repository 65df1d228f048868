import ScriptCore.Proofs.InheritedBodies
import ScriptCore.Proofs.SettledNames

namespace ScriptCore

namespace World

def overloads (w : World) (s : ScopeId) (name : String) : List Method := ((w.scope s).methods.get? name).getD []

variable {w : World} {s : ScopeId}

theorem enclosing_of_not_isBlock (h : (w.scope s).isBlock = false) : w.enclosing s = s := by
  obtain ⟨outer, head⟩ := w.head_ancestry s
  have split : w.ancestry s = [] ++ s :: outer := head
  exact enclosing_of_split split (by simp) h

def withMethod (w : World) (s : ScopeId) (m : Method) : World :=
  w.modifyScope s fun x =>
    { x with methods := x.methods.put m.name (Run.addOverload ((x.methods.get? m.name).getD []) m) }

theorem anchored_withMethod (w : World) (s : ScopeId) (m : Method) : w.Anchored (w.withMethod s m) :=
  Anchored.modifyScope w s fun _ => rfl

end World

namespace Run

variable {w w' : World} {s : ScopeId}

theorem mem_addOverload_self (ms : List Method) (m : Method) : m ∈ addOverload ms m := by
  induction ms with
  | nil => exact List.mem_singleton_self m
  | cons x rest ih =>
    unfold addOverload
    split
    · exact List.mem_cons_self
    · exact List.mem_cons_of_mem x ih

theorem exists_mem_addOverload {ms : List Method} {x : Method} (m : Method) (h : x ∈ ms) :
    ∃ y ∈ addOverload ms m, y.paramTypes = x.paramTypes := by
  induction ms with
  | nil => cases h
  | cons z rest ih =>
    unfold addOverload
    split
    · next same =>
      rcases List.mem_cons.mp h with rfl | later
      · exact ⟨m, List.mem_cons_self, same.symm⟩
      · exact ⟨x, List.mem_cons_of_mem m later, rfl⟩
    · rcases List.mem_cons.mp h with rfl | later
      · exact ⟨x, List.mem_cons_self, rfl⟩
      · obtain ⟨y, hy, types⟩ := ih later
        exact ⟨y, List.mem_cons_of_mem z hy, types⟩

theorem run_setMethod (s : ScopeId) (m : Method) (w : World) :
    setMethod s m w = .done () ((w.withMethod (w.enclosing s) m).forgetting (w.enclosing s)) := rfl

theorem overloads_setMethod {m : Method} (inside : s < w.scopes.size)
    (plain : (w.scope s).isBlock = false) (h : setMethod s m w = .done () w') (name : String) :
    w'.overloads s name = if name = m.name then addOverload (w.overloads s name) m else w.overloads s name := by
  rw [run_setMethod, World.enclosing_of_not_isBlock plain] at h
  cases h
  unfold World.overloads
  rw [World.scope_forgetting, World.withMethod, World.scope_modifyScope, if_pos ⟨rfl, inside⟩]
  split
  · next here => rw [here, Table.get?_put_self]; rfl
  · next other => rw [Table.get?_put_ne _ _ (Ne.symm other)]

theorem scopes_resolveClass (s : ScopeId) (name : String) (w : World) :
    (resolveClass s name).run.Meets w (fun _ v => v.scopes = w.scopes) fun _ _ => True := by
  obtain ⟨r, m, n, found, -⟩ := resolverFor_eq w s name
  unfold resolveClass Comp.Meets
  rw [Action.run_liftM_bind_of_done found]
  change Comp.Meets _ (w.remembering m n) _ _
  split
  · rfl
  · split
    · rfl
    · simp only [Action.meets_bind]
      refine ((Agrees.findClass s name).keeps (w.remembering m n)).impDone fun hit v h => ?_
      cases hit with
      | none => trivial
      | some c => exact h

theorem sameMethods_of_reaches (h : Reaches .retype w w') : w.SameMethods w' := by
  refine h.preserves (p := fun v => w.SameMethods v) (fun calm hv => ?_) (fun inert hv => ?_) (.refl w)
  · exact hv.trans calm.sameMethods
  · exact hv.trans (World.Inert.methods inert)

end Run

namespace Eval

variable {α β : Type}

def KeepsMembers (x : Eval α) : Prop :=
  ∀ σ, x.Meets σ (fun _ σ' => σ'.world.scopes = σ.world.scopes ∧ σ.world.SameMethods σ'.world) fun _ _ => True

namespace KeepsMembers

theorem pure (a : α) : KeepsMembers (Pure.pure a) := fun σ => ⟨rfl, .refl σ.world⟩

theorem bind {x : Eval α} {f : α → Eval β} (hx : KeepsMembers x) (hf : ∀ a, KeepsMembers (f a)) :
    KeepsMembers (x >>= f) := by
  intro σ
  rw [Comp.meets_bind]
  refine (hx σ).imp fun a σ' h => ?_
  exact (hf a σ').imp fun _ _ k => ⟨k.1.trans h.1, h.2.trans k.2⟩

theorem lift {x : Run α} (h : ∀ w, x.Meets w (fun _ v => v.scopes = w.scopes ∧ w.SameMethods v) fun _ _ => True) :
    KeepsMembers (Eval.lift x) :=
  fun σ => Eval.meets_lift.mpr (h σ.world)

theorem read (f : World → α) : KeepsMembers (liftM (Run.read f) : Eval α) := fun σ => ⟨rfl, .refl σ.world⟩

theorem top : KeepsMembers Eval.top := fun σ => ⟨rfl, .refl σ.world⟩

theorem stop (node : Node) (c : Cause) : KeepsMembers (Eval.stop node c : Eval α) := fun _ => trivial

theorem located {intro : Option String} {node : Node} {x : Eval α} (h : KeepsMembers x) :
    KeepsMembers (Eval.located intro node x) := fun σ => Eval.meets_located (h σ)

theorem part (node : Node) (field : String) (found : Option α) :
    KeepsMembers (liftM (Run.part node field found) : Eval α) := by
  intro σ
  cases found with
  | some a => exact ⟨rfl, .refl σ.world⟩
  | none => trivial

theorem collect {xs : List α} {f : α → Eval β} (hf : ∀ x, KeepsMembers (f x)) : KeepsMembers (ScriptCore.collect xs f) := by
  induction xs with
  | nil => exact .pure []
  | cons x rest ih => exact .bind (hf x) fun _ => .bind ih fun _ => .pure _

end KeepsMembers

end Eval

namespace Evaluator

open Eval (KeepsMembers)

theorem keepsMembers_resolveType (n : Node) : KeepsMembers (resolveType n) := by
  unfold resolveType
  split
  · exact .pure _
  · next origin target dims =>
    split
    · exact .pure _
    · extract_lets nest
      have nested (base : Ty) : KeepsMembers (nest base) := by
        dsimp only [nest]
        split
        · exact .pure _
        · split
          · exact .stop _ _
          · exact .pure _
      cases target with
      | loose => exact .bind (.pure _) nested
      | resolved ty => exact .bind (.pure _) nested
      | named path =>
        dsimp only
        cases PrimType.ofName? path with
        | some p => exact .bind (.pure _) nested
        | none =>
          refine .bind .top fun s => .bind (.located ?_) fun found => nested _
          refine .lift fun w => ((Run.scopes_resolveClass s path w).and ((Run.resolveClass s path).meets w)).mono ?_ ?_
          · exact fun _ _ h => ⟨h.1, Run.sameMethods_of_reaches h.2⟩
          · exact fun _ _ _ => trivial
  · exact .part _ _ _

theorem keepsMembers_modifiersOf (kind : DeclKind) (names : List String) (node : Node) :
    KeepsMembers (modifiersOf kind names node) := by
  refine .located (.lift fun w => ?_)
  cases Modifiers.ofNames kind names with
  | ok m => exact ⟨rfl, .refl w⟩
  | error c => trivial

theorem keepsMembers_buildParam (method : String) (p : Node) : KeepsMembers (buildParam method p) := by
  refine .bind (.read _) fun strict => .bind (.part _ _ _) fun type => .bind (.part _ _ _) fun name => ?_
  split
  · exact .stop _ _
  · refine .bind (keepsMembers_resolveType _) fun _ => .bind (.part _ _ _) fun names => ?_
    exact .bind (keepsMembers_modifiersOf _ _ _) fun _ => .pure _

theorem keepsMembers_buildMethod (decl : Node) (home : ScopeId) : KeepsMembers (buildMethod decl home) := by
  unfold buildMethod
  split
  · refine .bind (.read _) fun strict => ?_
    split
    · exact .stop _ _
    · refine .bind (keepsMembers_resolveType _) fun _ => .bind (.collect (keepsMembers_buildParam _)) fun _ => ?_
      exact .bind (keepsMembers_modifiersOf _ _ _) fun _ => .pure _
  · exact .pure _

def BuiltFor (inst : ScopeId) (k : ClassRef) (decl : Node) (m : Method) : Prop :=
  ∃ m' σ σ', buildMethod decl inst σ = .done m' σ' ∧ m = { m' with declaringClass := some k }

/-- The scope of an instance stands in that of its class. It declares nothing but what the given
declarations of the classes stand for, and it has a method for each signature among them. -/
structure Equipped (w : World) (inst home : ScopeId) (parts : List (ClassRef × Node)) : Prop where
  placed : w.StandsIn inst home
  plain : (w.scope inst).isBlock = false
  member : ∀ name, ∀ m ∈ w.overloads inst name, ∃ e ∈ parts, BuiltFor inst e.1 e.2 m
  provided : ∀ e ∈ parts, ∃ m, BuiltFor inst e.1 e.2 m ∧ ∃ m' ∈ w.overloads inst m.name, m'.paramTypes = m.paramTypes

def methodParts (chain : List (ClassRef × ScriptPart)) : List (ClassRef × Node) :=
  chain.flatMap fun e => e.2.body.methods.map (e.1, ·)

variable {w w' : World} {σ σ' : EvalState} {inst home : ScopeId} {parts : List (ClassRef × Node)} {k : ClassRef}

theorem Equipped.of_scopes (h : Equipped w inst home parts) (same : w'.scopes = w.scopes) :
    Equipped w' inst home parts := by
  have scope (t : ScopeId) : w'.scope t = w.scope t := by rw [World.scope, World.scope, same]
  have overloads (name : String) : w'.overloads inst name = w.overloads inst name := by
    rw [World.overloads, World.overloads, scope]
  refine ⟨⟨same ▸ h.placed.inside, ?_, h.placed.older⟩, ?_, ?_, ?_⟩
  · rw [scope]
    exact h.placed.parent
  · rw [scope]
    exact h.plain
  · simpa only [overloads] using h.member
  · simpa only [overloads] using h.provided

theorem Equipped.setMethod {m : Method} {decl : Node} (h : Equipped w inst home parts) (built : BuiltFor inst k decl m)
    (run : Run.setMethod inst m w = .done () w') : Equipped w' inst home (parts ++ [(k, decl)]) := by
  have overloads := Run.overloads_setMethod h.placed.inside h.plain run
  have moved : w.Anchored w' ∧ (w'.scope inst).isBlock = (w.scope inst).isBlock := by
    rw [Run.run_setMethod] at run
    cases run
    constructor
    · exact w.anchored_withMethod (w.enclosing inst) m
    · rw [World.scope_forgetting, World.withMethod, World.scope_modifyScope]
      split <;> rfl
  refine ⟨h.placed.of_anchored moved.1, moved.2.trans h.plain, fun name x hx => ?_, fun e he => ?_⟩
  · have old (hx : x ∈ w.overloads inst name) : ∃ e ∈ parts ++ [(k, decl)], BuiltFor inst e.1 e.2 x := by
      obtain ⟨e, he, stands⟩ := h.member name x hx
      exact ⟨e, List.mem_append_left _ he, stands⟩
    rw [overloads] at hx
    split at hx
    · rcases Run.mem_addOverload hx with rfl | hx
      · exact ⟨(k, decl), by simp, built⟩
      · exact old hx
    · exact old hx
  · rcases List.mem_append.mp he with old | new
    · obtain ⟨x, stands, y, hy, types⟩ := h.provided e old
      refine ⟨x, stands, ?_⟩
      rw [overloads]
      split
      · obtain ⟨z, hz, same⟩ := Run.exists_mem_addOverload m hy
        exact ⟨z, hz, same.trans types⟩
      · exact ⟨y, hy, types⟩
    · cases List.mem_singleton.mp new
      refine ⟨m, built, m, ?_, rfl⟩
      rw [overloads, if_pos rfl]
      exact Run.mem_addOverload_self _ m

def declareOne (inst : ScopeId) (k : ClassRef) (decl : Node) : Eval Method := do
  let m ← buildMethod decl inst
  let m := { m with declaringClass := some k }
  Run.setMethod inst m
  pure m

theorem equipped_declareOne (h : Equipped σ.world inst home parts) (decl : Node) :
    (declareOne inst k decl).Meets σ (fun _ σ' => Equipped σ'.world inst home (parts ++ [(k, decl)])) fun _ _ => True := by
  unfold declareOne
  rw [Comp.meets_bind]
  refine ((Comp.meets_self _ σ).and (keepsMembers_buildMethod decl inst σ)).impDone ?_
  rintro m' τ ⟨built, same, -⟩
  exact (h.of_scopes same).setMethod ⟨m', σ, τ, built, rfl⟩ rfl

theorem equipped_declareAll (h : Equipped σ.world inst home parts) (decls : List Node) :
    (collect decls (declareOne inst k)).Meets σ
      (fun _ σ' => Equipped σ'.world inst home (parts ++ decls.map (k, ·))) fun _ _ => True := by
  induction decls generalizing σ parts with
  | nil => simpa [collect] using h
  | cons decl rest ih =>
    unfold collect
    simp only [Comp.meets_bind]
    refine (equipped_declareOne h decl).impDone fun _ τ first => ?_
    simpa using ih first

theorem equipped_declareMethods (h : Equipped σ.world inst home parts) (i : ObjectId)
    (body : ClassBody) :
    (declareMethods i inst k body).Meets σ
      (fun _ σ' => Equipped σ'.world inst home (parts ++ body.methods.map (k, ·))) fun _ _ => True := by
  unfold declareMethods
  rw [Comp.meets_bind]
  -- The list of methods that the object keeps is not in a scope.
  refine (equipped_declareAll h body.methods).impDone fun _ τ done => ?_
  exact done.of_scopes rfl

theorem equipped_chain (h : Equipped σ.world inst home parts) (i : ObjectId) (chain : List (ClassRef × ScriptPart)) :
    (forEach chain fun e => declareMethods i inst e.1 e.2.body).Meets σ
      (fun _ σ' => Equipped σ'.world inst home (parts ++ methodParts chain)) fun _ _ => True := by
  induction chain generalizing σ parts with
  | nil => simpa [forEach, methodParts] using h
  | cons e rest ih =>
    unfold forEach
    rw [Comp.meets_bind]
    refine (equipped_declareMethods h i e.2.body).impDone fun _ τ first => ?_
    simpa [methodParts] using ih first

/-- An object gets its scope as an instance of a class, and the methods of the classes of the
hierarchy are declared there. The last world is the one in which the construction begins. -/
inductive SetUp (c : ClassRef) (i : ObjectId) (inst : ScopeId) (w : World) : World → Prop
  | mk {w₁ w₂ : World} {σ σ' : EvalState} (made : (instanceScope c).run w = .done inst w₁)
      (linked : (Run.setClassInstance inst (.object i)).run w₁ = .done () w₂) (entered : σ.world.scopes = w₂.scopes)
      (declared : (forEach (scriptedChain w c) fun e => declareMethods i inst e.1 e.2.body) σ = .done () σ') :
      SetUp c i inst w σ'.world

/-- When an instance has been set up, it was given its scope, and then the methods were declared. In
between only the object and the call stack have changed. -/
theorem declared_of_setUpScripted (ev : Evaluator) (c : ClassRef) (i : ObjectId) (args : List Value)
    (caller : Node) (σ : EvalState) :
    (ev.setUpScripted (.object i) c args caller).Meets σ (fun _ _ => ∃ inst w₁ w₂ τ τ',
      (instanceScope c).run σ.world = .done inst w₁ ∧ (Run.setClassInstance inst (.object i)).run w₁ = .done () w₂ ∧
      w₂.Calm τ.world ∧ τ.world.scopes = w₂.scopes ∧
      (forEach (scriptedChain σ.world c) fun e => declareMethods i inst e.1 e.2.body) τ = .done () τ') fun _ _ => True := by
  obtain ⟨inst, w₁, made⟩ : ∃ inst w₁, (instanceScope c).run σ.world = .done inst w₁ := ⟨_, _, rfl⟩
  obtain ⟨w₂, linked⟩ : ∃ w₂, (Run.setClassInstance inst (.object i)).run w₁ = .done () w₂ := ⟨_, rfl⟩
  unfold setUpScripted Comp.Meets
  rw [Eval.get_bind,
    Comp.bind_of_done (Eval.liftM_of_done made σ.running), Comp.bind_of_done (Eval.liftM_of_done linked σ.running)]
  change Comp.Meets (Eval.withFrame inst _) ⟨w₂.modifyObj i _, σ.running⟩ _ _
  simp only [Eval.withFrame, Eval.push, Comp.meets_bind, Eval.meets_frames, Eval.meets_setFrames, Comp.meets_ensuring]
  refine (Comp.meets_self _ _).mono (fun _ τ' declared => ?_) fun _ _ _ => ?_
  · have given : w₂.Calm (w₂.modifyObj i fun o => { o with scope := some inst }) :=
      World.calm_modifyObj i fun _ => ⟨rfl, rfl, rfl⟩
    have entered (τ : EvalState) (fs : List ScopeId) :
        τ.world.Calm (τ.setFrames fs).world ∧ (τ.setFrames fs).world.scopes = τ.world.scopes := by
      unfold EvalState.setFrames
      split
      · exact ⟨.refl τ.world, rfl⟩
      · exact ⟨World.calm_of_eq rfl rfl rfl rfl rfl, rfl⟩
    refine Comp.meets_of_forall (fun _ _ => ?_) fun _ _ => ?_
    · refine Comp.meets_of_forall (fun _ _ => ⟨inst, w₁, w₂, _, τ', made, linked, ?_, ?_, declared⟩) fun _ _ => trivial
      · exact given.trans (entered ⟨_, σ.running⟩ _).1
      · exact (entered ⟨_, σ.running⟩ _).2
    · exact Comp.meets_of_forall (fun _ _ => trivial) fun _ _ => trivial
  · exact Comp.meets_of_forall (fun _ _ => trivial) fun _ _ => trivial

theorem setUp_of_setUpScripted (ev : Evaluator) (c : ClassRef) (i : ObjectId) (args : List Value)
    (caller : Node) (σ : EvalState) :
    (ev.setUpScripted (.object i) c args caller).Meets σ
    (fun _ _ => ∃ inst w', SetUp c i inst σ.world w') fun _ _ => True := by
  refine (declared_of_setUpScripted ev c i args caller σ).impDone ?_
  rintro _ _ ⟨inst, w₁, w₂, τ, τ', made, linked, -, entered, declared⟩
  exact ⟨inst, τ'.world, .mk made linked entered declared⟩

/-- The scope that an instance is given holds nothing yet when it is told which instance it belongs
to. -/
theorem blank_of_linked {c : ClassRef} {i : ObjectId} {w₁ w₂ : World} (made : (instanceScope c).run w = .done inst w₁)
    (linked : (Run.setClassInstance inst (.object i)).run w₁ = .done () w₂) :
    w₁.Anchored w₂ ∧ inst < w₂.scopes.size ∧ (w₂.scope inst).methods = {} ∧ (w₂.scope inst).isBlock = false := by
  have calm : w₁.Calm w₂ := ((Run.setClassInstance inst (.object i)).meets_calm w₁).of_done linked
  have new : inst < w₁.scopes.size ∧ (w₁.scope inst).methods = {} ∧ (w₁.scope inst).isBlock = false := by
    cases made
    simp [World.scope]
  have same : w₂.scope inst = { w₁.scope inst with classInstance := some (.object i) } := by
    cases linked
    exact (w₁.scope_modifyScope inst inst _).trans (if_pos ⟨rfl, new.1⟩)
  rw [same]
  exact ⟨calm.anchored, Nat.lt_of_lt_of_le new.1 calm.anchored.size, new.2⟩

theorem SetUp.equipped {c : ClassRef} {part : ScriptPart} {i : ObjectId} (h : SetUp c i inst w w')
    (script : w.inheritedScript? c = some part) (known : part.staticScope < w.scopes.size) :
    Equipped w' inst part.staticScope (methodParts (scriptedChain w c)) := by
  obtain ⟨made, linked, entered, declared⟩ := h
  rename_i w₁ w₂ σ σ'
  have placed := standsIn_instanceScope script known made
  obtain ⟨anchored, -, empty, notBlock⟩ := blank_of_linked made linked
  have start : Equipped w₂ inst part.staticScope [] := by
    refine ⟨placed.of_anchored anchored, notBlock, fun name m hm => ?_, by simp⟩
    rw [World.overloads, empty] at hm
    cases hm
  have run := equipped_chain (start.of_scopes entered) i (scriptedChain w c)
  simpa using run.of_done declared

end Evaluator

end ScriptCore
