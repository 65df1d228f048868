import ScriptCore.Proofs.AssignedCell
import ScriptCore.Proofs.PrivateMethods
import ScriptCore.Proofs.StatementRules

namespace ScriptCore

namespace World

variable {w w' : World} {s t f inst home a : ScopeId} {name : String}

theorem Anchored.parent (h : w.Anchored w') (inside : s < w.scopes.size) : (w'.scope s).parent = (w.scope s).parent := by
  have there : w.scopes[s]? = some w.scopes[s] := Array.getElem?_eq_getElem inside
  obtain ⟨y, here, same⟩ := h.kept there
  rw [scope, scope, here, there]
  exact same

structure StandsIn (w : World) (s t : ScopeId) : Prop where
  inside : s < w.scopes.size
  parent : (w.scope s).parent = some t
  older : t < s

theorem StandsIn.of_anchored (h : w.StandsIn s t) (k : w.Anchored w') : w'.StandsIn s t :=
  ⟨Nat.lt_of_lt_of_le h.inside k.size, (k.parent h.inside).trans h.parent, h.older⟩

theorem exists_ancestry_of_body (frame : w.StandsIn f inst) (placed : w.StandsIn inst home) (within : f ∈ w.ancestry s) :
    ∃ inner, w.ancestry s = inner ++ inst :: w.ancestry home ∧ f ∈ inner := by
  obtain ⟨blocks, outer, split⟩ := List.append_of_mem within
  have around : w.ancestry f = f :: inst :: w.ancestry home := by
    rw [ancestry_of_parent frame.parent frame.older, ancestry_of_parent placed.parent placed.older]
  rw [ancestry_of_split split] at around
  exact ⟨blocks ++ [f], by rw [split, around]; simp, by simp⟩

structure Uses (w : World) (s : ScopeId) (name : String) (a : ScopeId) : Prop where
  found : (Run.findBinding s name true).run w = .done (some (.held a name)) w
  read : ∃ x, (w.scope a).vars.get? name = some x ∧
    (Run.getVariable s name true).run w = .done (x.value.getD .none) w
  write : ∀ value, value ≠ .none →
    (Run.setVariable s name value false true).run w = (Run.assignVariable a name value false).run w

/-- Where nothing is imported, a name stands for the variable of the nearest scope that holds it. -/
theorem PlainChain.uses_iff (chain : w.PlainChain s) : w.Uses s name a ↔ w.holder? s name = some a := by
  have search := Run.findBinding_plain chain.imports name
  constructor
  · intro uses
    have found := search.symm.trans uses.found
    cases held : w.holder? s name with
    | none => rw [held] at found; cases found
    | some t => rw [held] at found; cases found; rfl
  · intro held
    rw [held] at search
    obtain ⟨x, there⟩ := held_of_holder? held
    refine ⟨search, ⟨x, there, Run.getVariable_of_found search there⟩, fun value given => ?_⟩
    rw [Run.run_setVariable chain given, held]

end World

namespace Run

variable {w w' : World} {s t : ScopeId} {name : String}

theorem standsIn_newScope {x : Scope} (parent : x.parent = some t) (known : t < w.scopes.size)
    (h : (newScope x).run w = .done s w') : w'.StandsIn s t := by
  cases h
  exact ⟨by simp, by simpa [World.scope] using parent, known⟩

theorem firstSome_of_none {α β : Type} {may : May} {tier : Tier} {f : α → Action may tier (Option β)} {before : List α}
    (h : ∀ x ∈ before, (f x).run w = .done none w) (rest : List α) :
    (firstSome (before ++ rest) f).run w = (firstSome rest f).run w := by
  induction before with
  | nil => rfl
  | cons x before ih =>
    rw [List.cons_append, firstSome, Action.run_bind_of_done (h x List.mem_cons_self)]
    exact ih fun y hy => h y (List.mem_cons_of_mem _ hy)

theorem importedMethod_plain (imports : w.importTargets s = []) (types : List Ty) :
    (importedMethod s name types).run w = .done none w := by
  unfold importedMethod
  rw [Action.run_get_bind]
  simp only [imports, firstSome]
  rfl

theorem firstSome_singleton {α β : Type} {may : May} {tier : Tier}
    {f : α → Action may tier (Option β)} (x : α) : (firstSome [x] f).run w = (f x).run w := by
  cases ran : (f x).run w with
  | done r v =>
    rw [firstSome, Action.run_bind_of_done ran]
    cases r <;> rfl
  | failed e v => exact Comp.bind_of_failed ran
  | exhausted => exact Comp.bind_of_exhausted ran

theorem localMethod_of_imported {types : List Ty} (imported : (importedMethod s name types).run w = .done none w) :
    (localMethod s name types).run w = (declaredMethod s name types).run w := by
  unfold localMethod
  rw [Action.run_read_bind]
  split
  · rw [firstSome, Action.run_bind_of_done imported]
    exact firstSome_singleton declaredMethod
  · cases declared : (declaredMethod s name types).run w with
    | done r v =>
      have same : v = w := (steady_declaredMethod s name types w).of_done declared
      subst same
      rw [firstSome, Action.run_bind_of_done declared]
      cases r with
      | some m => rfl
      | none => exact (firstSome_singleton importedMethod).trans imported
    | failed e v => exact Comp.bind_of_failed declared
    | exhausted => exact Comp.bind_of_exhausted declared

theorem localMethod_plain (imports : w.importTargets s = []) (types : List Ty) :
    (localMethod s name types).run w = (declaredMethod s name types).run w :=
  localMethod_of_imported (importedMethod_plain imports types)

theorem declaredMethod_none (absent : (w.scope s).methods.get? name = none) (types : List Ty) :
    (declaredMethod s name types).run w = .done none w := by
  unfold declaredMethod
  rw [Action.run_read_bind]
  simp only [absent]
  rfl

theorem findMethod_of_split {before after : List ScopeId} (imports : ∀ u ∈ w.ancestry s, w.importTargets u = [])
    (split : w.ancestry s = before ++ t :: after) (absent : ∀ u ∈ before, (w.scope u).methods.get? name = none)
    (types : List Ty) : (findMethod s name types).run w = (findMethod t name types).run w := by
  have passed : ∀ u ∈ before, (localMethod u name types).run w = .done none w := fun u hu => by
    rw [localMethod_plain (imports u (by simp [split, hu]))]
    exact declaredMethod_none (absent u hu) types
  change (firstSome (w.ancestry s) fun u => localMethod u name types).run w =
    (firstSome (w.ancestry t) fun u => localMethod u name types).run w
  rw [World.ancestry_of_split split, split]
  exact firstSome_of_none passed _

/-- A method is the one that the nearest scope declares which has any for the argument types. -/
def DeclaresNearest (w : World) (s : ScopeId) (name : String) (types : List Ty) (t : ScopeId) (m : Method) : Prop :=
  ∃ before after, w.ancestry s = before ++ t :: after ∧
    (∀ u ∈ before, (declaredMethod u name types).run w = .done none w) ∧
    (declaredMethod t name types).run w = .done (some m) w

theorem firstSome_eq_some_iff {α β : Type} {f : α → Faulty (Option β)} {l : List α} {b : β}
    (steady : ∀ x ∈ l, Steady (f x)) :
    (firstSome l f).run w = .done (some b) w ↔
      ∃ x before after, l = before ++ x :: after ∧ (∀ y ∈ before, (f y).run w = .done none w) ∧
        (f x).run w = .done (some b) w := by
  constructor
  · intro found
    induction l with
    | nil => cases found
    | cons x rest ih =>
      rw [firstSome] at found
      cases ran : (f x).run w with
      | done r v =>
        have same : v = w := (steady x List.mem_cons_self w).of_done ran
        subst same
        rw [Action.run_bind_of_done ran] at found
        cases r with
        | some b' =>
          cases found
          exact ⟨x, [], rest, rfl, by simp, ran⟩
        | none =>
          obtain ⟨y, before, after, rfl, passed, here⟩ := ih (fun y hy => steady y (List.mem_cons_of_mem _ hy)) found
          refine ⟨y, x :: before, after, rfl, ?_, here⟩
          rintro z (_ | ⟨_, hz⟩)
          · exact ran
          · exact passed z hz
      | failed e v => cases (Comp.bind_of_failed ran).symm.trans found
      | exhausted => cases (Comp.bind_of_exhausted ran).symm.trans found
  · rintro ⟨x, before, after, rfl, passed, here⟩
    rw [firstSome_of_none passed, firstSome, Action.run_bind_of_done here]
    rfl

theorem findMethod_eq_some_iff {types : List Ty} {m : Method} (imports : ∀ u ∈ w.ancestry s, w.importTargets u = []) :
    (findMethod s name types).run w = .done (some m) w ↔ ∃ t, DeclaresNearest w s name types t m := by
  change (firstSome (w.ancestry s) fun u => localMethod u name types).run w = _ ↔ _
  rw [firstSome_eq_some_iff fun u _ => steady_localMethod u name types]
  refine exists_congr fun t => exists_congr fun before => exists_congr fun after => and_congr_right fun split => ?_
  have plain : ∀ u ∈ before ++ t :: after, (localMethod u name types).run w = (declaredMethod u name types).run w :=
    fun u hu => localMethod_plain (imports u (split ▸ hu)) types
  rw [plain t (by simp)]
  refine and_congr_left fun _ => forall₂_congr fun u hu => ?_
  rw [plain u (by simp [hu])]

end Run

def Node.methodBody : Node → Node
  | methodDecl _ _ _ body _ _ => body
  | _ => absent

theorem Node.methodBody_of_ne (n : Node)
    (h : ∀ l name params body type modifiers, n ≠ .methodDecl l name params body type modifiers) :
    n.methodBody = .absent := by
  unfold methodBody
  split
  · exact absurd rfl (h _ _ _ _ _ _)
  · rfl

namespace Terms

def unrestricted : Terms := { lenient (fun _ => true) (fun _ => True) false with steady := true }

theorem allows_unrestricted (r : Role) (node : Node) : unrestricted.Allows r node where
  names := node.usesOnly_true
  orderly ho := by cases ho
  complete hc := by cases hc

theorem kept_unrestricted (σ : EvalState) (k : CallStack) : unrestricted.Kept σ.world k σ where
  fits := .of_code (fun node _ => allows_unrestricted _ node) fun ho => by cases ho
  since := .refl σ.world
  stack hd := absurd (hd "callStack" rfl) (by decide)
  started hc := by cases hc

end Terms

theorem Eval.Sound.since {α : Type} {t : Tier} {P : α → Prop} {x : Eval α} (h : x.Sound .unrestricted t P) (σ : EvalState) :
    x.Meets σ (fun _ σ' => Terms.unrestricted.Since σ.world σ'.world) fun _ σ' =>
      Terms.unrestricted.Since σ.world σ'.world :=
  (h σ ⟨[]⟩ (Terms.kept_unrestricted σ _)).mono (fun _ _ h => h.1.since) fun _ _ h => h.1.since

namespace Evaluator

variable {w w' : World} {σ σ' : EvalState} {inst f : ScopeId}

theorem since_of_exec (n : Nat) {node : Node} (h : ((ofFuel n).exec node).Leads σ σ') :
    Terms.unrestricted.Since σ.world σ'.world := by
  have sound : (ofFuel n).Sound .unrestricted := .ofFuel n fun _ _ _ _ => trivial
  exact ((sound.exec node (Terms.allows_unrestricted _ node)).since σ).of_leads h

theorem anchored_of_exec (n : Nat) {node : Node} (h : ((ofFuel n).exec node).Leads σ σ') : σ.world.Anchored σ'.world :=
  (since_of_exec n h).frames.anchored

theorem built_of_buildMethod {decl : Node} {m : Method} (h : buildMethod decl inst σ = .done m σ') :
    m.home = inst ∧ m.body = decl.methodBody ∧ m.declaringClass = none := by
  refine Comp.Meets.of_done (Q := fun m _ => m.home = inst ∧ m.body = decl.methodBody ∧ m.declaringClass = none)
    (F := fun _ _ => True) ?_ h
  unfold buildMethod
  split
  · rw [Comp.meets_bind]
    refine Comp.meets_of_forall (fun strict σ => ?_) fun _ _ => trivial
    split
    · exact Comp.meets_bind.mpr (Comp.meets_of_forall (fun _ _ => trivial) fun _ _ => trivial)
    · simp only [Comp.meets_bind]
      refine Comp.meets_of_forall (fun _ _ => ?_) fun _ _ => trivial
      refine Comp.meets_of_forall (fun _ _ => ?_) fun _ _ => trivial
      exact Comp.meets_of_forall (fun _ _ => ⟨rfl, rfl, rfl⟩) fun _ _ => trivial
  · next other => exact ⟨rfl, (decl.methodBody_of_ne other).symm, rfl⟩

/-- What makes the scope that the body of a method or of a constructor runs in, for an instance
whose members are in the given scope. Any class may declare it. -/
inductive BodyFrame (inst : ScopeId) : Plain ScopeId → Prop
  | method {decl : Node} {m : Method} {σ σ' : EvalState} (built : buildMethod decl inst σ = .done m σ') (k : ClassRef)
      (caller : Node) : BodyFrame inst (methodFrame { m with declaringClass := some k } caller)
  | constructor (k : ClassRef) (name : String) (caller : Node) (chosen : Option (Nat × Method)) :
      BodyFrame inst (constructorFrame k name inst caller chosen)

theorem BodyFrame.standsIn {frame : Plain ScopeId} (body : BodyFrame inst frame)
    (known : inst < w.scopes.size) (h : frame.run w = .done f w') : w'.StandsIn f inst := by
  cases body with
  | method built k caller => exact Run.standsIn_newScope (congrArg some ((built_of_buildMethod built).1)) known h
  | constructor k name caller chosen => exact Run.standsIn_newScope rfl known h

theorem standsIn_instanceScope {c : ClassRef} {part : ScriptPart} (script : w.inheritedScript? c = some part)
    (known : part.staticScope < w.scopes.size) (h : (instanceScope c).run w = .done inst w') :
    w'.StandsIn inst part.staticScope := by
  unfold instanceScope at h
  rw [Action.run_bind_of_done (x := Run.get) rfl] at h
  exact Run.standsIn_newScope (by simp [script]) known h

/-- Whichever class declares a method or a constructor, its body runs for an instance inside the
scope of the instance, and from there the way outwards leads to the static scope of the class of the
instance; nothing that is evaluated changes this, as long as no script assigns the attributes of
scopes by which they are placed. Where nothing is imported, a name that neither the body nor the
instance holds stands for the static variable of this class, if it has one, and never for that of a
class which is not around it. Calls by a name go the same way. -/
theorem inherited_body_sees_statics_of_instance {w₀ w₁ w₂ w₃ w : World} {c : ClassRef} {part : ScriptPart}
    {inst f s : ScopeId} {frame : Plain ScopeId} (script : w₀.inheritedScript? c = some part)
    (known : part.staticScope < w₀.scopes.size) (made : (instanceScope c).run w₀ = .done inst w₁)
    (since : w₁.Anchored w₂) (body : BodyFrame inst frame) (entered : frame.run w₂ = .done f w₃)
    (later : w₃.Anchored w) (within : f ∈ w.ancestry s) (chain : w.PlainChain s) (name : String) :
    (∀ n node σ σ', ((ofFuel n).exec node).Leads σ σ' → σ'.world.Unassigned Run.makings → σ.world.Anchored σ'.world) ∧
    ∃ inner, w.ancestry s = inner ++ inst :: w.ancestry part.staticScope ∧ f ∈ inner ∧
      ((∀ t ∈ inner ++ [inst], (w.scope t).vars.contains name = false) →
        (∀ a, w.Uses s name a ↔ w.holder? part.staticScope name = some a) ∧
        ((w.scope part.staticScope).vars.contains name → w.Uses s name part.staticScope) ∧
        ∀ a, a ∉ w.ancestry part.staticScope → ¬w.Uses s name a) ∧
      ((∀ t ∈ inner ++ [inst], (w.scope t).methods.get? name = none) → ∀ args m,
        (Finds w s name args m ↔ ∃ a, Run.DeclaresNearest w part.staticScope name (w.typesOf args) a m) ∧
        ∀ (ev : Evaluator) (caller : Node) (r : StackRef), Finds w s name args m →
          ev.invokeLocal s name args caller ⟨w, r⟩ =
            if hidden w s m then .failed (refusal m caller ⟨w, r⟩) ⟨w, r⟩ else ev.invoke m args caller ⟨w, r⟩) := by
  have placed : w₂.StandsIn inst part.staticScope := (standsIn_instanceScope script known made).of_anchored since
  have stands : w₃.StandsIn f inst := body.standsIn placed.inside entered
  have calm : w₂.Calm w₃ := (frame.meets_calm w₂).of_done entered
  obtain ⟨inner, around, inside⟩ := World.exists_ancestry_of_body (stands.of_anchored later)
    (placed.of_anchored (calm.anchored.trans later)) within
  obtain ⟨outer, head⟩ := w.head_ancestry part.staticScope
  have split : w.ancestry s = (inner ++ [inst]) ++ part.staticScope :: outer := by simp [around, head]
  refine ⟨fun n _ _ _ leads _ => anchored_of_exec n leads, inner, around, inside, fun absent => ?_, fun absent args m => ?_⟩
  · have same := World.holder?_of_split split absent
    have uses (a : ScopeId) : w.Uses s name a ↔ w.holder? part.staticScope name = some a := by
      rw [chain.uses_iff, same]
    refine ⟨uses, fun held => (uses _).mpr ?_, fun a apart h => apart ?_⟩
    · simp [World.holder?, head, held]
    · exact List.mem_of_find?_eq_some ((uses a).mp h)
  · have same := Run.findMethod_of_split chain.imports split absent (w.typesOf args)
    have outwards : ∀ u ∈ w.ancestry part.staticScope, w.importTargets u = [] := fun u hu =>
      chain.imports u (by simp [around, hu])
    refine ⟨?_, fun ev caller r found => invokeLocal_of_finds found⟩
    rw [← Run.findMethod_eq_some_iff outwards, ← same]
    exact ⟨Finds.run, fun found => ⟨w, found⟩⟩

/-- A class with a static variable `count`, and one that extends it, with a static variable `own`
and a static method `next`. Their static scopes are 1 and 2. -/
def extendingWorld : World where
  scopes := #[{ registry := some 0 },
    { parent := some 0, isClass := true, vars := .ofList [("count", { value := some (.ofInt 7) })] },
    { parent := some 0, isClass := true, vars := .ofList [("own", { value := some (.ofInt 8) })]
      methods := .ofList [("next", [{ name := "next", home := 2 }])] }]
  classes := #[
    { (default : MadeClass) with name := "A", script := some { (default : ScriptPart) with staticScope := 1 } },
    { name := "B", qualname := "B", module := "m", bases := [.made 0], ancestors := [.made 0, .core .object]
      bases_mem := by simp, object_mem := by simp, metaclass := .core .type
      script := some { (default : ScriptPart) with staticScope := 2 } }]
  registries := #[{}]

theorem inherited_body_sees_statics_of_instance_extending :
    let get : Node := .methodDecl {} "get" [] (.blockOf [.return {} (.name {} "count")]) .absent []
    let m : Method := { name := "get", home := 3, body := .blockOf [.return {} (.name {} "count")], node := get }
    let next : Method := { name := "next", home := 2 }
    ∃ w₁ w, (instanceScope (.made 1)).run extendingWorld = .done 3 w₁ ∧
      buildMethod get 3 ⟨w₁, .own ⟨[0]⟩⟩ = .done m ⟨w₁, .own ⟨[0]⟩⟩ ∧
      (methodFrame { m with declaringClass := some (.made 0) } .absent).run w₁ = .done 4 w ∧ w.PlainChain 4 ∧
      w.Uses 4 "own" 2 ∧ ¬w.Uses 4 "count" 1 ∧ Finds w 4 "next" [] next := by
  intro get m next
  obtain ⟨w₁, w, made, built, entered, size, outermost, around, outwards, imports, empty, own, declared⟩ : ∃ w₁ w,
      (instanceScope (.made 1)).run extendingWorld = .done 3 w₁ ∧
      buildMethod get 3 ⟨w₁, .own ⟨[0]⟩⟩ = .done m ⟨w₁, .own ⟨[0]⟩⟩ ∧
      (methodFrame { m with declaringClass := some (.made 0) } .absent).run w₁ = .done 4 w ∧
      4 < w.scopes.size ∧ (w.scope 0).isBlock = false ∧ w.ancestry 4 = [4, 3, 2, 0] ∧ w.ancestry 2 = [2, 0] ∧
      (∀ t ∈ [4, 3, 2, 0], w.importTargets t = []) ∧
      (∀ t ∈ [4, 3], (w.scope t).vars = {} ∧ (w.scope t).methods = {}) ∧ (w.scope 2).vars.contains "own" ∧
      (Run.declaredMethod 2 "next" (w.typesOf [])).run w = .done (some next) w :=
    ⟨_, _, rfl, rfl, rfl, by decide, by decide, by decide, by decide, by simp; exact ⟨rfl, rfl, rfl, rfl⟩,
      by simp; exact ⟨⟨rfl, rfl⟩, rfl, rfl⟩, by decide, rfl⟩
  have script : extendingWorld.inheritedScript? (.made 1) = some { (default : ScriptPart) with staticScope := 2 } := rfl
  have chain : w.PlainChain 4 := ⟨size, by rwa [around], by rw [World.root, around]; exact outermost⟩
  have seen := inherited_body_sees_statics_of_instance script (by decide) made (.refl w₁) (.method built (.made 0) .absent)
    entered (.refl w) (by simp [around]) chain
  have inside {inner : List ScopeId} (split : w.ancestry 4 = inner ++ 3 :: w.ancestry 2) :
      ∀ t ∈ inner ++ [3], (w.scope t).vars = {} ∧ (w.scope t).methods = {} := by
    rw [around, outwards] at split
    cases List.append_cancel_right (show [4] ++ [3, 2, 0] = inner ++ [3, 2, 0] from split)
    exact empty
  refine ⟨w₁, w, made, built, entered, chain, ?_, ?_, ?_⟩
  · obtain ⟨-, inner, split, -, cells, -⟩ := seen "own"
    exact (cells fun t ht => by rw [(inside split t ht).1]; rfl).2.1 own
  · obtain ⟨-, inner, split, -, cells, -⟩ := seen "count"
    exact (cells fun t ht => by rw [(inside split t ht).1]; rfl).2.2 1 (by simp [outwards])
  · obtain ⟨-, inner, split, -, -, methods⟩ := seen "next"
    refine (methods (fun t ht => by rw [(inside split t ht).2]; rfl) [] next).1.mpr ?_
    exact ⟨2, [], [0], outwards, nofun, declared⟩

/-- A class `A` declares a static variable and a method that gives it, and a class `B` extends it.
The method gives the variable on an instance of `A`, and something else on an instance of `B`. -/
theorem inherited_body_can_miss_statics :
    let count : Node := .varDecl {} (.typeRef {} (.named "int") 0) [.declarator {} "count" (.literal {} (.ofInt 7)) 0]
      ["static"]
    let get : Node := .methodDecl {} "get" [] (.blockOf [.return {} (.name {} "count")]) .absent []
    let a : Node := .classDecl {} "A" (.blockOf [count, get]) .absent [] [] false
    let b : Node := .classDecl {} "B" (.blockOf []) (.typeRef {} (.named "A") 0) [] [] false
    let asked (c : String) : Node :=
      .primary {} (.allocation {} (.typeRef {} (.named c) 0) [] .absent) [.callSuffix {} "get" []]
    ∃ r σ, (ofFuel 9).exec (.exprList {} [a, b]) ⟨.bare, .own ⟨[0]⟩⟩ = .done r σ ∧
      (∃ mark σ', (ofFuel 9).exec (asked "A") σ = .done (.value (.boxed (.int 7) mark)) σ') ∧
      ∃ v σ', (ofFuel 9).exec (asked "B") σ = .done v σ' ∧ ∀ mark, v ≠ .value (.boxed (.int 7) mark) := by
  intro count get a b asked
  have run : ((ofFuel 9).exec (.exprList {} [a, b]) ⟨.bare, .own ⟨[0]⟩⟩).doneWith fun _ σ =>
      givesInt 7 ((ofFuel 9).exec (asked "A") σ) &&
        (((ofFuel 9).exec (asked "B") σ).isDone && !givesInt 7 ((ofFuel 9).exec (asked "B") σ)) := by decide +kernel
  obtain ⟨r, σ, declared, run⟩ := Outcome.exists_of_doneWith run
  simp only [Bool.and_eq_true, Bool.not_eq_true'] at run
  obtain ⟨first, ends, other⟩ := run
  obtain ⟨v, σ', second⟩ := Outcome.exists_of_isDone ends
  refine ⟨r, σ, declared, givesInt_iff.mp first, v, σ', second, fun mark same => ?_⟩
  rw [Bool.eq_false_iff] at other
  exact other (givesInt_iff.mpr ⟨mark, σ', same ▸ second⟩)

end Evaluator

end ScriptCore
