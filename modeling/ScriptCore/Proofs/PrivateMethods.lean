import ScriptCore.Proofs.Gives
import ScriptCore.Proofs.StorageCalls

namespace ScriptCore

namespace Run

variable {w : World}

def Steady {α : Type} (x : Faulty α) : Prop := ∀ w, x.run.Meets w (fun _ w' => w' = w) fun _ _ => True

theorem steady_firstSome {α β : Type} {xs : List α} {f : α → Faulty (Option β)}
    (h : ∀ x ∈ xs, Steady (f x)) : Steady (firstSome xs f) := by
  intro w
  induction xs with
  | nil => rfl
  | cons x rest ih =>
    unfold firstSome
    simp only [Action.meets_bind]
    refine (h x List.mem_cons_self w).impDone fun r w' same => ?_
    subst same
    cases r with
    | some b => rfl
    | none => exact ih fun y hy => h y (List.mem_cons_of_mem _ hy)

variable (s : ScopeId) (name : String)

theorem steady_declaredMethod (types : List Ty) : Steady (declaredMethod s name types) := by
  intro w
  simp only [declaredMethod, Action.meets_bind, Action.run_lift, meets_read]
  split <;> trivial

theorem steady_importedMethod (types : List Ty) : Steady (importedMethod s name types) := by
  intro w
  simp only [importedMethod, Action.meets_bind, Action.run_lift, meets_get]
  refine steady_firstSome (fun target _ v => ?_) w
  split
  · exact steady_declaredMethod _ name types v
  · simp only [Action.meets_bind]
    refine (meets_resolveMember (w.bridge s) _ name v).impDone fun r v' same => ?_
    cases r with
    | none => exact same
    | some m =>
      dsimp only
      split <;> exact same

theorem steady_localMethod (types : List Ty) : Steady (localMethod s name types) := by
  intro w
  simp only [localMethod, Action.meets_bind, Action.run_lift, meets_read]
  refine steady_firstSome (fun find hfind => ?_) w
  have : find = importedMethod ∨ find = declaredMethod := by
    split at hfind <;> simpa [or_comm] using hfind
  rcases this with rfl | rfl
  · exact steady_importedMethod s name types
  · exact steady_declaredMethod s name types

theorem steady_findMethod (types : List Ty) : Steady (findMethod s name types) := by
  intro w
  simp only [findMethod, Action.meets_bind, Action.run_lift, meets_read]
  exact steady_firstSome (fun t _ => steady_localMethod t name types) w

end Run

namespace Eval

variable {α β : Type}

theorem located_bind (intro : Option String) (node : Node) (x : Eval α) (f : α → Eval β) :
    located intro node (x >>= f) = located intro node x >>= fun a => located intro node (f a) := by
  funext σ
  simp only [located, catching, Comp.catching, Bind.bind, Comp.bind]
  cases x σ with
  | done a σ' => rfl
  | failed e σ' =>
    dsimp only
    cases σ'.world.seen e <;> rfl
  | exhausted => rfl

theorem catching_congr {x y : Eval α} {handler : World → Failure → Option (Eval α)}
    {σ σ' : EvalState} (h : x σ = y σ') : catching x handler σ = catching y handler σ' := by
  simp only [catching, Comp.catching, h]

end Eval

namespace Evaluator

variable {ev : Evaluator} {σ σ' : EvalState} {s b : ScopeId} {m : Method} {name : String} {caller : Node}
  {args values : List Value} {w : World}

def refusal (m : Method) (caller : Node) (σ : EvalState) : Failure :=
  .report { message := (Cause.privateMethod (σ.world.methodText m)).message, node := caller, stack := some σ.frames }

def Finds (w : World) (b : ScopeId) (name : String) (args : List Value) (m : Method) : Prop :=
  ∃ w', (Run.findMethod b name (w.typesOf args)).run w = .done (some m) w'

theorem Finds.run (h : Finds w b name args m) :
    (Run.findMethod b name (w.typesOf args)).run w = .done (some m) w := by
  obtain ⟨w', found⟩ := h
  have same : w' = w := (Run.steady_findMethod b name (w.typesOf args) w).of_done found
  rwa [same] at found

/-- A method is hidden from a scope if it is private and not declared around it. -/
def hidden (w : World) (s : ScopeId) (m : Method) : Bool := m.modifiers.has "private" && !w.isWithin s m.home

theorem invokeLocal_of_finds (found : Finds σ.world s name args m) :
    ev.invokeLocal s name args caller σ =
      if hidden σ.world s m then .failed (refusal m caller σ) σ else ev.invoke m args caller σ := by
  have located : Eval.located (some "Local method invocation") caller
      (Run.findMethod s name (σ.world.typesOf args)) σ = .done (some m) σ :=
    Eval.catching_of_done (Eval.liftM_of_done found.run σ.running)
  unfold invokeLocal
  refine Eval.read_bind.trans ?_
  refine (Comp.bind_of_done located).trans ?_
  refine Eval.get_bind.trans ?_
  change (if hidden σ.world s m then Eval.stop caller _ else ev.invoke m args caller) σ = _
  split <;> rfl

theorem invokeIn_of_finds (found : Finds σ.world b name (args.map hideNone) m) :
    ev.invokeIn b name args caller false (some s) σ =
      if hidden σ.world s m then .failed (refusal m caller σ) σ else ev.invoke m (args.map hideNone) caller σ := by
  have located : Eval.located (some ("Method " ++ name)) caller
      (Run.findMethod b name (σ.world.typesOf (args.map hideNone))) σ = .done (some m) σ :=
    Eval.catching_of_done (Eval.liftM_of_done found.run σ.running)
  unfold invokeIn
  refine Eval.read_bind.trans ?_
  refine (Comp.bind_of_done located).trans ?_
  refine Eval.read_bind.trans ?_
  change (if hidden σ.world s m then _ else ev.invoke m (args.map hideNone) caller) σ = _
  split
  · rfl
  · rfl

/-- A call on a closure or on an instance of a scripted class comes upon a method. What is nothing
at all among the arguments counts as null in the end; on an instance the search must know a method
for them as they are, too. -/
inductive ComesUpon (w : World) (name : String) (args : List Value) (m : Method) : Value → Prop
  | closure {b : ScopeId} (found : Finds w b name (args.map hideNone) m) : ComesUpon w name args m (.closure b)
  | instance {i : ObjectId} {b : ScopeId} (object : w.classId? (.object i) = none)
      (scope : w.instanceScope? (.object i) = some b) (known : ∃ m', Finds w b name args m')
      (found : Finds w b name (args.map hideNone) m) : ComesUpon w name args m (.object i)

theorem invokeOn_of_comesUpon {obj : Value} (h : ComesUpon σ.world name args m obj) :
    ev.invokeOn s obj name args caller σ =
      if hidden σ.world s m then .failed (refusal m caller σ) σ else ev.invoke m (args.map hideNone) caller σ := by
  cases h with
  | closure found => exact invokeIn_of_finds found
  | «instance» object scope known found =>
    obtain ⟨m', known⟩ := known
    unfold invokeOn
    refine Eval.get_bind.trans ?_
    simp only [object, scope]
    unfold invokeOnInstance
    refine Eval.get_bind.trans ?_
    refine (Eval.lift_bind_of_done known.run).trans ?_
    exact invokeIn_of_finds found

def DeclaresStatic (w : World) (target : Value) (name : String) (args : List Value) (m : Method) : Prop :=
  ∃ t w', w.staticScope? target = some t ∧ (Run.declaredMethod t name (w.typesOf args)).run w = .done (some m) w'

theorem invokeStatic_of_declares {target : Value} (h : DeclaresStatic σ.world target name args m) :
    ev.invokeStatic s target name args caller σ = ev.invoke m args caller σ := by
  obtain ⟨t, w', scope, found⟩ := h
  have same : w' = σ.world := (Run.steady_declaredMethod t name _ σ.world).of_done found
  rw [same] at found
  unfold invokeStatic
  refine Eval.get_bind.trans ?_
  simp only [scope]
  exact Eval.lift_bind_of_done found

theorem invokeOn_of_declares {obj target : Value} (isClass : σ.world.classId? obj = some target)
    (h : DeclaresStatic σ.world target name args m) :
    ev.invokeOn s obj name args caller σ = ev.invoke m args caller σ := by
  unfold World.classId? at isClass
  split at isClass
  · next i =>
    unfold invokeOn
    refine Eval.get_bind.trans ?_
    have isClass : σ.world.classId? (.object i) = some target := isClass
    simp only [isClass]
    exact invokeStatic_of_declares h
  · cases isClass

/-- What a call by a name goes to: a method in scope, a method of a value, one of a class that the
scope remembers, or the version of a method in a superclass. -/
inductive Callee where
  | scope
  | value (obj : Value)
  | remembered (target : Value)
  | above (self : Value)

def callee (ev : Evaluator) (s : ScopeId) (name : String) : Eval Callee := do
  let r ← Run.resolverFor s name
  match r.staticClass with
  | some target => pure (.remembered target)
  | none =>
    if !Path.isCompound name then pure .scope
    else do
      let owner := (Path.owner? name).getD ""
      let above ← Run.read fun w => if owner = "super" then superInstance? w s else none
      match above with
      | some self => pure (.above self)
      | none => do
        let _ ← Run.resolverFor s owner
        let view ← Eval.view name
        match ← ev.nameIn view s owner with
        | .void => Run.fault (.methodOnUndefined (Path.last name) owner)
        | obj => do
          let id ← Run.read fun w => w.classId? obj
          match id with
          | some target => Run.remember s name r fun r => { r with staticClass := some target }
          | none => pure ()
          pure (.value obj)

def Callee.call (ev : Evaluator) (s : ScopeId) (path method : String) (args : List Value)
    (caller : Node) : Callee → Eval Value
  | scope => ev.invokeLocal s path args caller
  | value obj => ev.invokeOn s obj method args caller
  | remembered target => ev.invokeStatic s target method args caller
  | above self => ev.invokeSuper s self method args caller

theorem invokeName_eq (ev : Evaluator) (s : ScopeId) (name : String) (args : List Value) (caller : Node) :
    ev.invokeName s name args caller = ev.callee s name >>= Callee.call ev s name (Path.last name) args caller := by
  unfold invokeName callee
  simp only [Comp.bind_assoc]
  refine bind_congr fun r => ?_
  cases r.staticClass with
  | some target => rfl
  | none =>
    unfold invokeAfresh
    dsimp only
    split
    · rfl
    · simp only [Comp.bind_assoc]
      refine bind_congr fun above => ?_
      cases above with
      | some self => rfl
      | none =>
        simp only [Comp.bind_assoc]
        refine bind_congr fun _ => bind_congr fun view => bind_congr fun obj => ?_
        cases obj with
        | void => rfl
        | _ =>
          dsimp only
          simp only [Comp.bind_assoc]
          refine bind_congr fun id => ?_
          cases id <;> rfl

/-- A call in a script: by a simple or dotted name, or as a suffix to a value. -/
inductive Call where
  | named (o : Origin) (path : String) (args : List Node)
  | suffix (o : Origin) (method : String) (args : List Node) (obj : Value)

namespace Call

def node : Call → Node
  | named o path args => .invocation o path args
  | suffix o method args _ => .callSuffix o method args

def path : Call → String
  | named _ path _ => path
  | suffix _ method _ _ => method

def method : Call → String
  | named _ path _ => Path.last path
  | suffix _ method _ _ => method

def eval (ev : Evaluator) : Call → Eval Value
  | named o path args => ev.valueOf (.invocation o path args)
  | suffix o method args obj => ev.suffixValue (.callSuffix o method args) obj

def prepare (ev : Evaluator) : Call → Eval (List Value × ScopeId × Callee)
  | named o path args => do
    let values ← ev.evalArgs args
    let s ← Eval.top
    Run.debug fun w => ["invoke:", path, "in", w.scopeText s]
    let c ← Eval.located none (.invocation o path args) (ev.callee s path)
    pure (values, s, c)
  | suffix _ _ args obj => do
    let values ← ev.evalArgs args
    let s ← Eval.top
    pure (values, s, .value obj)

def located : Call → Eval Value → Eval Value
  | named o path args => Eval.located none (.invocation o path args)
  | suffix o method args _ => atSuffix (.callSuffix o method args)

theorem located_congr (call : Call) {x y : Eval Value} (h : x σ = y σ') : call.located x σ = call.located y σ' := by
  cases call with
  | named o path args =>
    unfold located Eval.located
    exact Eval.catching_congr h
  | suffix o method args obj =>
    unfold located atSuffix
    exact Eval.catching_congr h

theorem located_of_report (call : Call) {x : Eval Value} {r : Report}
    (h : x σ = .failed (.report r) σ') : call.located x σ = .failed (.report r) σ' := by
  have there : x σ = (Comp.fail (.report r) : Eval Value) σ' := h
  rw [call.located_congr there]
  cases call <;> rfl

theorem eval_of_prepare {call : Call} {c : Callee} (h : call.prepare ev σ = .done (values, s, c) σ') :
    call.eval ev σ = call.located (c.call ev s call.path call.method values call.node) σ' := by
  cases call with
  | named o path args =>
    have same : ev.invocation (.invocation o path args) path args = (named o path args).prepare ev >>= fun r =>
        Eval.located none (.invocation o path args)
          (r.2.2.call ev r.2.1 path (Path.last path) r.1 (.invocation o path args)) := by
      unfold invocation prepare
      simp only [Comp.bind_assoc, invokeName_eq, Eval.located_bind]
      rfl
    change ev.invocation (.invocation o path args) path args σ = _
    rw [same]
    exact Comp.bind_of_done h
  | suffix o method args obj =>
    have evaluated : ev.evalArgs args σ = .done values σ' ∧ σ'.frames.headD 0 = s ∧ Callee.value obj = c := by
      change (ev.evalArgs args >>= fun values => Eval.top >>= fun s => pure (values, s, Callee.value obj)) σ = _ at h
      cases run : ev.evalArgs args σ with
      | done a σ₁ =>
        rw [Comp.bind_of_done run] at h
        cases h
        exact ⟨rfl, rfl, rfl⟩
      | failed e σ₁ => rw [Comp.bind_of_failed run] at h; cases h
      | exhausted => rw [Comp.bind_of_exhausted run] at h; cases h
    obtain ⟨run, rfl, rfl⟩ := evaluated
    exact located_congr (.suffix o method args obj) (Comp.bind_of_done run)

end Call

namespace Callee

/-- A call comes upon a method, which is given the arguments: in scope, or on a value that is no
class. -/
def ComesUpon (w : World) (s : ScopeId) (path method : String) (args : List Value) (m : Method)
    (given : List Value) : Callee → Prop
  | scope => Finds w s path args m ∧ given = args
  | value obj => Evaluator.ComesUpon w method args m obj ∧ given = args.map hideNone
  | _ => False

def class? (w : World) : Callee → Option Value
  | remembered target => some target
  | value obj => w.classId? obj
  | _ => none

theorem call_of_comesUpon {c : Callee} {path method : String} {given : List Value}
    (h : c.ComesUpon σ.world s path method args m given) :
    c.call ev s path method args caller σ =
      if hidden σ.world s m then .failed (refusal m caller σ) σ else ev.invoke m given caller σ := by
  cases c with
  | scope =>
    obtain ⟨found, rfl⟩ := h
    exact invokeLocal_of_finds found
  | value obj =>
    obtain ⟨found, rfl⟩ := h
    exact invokeOn_of_comesUpon found
  | remembered target => exact absurd h id
  | above self => exact absurd h id

theorem call_of_class {c : Callee} {path method : String} {target : Value}
    (isClass : c.class? σ.world = some target) (h : DeclaresStatic σ.world target method args m) :
    c.call ev s path method args caller σ = ev.invoke m args caller σ := by
  cases c with
  | scope => cases isClass
  | value obj => exact invokeOn_of_declares isClass h
  | remembered target =>
    cases isClass
    exact invokeStatic_of_declares h
  | above self => cases isClass

end Callee

/-- A call that comes upon a private method from outside the scope that declares it is refused, and
nothing has happened since the method was found; any other method is run. This goes for calls by a
simple or a dotted name and by a suffix. A static method that is called through its class is run all
the same. -/
theorem private_calls_refused (ev : Evaluator) (call : Call) {σ σ' : EvalState} {s : ScopeId} {c : Callee} {m : Method}
    {values : List Value} (prepared : call.prepare ev σ = .done (values, s, c) σ') :
    (∀ given, c.ComesUpon σ'.world s call.path call.method values m given →
      call.eval ev σ =
        if m.modifiers.has "private" && !σ'.world.isWithin s m.home then .failed (refusal m call.node σ') σ'
        else call.located (ev.invoke m given call.node) σ') ∧
    ∀ target, c.class? σ'.world = some target → DeclaresStatic σ'.world target call.method values
      m → call.eval ev σ = call.located (ev.invoke m values call.node) σ' := by
  rw [Call.eval_of_prepare prepared]
  refine ⟨fun given h => ?_, fun target isClass h => Call.located_congr _ (Callee.call_of_class isClass h)⟩
  change _ = if hidden σ'.world s m then _ else _
  have made : c.call ev s call.path call.method values call.node σ' = _ := Callee.call_of_comesUpon h
  split
  · next hid =>
    rw [if_pos hid] at made
    exact call.located_of_report made
  · next hid =>
    rw [if_neg hid] at made
    exact Call.located_congr _ made

/-- A closure that stands inside the outermost scope has a private method. A call from outside is
refused. -/
theorem private_calls_refused_on_closure :
    let m : Method := { name := "secret", home := 1, modifiers := ⟨["private"]⟩
                        body := .blockOf [.return {} (.literal {} (.ofInt 42))] }
    let w : World := { World.bare with
      scopes := #[{ vars := ⟨[("a", { value := some (.closure 1) })]⟩, registry := some 0 },
        { parent := some 0, methods := ⟨[("secret", [m])]⟩ }] }
    let call : Call := .named {} "a.secret" []
    ∃ σ', call.prepare (ofFuel 3) ⟨w, .own ⟨[0]⟩⟩ = .done ([], 0, .value (.closure 1)) σ' ∧
      (Callee.value (.closure 1)).ComesUpon σ'.world 0 call.path call.method [] m [] ∧
      call.eval (ofFuel 3) ⟨w, .own ⟨[0]⟩⟩ = .failed (refusal m call.node σ') σ' := by
  intro m w call
  obtain ⟨σ', prepared, found, outside⟩ : ∃ σ',
      call.prepare (ofFuel 3) ⟨w, .own ⟨[0]⟩⟩ = .done ([], 0, .value (.closure 1)) σ' ∧
      (Callee.value (.closure 1)).ComesUpon σ'.world 0 call.path call.method [] m [] ∧
      (m.modifiers.has "private" && !σ'.world.isWithin 0 m.home) = true :=
    ⟨_, rfl, ⟨.closure ⟨_, rfl⟩, rfl⟩, by decide +kernel⟩
  have run := (private_calls_refused (ofFuel 3) call prepared).1 [] found
  rw [if_pos outside] at run
  exact ⟨σ', prepared, found, run⟩

def givesInt (n : Int) : Outcome EvalState Ending → Bool
  | .done (.value (.boxed (.int k) _)) _ => decide (k = n)
  | _ => false

theorem givesInt_iff {n : Int} {o : Outcome EvalState Ending} :
    givesInt n o ↔ ∃ mark σ, o = .done (.value (.boxed (.int n) mark)) σ := by
  constructor
  · intro h
    unfold givesInt at h
    split at h
    · next k mark σ =>
      cases of_decide_eq_true h
      exact ⟨mark, σ, rfl⟩
    · cases h
  · rintro ⟨mark, σ, rfl⟩
    exact decide_eq_true rfl

theorem private_static_runs_through_class :
    let secret : Node := .methodDecl {} "secret" [] (.blockOf [.return {} (.literal {} (.ofInt 42))]) .absent
      ["private", "static"]
    ∃ r σ, (ofFuel 9).exec (.classDecl {} "A" (.blockOf [secret]) .absent [] [] false) ⟨.bare, .own ⟨[0]⟩⟩ = .done r σ ∧
      (∃ m ∈ ((σ.world.scope 1).methods.get? "secret").getD [],
        m.modifiers.has "private" ∧ σ.world.isWithin 0 m.home = false) ∧
      ∃ mark σ', (ofFuel 9).exec (.invocation {} "A.secret" []) σ = .done (.value (.boxed (.int 42) mark)) σ' := by
  intro secret
  have run : ((ofFuel 9).exec (.classDecl {} "A" (.blockOf [secret]) .absent [] [] false) ⟨.bare, .own ⟨[0]⟩⟩).doneWith
      fun _ σ =>
        (((σ.world.scope 1).methods.get? "secret").getD []).any
            (fun m => m.modifiers.has "private" && !σ.world.isWithin 0 m.home) &&
          givesInt 42 ((ofFuel 9).exec (.invocation {} "A.secret" []) σ) := by decide +kernel
  obtain ⟨r, σ, declared, run⟩ := Outcome.exists_of_doneWith run
  simp only [Bool.and_eq_true, List.any_eq_true, Bool.not_eq_true'] at run
  obtain ⟨⟨m, held, hidden⟩, called⟩ := run
  exact ⟨r, σ, declared, ⟨m, held, hidden⟩, givesInt_iff.mp called⟩

end Evaluator

end ScriptCore
