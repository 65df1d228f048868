import ScriptCore.Proofs.InstanceFields

namespace ScriptCore

variable {σ σ' : EvalState}

theorem Eval.located_done_iff {α : Type} {intro : Option String} {node : Node} {x : Eval α}
    {a : α} : located intro node x σ = .done a σ' ↔ x σ = .done a σ' := by
  unfold located catching Comp.catching
  cases ran : x σ with
  | done b τ => exact Iff.rfl
  | exhausted => exact Iff.rfl
  | failed e τ =>
    refine iff_of_false (fun done => ?_) fun done => by cases done
    dsimp only at done
    split at done
    · next y handled =>
      split at handled
      · cases handled
        cases done
      · cases handled
    · cases done

theorem Eval.located_of_internal {α : Type} {x : Eval α} {message : String} (intro : Option String)
    (node : Node) (h : x σ = .failed (.internal message) σ') : located intro node x σ = .failed (.internal message) σ' := by
  simp only [located, catching, Comp.catching, h, World.seen]

theorem Eval.liftM_done_iff {may : May} {t : Tier} {α : Type} {x : Action may t α} {a : α} :
    (liftM x : Eval α) σ = .done a σ' ↔ ∃ w', x.run σ.world = .done a w' ∧ σ' = ⟨w', σ.running⟩ := by
  change Eval.lift x.run σ = _ ↔ _
  unfold Eval.lift
  cases x.run σ.world with
  | done b w =>
    constructor
    · intro done
      cases done
      exact ⟨w, rfl, rfl⟩
    · rintro ⟨_, done, rfl⟩
      cases done
      rfl
  | failed e w => exact iff_of_false (fun done => by cases done) (by rintro ⟨_, done, -⟩; cases done)
  | exhausted => exact iff_of_false (fun done => by cases done) (by rintro ⟨_, done, -⟩; cases done)

namespace Evaluator

variable (ev : Evaluator) {n : Nat} {σ σ' : EvalState} {a v : Value} {node target : Node} {path f : String} {inst : ScopeId}
variable {place : Place} {l l' : Origin}

theorem asValue_ending (v : Value) (σ : EvalState) : Eval.asValue (σ.world.ending v) σ = .done v σ := by
  unfold World.ending
  split
  · split <;> rfl
  · rfl

theorem eval_done_iff (rule : (ofFuel n).evalNode node = Eval.endingWith ((ofFuel n).valueOf node)) :
    (ofFuel (n + 1)).eval node σ = .done a σ' ↔ (ofFuel n).valueOf node σ = .done a σ' := by
  have run : (ofFuel (n + 1)).eval node σ = (Eval.endingWith ((ofFuel n).valueOf node) >>= Eval.asValue) σ := by
    rw [← rule]
    rfl
  rw [run]
  cases ran : (ofFuel n).valueOf node σ with
  | done v τ =>
    have ended : Eval.endingWith ((ofFuel n).valueOf node) σ = .done (τ.world.ending v) τ := Comp.bind_of_done ran
    rw [Comp.bind_of_done ended, asValue_ending]
  | failed e τ =>
    have ended : Eval.endingWith ((ofFuel n).valueOf node) σ = .failed e τ := Comp.bind_of_failed ran
    rw [Comp.bind_of_failed ended]
  | exhausted =>
    have ended : Eval.endingWith ((ofFuel n).valueOf node) σ = .exhausted := Comp.bind_of_exhausted ran
    rw [Comp.bind_of_exhausted ended]

theorem view_of_unmentioned (unmentioned : View.mentions path = false) (σ : EvalState) :
    Eval.view path σ = .done { frames := σ.frames } σ := by
  unfold Eval.view
  simp only [unmentioned, Bool.false_eq_true, if_false]
  rfl

theorem nameValue_eq (unmentioned : View.mentions path = false) :
    ∃ m k, ev.nameValue node path σ =
      Eval.located none node (liftM (ev.nameIn { frames := σ.frames } (σ.frames.headD 0) path))
      ⟨σ.world.remembering m k, σ.running⟩ := by
  obtain ⟨r, m, k, held, -⟩ := Run.resolverFor_eq σ.world (σ.frames.headD 0) path
  refine ⟨m, k, ?_⟩
  have steps : (do
      let s ← Eval.top
      let _ ← Run.resolverFor s path
      ev.resolveName s path : Eval Value) σ =
        (liftM (ev.nameIn { frames := σ.frames } (σ.frames.headD 0) path) : Eval Value)
          ⟨σ.world.remembering m k, σ.running⟩ :=
    (Eval.lift_bind_of_done held).trans (Comp.bind_of_done (view_of_unmentioned unmentioned _))
  unfold nameValue Eval.located Eval.catching Comp.catching
  rw [steps]

theorem nameValue_of_run (unmentioned : View.mentions path = false)
    (run : ∀ view m k, (ev.nameIn view (σ.frames.headD 0) path).run (σ.world.remembering m k) =
      .done v (σ.world.remembering m k)) :
    ∃ m k, ev.nameValue node path σ = .done v ⟨σ.world.remembering m k, σ.running⟩ := by
  obtain ⟨m, k, same⟩ := nameValue_eq ev unmentioned
  exact ⟨m, k, same.trans (Eval.located_done_iff.mpr (Eval.liftM_of_done (run _ m k) σ.running))⟩

theorem placeOf_of_run {l : Origin} (unmentioned : View.mentions path = false)
    (run : ∀ view m k, (ev.placeIn view (σ.frames.headD 0) path).run (σ.world.remembering m k) =
      .done place (σ.world.remembering m k)) :
    ∃ m k, ev.placeOf (.name l path) σ = .done place ⟨σ.world.remembering m k, σ.running⟩ := by
  obtain ⟨r, m, k, held, -⟩ := Run.resolverFor_eq σ.world (σ.frames.headD 0) path
  refine ⟨m, k, ?_⟩
  unfold placeOf
  refine Eval.located_done_iff.mpr ?_
  refine (Eval.lift_bind_of_done held).trans ?_
  refine (Comp.bind_of_done (view_of_unmentioned unmentioned _)).trans ?_
  exact Eval.liftM_of_done (run _ m k) σ.running

theorem assignment_done_iff {l : Origin} {τ : EvalState} (defined : v ≠ .void)
    (placed : (ofFuel (n + 1)).placeOf target σ = .done place τ) :
    (ofFuel (n + 1)).assignment node target .plain (.literal l v) σ = .done a σ' ↔
      ∃ w', (place.assign (ofFuel (n + 1)) v τ.world.settings.strict).run τ.world = .done a w' ∧ σ' = ⟨w', τ.running⟩ := by
  have value : (ofFuel (n + 1)).eval (.literal l v) τ = .done v τ := (eval_done_iff rfl).mpr rfl
  have run : (ofFuel (n + 1)).assignment node target .plain (.literal l v) σ =
      Eval.located none node (liftM (place.assign (ofFuel (n + 1)) v τ.world.settings.strict)) τ := by
    unfold assignment
    refine (Comp.bind_of_done placed).trans ?_
    refine (Comp.bind_of_done value).trans ?_
    split
    · exact absurd rfl defined
    · rfl
  rw [run, Eval.located_done_iff, Eval.liftM_done_iff]

def Reads (n : Nat) (σ : EvalState) (node : Node) (v : Value) : Prop :=
  ∃ m k, (ofFuel n).eval node σ = .done v ⟨σ.world.remembering m k, σ.running⟩

/-- The node does what an action does, apart from what is remembered about names, and evaluates to
the value. It succeeds just when the action does. -/
def Stores {may : May} {t : Tier} (n : Nat) (σ : EvalState) (node : Node) (v : Value) (x : Action may t Unit) : Prop :=
  ∃ m k, ∀ a σ', (ofFuel n).eval node σ = .done a σ' ↔
    a = v ∧ ∃ w', x.run (σ.world.remembering m k) = .done () w' ∧ σ' = ⟨w', σ.running⟩

theorem stores_of_placeOf {may : May} {t : Tier} {x : Action may t Unit} (defined : v ≠ .void)
    (placed : ∃ m k, (ofFuel (n + 1)).placeOf target σ = .done place ⟨σ.world.remembering m k, σ.running⟩)
    (assigned : ∀ m k a w', (place.assign (ofFuel (n + 1)) v σ.world.settings.strict).run
      (σ.world.remembering m k) = .done a w' ↔
      a = v ∧ x.run (σ.world.remembering m k) = .done () w') :
    Stores (n + 2) σ (.assignment l target .plain (.literal l' v)) v x := by
  obtain ⟨m, k, placed⟩ := placed
  refine ⟨m, k, fun a σ' => ?_⟩
  rw [eval_done_iff rfl]
  refine (assignment_done_iff defined placed).trans ?_
  constructor
  · rintro ⟨w', done, rfl⟩
    obtain ⟨same, stored⟩ := (assigned m k a w').mp done
    exact ⟨same, w', stored, rfl⟩
  · rintro ⟨rfl, w', done, rfl⟩
    exact ⟨w', (assigned m k a w').mpr ⟨rfl, done⟩, rfl⟩

theorem stores_named {isLocal : Bool} {b : Binding} (given : v ≠ .none) (defined : v ≠ .void)
    (noBlock : (σ.world.scope inst).isBlock = false)
    (placed : ∃ m k, (ofFuel (n + 1)).placeOf target σ = .done (.named inst f isLocal) ⟨σ.world.remembering m k, σ.running⟩)
    (found : (Run.findBinding inst f (!isLocal)).run σ.world = .done (some b) σ.world) :
    Stores (n + 2) σ (.assignment l target .plain (.literal l' v)) v (Run.writeBinding b v) := by
  refine stores_of_placeOf defined placed fun m k a w' => ?_
  have noBlock : ((σ.world.remembering m k).scope inst).isBlock = false := noBlock
  rw [assign_named_done_iff, Run.setVariable_of_noBlock noBlock,
    Run.bindIn_of_found given ((Run.Oblivious.findBinding inst f _).of_done found m k)]

theorem stores_new (given : v ≠ .none) (defined : v ≠ .void) (noBlock : (σ.world.scope inst).isBlock = false)
    (placed : ∃ m k, (ofFuel (n + 1)).placeOf target σ = .done (.named inst f true) ⟨σ.world.remembering m k, σ.running⟩)
    (unknown : (Run.localBindingOf inst f).run σ.world = .done none σ.world) : if σ.world.settings.strict then
      ∀ a σ', (ofFuel (n + 2)).eval (.assignment l target .plain (.literal l' v)) σ ≠ .done a σ'
    else
      Stores (n + 2) σ (.assignment l target .plain (.literal l' v)) v
        (Run.declareVariable inst f .untyped (some v) {}) := by
  have assigned (m : Array Memory) (k : Nat) (strict : Bool) (a : Value) (w' : World) :
      ((Place.named inst f true).assign (ofFuel (n + 1)) v strict).run (σ.world.remembering m k) = .done a w' ↔
        a = v ∧ (if strict then (Run.fault (.strictUndeclared f) : Faulty Unit).run (σ.world.remembering m k)
          else (Run.declareVariable inst f .untyped (some v) {}).run (σ.world.remembering m k)) = .done () w' := by
    have noBlock : ((σ.world.remembering m k).scope inst).isBlock = false := noBlock
    have none := (Run.Oblivious.findBinding inst f false).of_done ((Run.findBinding_here inst f).trans unknown) m k
    rw [assign_named_done_iff, Run.setVariable_of_noBlock noBlock, Bool.not_true, Run.bindIn_of_unknown given none]
  cases strict : σ.world.settings.strict with
  | false =>
    refine stores_of_placeOf defined placed fun m k a w' => ?_
    rw [strict]
    exact assigned m k false a w'
  | true =>
    intro a σ' done
    obtain ⟨m, k, placed⟩ := placed
    obtain ⟨w', stored, -⟩ := (assignment_done_iff defined placed).mp ((eval_done_iff rfl).mp done)
    have strict : (σ.world.remembering m k).settings.strict = true := strict
    rw [strict] at stored
    cases ((assigned m k true a w').mp stored).2

section Forms

variable {i : ObjectId} {l l₁ l₂ l₃ : Origin} {x : String}
  (holds : σ.world.HoldsInstance (σ.frames.headD 0) x i inst)
include holds

theorem reads_dotted {t : ScopeId} (name : '.' ∉ f.toList) (unmentioned : View.mentions (x ++ "." ++ f) = false)
    (declared : σ.world.classVariable? inst (σ.world.obj i).cls f = some t) (exposed : σ.world.Exposes i f) :
    Reads (n + 1) σ (.name l (x ++ "." ++ f)) (σ.world.wrap (σ.world.variableValue t f)) := by
  have read (m : Array Memory) (k : Nat) : ((ofFuel n).hostField (.object i) f).run (σ.world.remembering m k) =
      .done (σ.world.wrap (σ.world.variableValue t f)) (σ.world.remembering m k) :=
    hostField_of_exposes _ (exposed.remembering m k) holds.scope declared
  obtain ⟨m, k, run⟩ := nameValue_of_run _ unmentioned fun view m k =>
    nameIn_dotted _ view (holds.remembering m k) name (read m k) (σ.world.wrap_ne_none _)
  exact ⟨m, k, (eval_done_iff rfl).mpr run⟩

theorem placeOf_dotted (name : '.' ∉ f.toList) (unmentioned : View.mentions (x ++ "." ++ f) = false) :
    ∃ m k, ev.placeOf (.name l (x ++ "." ++ f)) σ = .done (.named inst f true) ⟨σ.world.remembering m k, σ.running⟩ :=
  placeOf_of_run ev unmentioned fun view m k => placeIn_dotted ev view (holds.remembering m k) name

theorem eval_base (unmentioned : View.mentions x = false) :
    ∃ m k, (ofFuel (n + 1)).eval (.name l x) σ = .done (.object i) ⟨σ.world.remembering m k, σ.running⟩ := by
  obtain ⟨m, k, run⟩ := nameValue_of_run (ofFuel n) unmentioned fun view m k =>
    nameIn_plain _ view (holds.remembering m k)
  exact ⟨m, k, (eval_done_iff rfl).mpr run⟩

theorem reads_suffixed (unmentioned : View.mentions x = false)
    (value : ∀ m k, ((ofFuel (n + 1)).fieldValue (σ.frames.headD 0) (.object i) f).run (σ.world.remembering m k) =
      .done a (σ.world.remembering m k)) : Reads (n + 2) σ (.primary l₁ (.name l₂ x) [.fieldSuffix l₃ f]) a := by
  obtain ⟨m, k, base⟩ := eval_base (n := n) (l := l₂) holds unmentioned
  refine ⟨m, k, (eval_done_iff rfl).mpr ?_⟩
  have suffix : (ofFuel (n + 1)).suffixValue (.fieldSuffix l₃ f) (.object i) ⟨σ.world.remembering m k, σ.running⟩ =
      .done a ⟨σ.world.remembering m k, σ.running⟩ := by
    unfold suffixValue atSuffix
    exact Eval.catching_of_done (Eval.liftM_of_done (value m k) σ.running)
  refine (Comp.bind_of_done base).trans ?_
  exact Comp.bind_of_done suffix

theorem placeOf_suffixed (unmentioned : View.mentions x = false) {found : Option Binding}
    (run : (Run.findBinding inst f true).run σ.world = .done found σ.world) :
    ∃ m k, (ofFuel (n + 1)).placeOf (.primary l₁ (.name l₂ x) [.fieldSuffix l₃ f]) σ =
      .done (if found.isSome then .named inst f false else .field (.object i) (.ofString f))
        ⟨σ.world.remembering m k, σ.running⟩ := by
  obtain ⟨m, k, base⟩ := eval_base (n := n) (l := l₂) holds unmentioned
  have place := fieldPlace_of_run (holds.remembering m k) ((Run.Oblivious.findBinding inst f true).of_done run m k)
  refine ⟨m, k, ?_⟩
  unfold placeOf
  refine (Comp.bind_of_done base).trans ?_
  unfold suffixesPlace suffixPlace atSuffix
  exact Eval.catching_of_done (Eval.liftM_of_done place σ.running)

end Forms

theorem mentions_of_dotted {x f : String} (hx : '.' ∉ x.toList) (hf : '.' ∉ f.toList)
    (unmentioned : View.mentions (x ++ "." ++ f) = false) : View.mentions x = false := by
  rw [View.mentions, Path.segments_dotted hx hf] at unmentioned
  rw [View.mentions, Path.segments_of_plain hx]
  simp_all

/-- A field of an instance by a dotted name and by a suffix. The dotted name reads the variable that
the host finds, the suffix what the name stands for around the instance. What the scope of the
instance itself knows, both forms assign to alike. If it knows nothing, the dotted name makes a new
variable of the instance, or is refused if variables have to be declared, and the suffix goes to
what the name stands for around the instance, or else to the variable that the host finds. -/
theorem field_access_by_dot_and_suffix {n : Nat} {σ : EvalState} {x f : String} {i : ObjectId} {inst : ScopeId} {v : Value}
    (holds : σ.world.HoldsInstance (σ.frames.headD 0) x i inst) (name : '.' ∉ f.toList)
    (unmentioned : View.mentions (x ++ "." ++ f) = false) (given : v ≠ .none) (defined : v ≠ .void)
    (l l₁ l₂ l₃ l₄ : Origin) :
    let w := σ.world
    let dotted : Node := .name l (x ++ "." ++ f)
    let suffixed : Node := .primary l₁ (.name l₂ x) [.fieldSuffix l₃ f]
    let set (target : Node) : Node := .assignment l₄ target .plain (.literal l v)
    let seen (t : ScopeId) (a : Value) : Prop := w.classVariable? inst (w.obj i).cls f = some t ∧ w.Exposes i f ∧
      (Run.readBinding (.held t f)).run w = .done a w
    (∀ t a, seen t a → Reads (n + 2) σ dotted (w.wrap a.unwrap) ∧ (w.wrap a.unwrap = a ↔ w.Native a)) ∧
    (∀ b, (Run.findBinding inst f true).run w = .done (some b) w →
      (∀ a, (Run.readBinding b).run w = .done a w → Reads (n + 2) σ suffixed a) ∧
      Stores (n + 2) σ (set suffixed) v (Run.writeBinding b v)) ∧
    (∀ t a, (Run.findBinding inst f true).run w = .done none w → seen t a →
      Reads (n + 2) σ suffixed (w.wrap a.unwrap) ∧
      Stores (n + 2) σ (set suffixed) v (Run.assignVariable t f (w.wrap v.unwrap) false)) ∧
    (∀ b, (Run.localBindingOf inst f).run w = .done (some b) w →
      (Run.findBinding inst f true).run w = .done (some b) w ∧ Stores (n + 2) σ (set dotted) v (Run.writeBinding b v)) ∧
    ((Run.localBindingOf inst f).run w = .done none w →
      if w.settings.strict then ∀ a σ', (ofFuel (n + 2)).eval (set dotted) σ ≠ .done a σ'
      else Stores (n + 2) σ (set dotted) v (Run.declareVariable inst f .untyped (some v) {})) := by
  intro w dotted suffixed set seen
  have unmentionedBase := mentions_of_dotted holds.name name unmentioned
  have placed := placeOf_dotted (ofFuel (n + 1)) (l := l) holds name unmentioned
  refine ⟨?_, fun b found => ⟨fun a read => ?_, ?_⟩, ?_, fun b own => ⟨Run.findBinding_of_own own, ?_⟩, fun none => ?_⟩
  · rintro t a ⟨declared, exposed, value⟩
    have read := reads_dotted (n := n + 1) (l := l) holds name unmentioned declared exposed
    rw [World.variableValue_of_read value] at read
    exact ⟨read, w.wrap_unwrap_eq_iff a⟩
  · refine reads_suffixed holds unmentionedBase fun m k => ?_
    rw [fieldValue_of_found _ (holds.remembering m k) ((Run.Oblivious.findBinding inst f true).of_done found m k)]
    exact (Run.Oblivious.readBinding b).of_done read m k
  · exact stores_named given defined holds.noBlock (placeOf_suffixed holds unmentionedBase found) found
  · rintro t a unknown ⟨declared, exposed, value⟩
    rw [← World.variableValue_of_read value]
    refine ⟨reads_suffixed holds unmentionedBase fun m k => ?_, ?_⟩
    · exact fieldValue_of_unknown _ (holds.remembering m k) (exposed.remembering m k) declared
        ((Run.Oblivious.findBinding inst f true).of_done unknown m k)
    · refine stores_of_placeOf defined (placeOf_suffixed holds unmentionedBase unknown) fun m k a w' => ?_
      exact assign_field_done_iff _ (exposed.remembering m k) holds.scope declared
  · exact stores_named given defined holds.noBlock placed ((Run.findBinding_here inst f).trans own)
  · exact stores_new given defined holds.noBlock placed none

/-- An object of a class with a static variable `s`. The object has a variable `b` of the type
`byte`. -/
def fieldWorld : World where
  scopes := #[{ registry := some 0, vars := .ofList [("x", { value := some (.object 0) })] },
    { parent := some 0, isClass := true, vars := .ofList [("s", { type := .prim .int, value := some (.ofInt 1) })] },
    { parent := some 1, isClass := true, vars :=
      .ofList [("b", { type := .prim .byte, value := some (.boxed (.byte 7) 0) })] }]
  objects := #[{ cls := .made 0, scope := some 2 }]
  classes := #[{ (default : MadeClass) with
    name := "A", members := .ofList [("__getattr__", .function (.generated 0)), ("__setattr__", .function (.generated 1))]
    script := some { (default : ScriptPart) with staticScope := 1 } }]
  functions := #[.readVariable, .writeVariable]
  registries := #[{}]

/-- By the dotted name the byte is read as an integer, and by the suffix as the byte that it is.
Both forms assign to it alike. To the static variable only the suffix assigns, and the dotted name
makes another one. -/
theorem field_access_by_dot_and_suffix_byte :
    let σ : EvalState := ⟨fieldWorld, .own ⟨[0]⟩⟩
    let byte (n : Int) : Value := .boxed (.byte n) 0
    let dotted (f : String) : Node := .name {} ("x" ++ "." ++ f)
    let suffixed (f : String) : Node := .primary {} (.name {} "x") [.fieldSuffix {} f]
    let set (target : Node) : Node := .assignment {} target .plain (.literal {} (byte 5))
    fieldWorld.HoldsInstance 0 "x" 0 2 ∧ fieldWorld.Exposes 0 "b" ∧
      Reads 2 σ (dotted "b") (.ofInt 7) ∧ Reads 2 σ (suffixed "b") (byte 7) ∧
      Stores 2 σ (set (dotted "b")) (byte 5) (Run.assignVariable 2 "b" (byte 5) false) ∧
      Stores 2 σ (set (suffixed "b")) (byte 5) (Run.assignVariable 2 "b" (byte 5) false) ∧
      Stores 2 σ (set (dotted "s")) (byte 5) (Run.declareVariable 2 "s" .untyped (some (byte 5)) {}) ∧
      Stores 2 σ (set (suffixed "s")) (byte 5) (Run.assignVariable 1 "s" (byte 5) false) := by
  intro σ byte dotted suffixed set
  have holds : fieldWorld.HoldsInstance 0 "x" 0 2 := ⟨by decide, by decide, rfl, rfl, rfl, rfl, rfl⟩
  have exposes : fieldWorld.Exposes 0 "b" :=
    ⟨by decide +kernel, rfl, rfl, rfl, rfl, rfl, rfl, fun length => by simp at length⟩
  have own : (Run.localBindingOf 2 "b").run fieldWorld = .done (some (.held 2 "b")) fieldWorld := rfl
  have given : byte 5 ≠ .none := fun none => by cases none
  have defined : byte 5 ≠ .void := fun void => by cases void
  obtain ⟨byHost, found, -, known, -⟩ := field_access_by_dot_and_suffix (n := 0) (σ := σ) (f := "b") holds (by decide)
    (by decide) given defined {} {} {} {} {}
  obtain ⟨-, around, -, -, new⟩ := field_access_by_dot_and_suffix (n := 0) (σ := σ) (f := "s") holds (by decide)
    (by decide) given defined {} {} {} {} {}
  obtain ⟨here, byDot⟩ := known _ own
  obtain ⟨value, bySuffix⟩ := found _ here
  exact ⟨holds, exposes, (byHost 2 (byte 7) ⟨rfl, exposes, rfl⟩).1, value _ rfl, byDot, bySuffix, new rfl,
    (around (.held 1 "s") rfl).2⟩

def endInteger? : Outcome EvalState Ending → Option Int
  | .done (.value (.boxed (.int n) _)) _ => some n
  | _ => none

/-- A class has a static variable, and there are two instances of it. An assignment by a suffix of
one of them changes the static variable; an assignment by a dotted name of the other one leaves it.
-/
theorem dotted_assignment_leaves_static_variable :
    let number (n : Int) : Node := .literal {} (.ofInt n)
    let field : Node := .varDecl {} (.typeRef {} (.named "int") 0) [.declarator {} "s" (number 1) 0] ["static"]
    let made : Node := .allocation {} (.typeRef {} (.named "A") 0) [] .absent
    let start : Node := .exprList {} [.classDecl {} "A" (.blockOf [field]) .absent [] [] false,
      .assignment {} (.name {} "x") .plain made, .assignment {} (.name {} "y") .plain made]
    let bySuffix : Node := .assignment {} (.primary {} (.name {} "y") [.fieldSuffix {} "s"]) .plain (number 5)
    let byDot : Node := .assignment {} (.name {} "x.s") .plain (number 6)
    let static (σ : EvalState) : Option Int := endInteger? ((ofFuel 9).exec (.name {} "A.s") σ)
    ∃ r₁ σ₁ r₂ σ₂ r₃ σ₃, (ofFuel 9).exec start ⟨.bare, .own ⟨[0]⟩⟩ = .done r₁ σ₁ ∧
      (ofFuel 9).exec bySuffix σ₁ = .done r₂ σ₂ ∧ (ofFuel 9).exec byDot σ₂ = .done r₃ σ₃ ∧
      static σ₁ = some 1 ∧ static σ₂ = some 5 ∧ static σ₃ = some 5 := by
  intro number field made start bySuffix byDot static
  have run : ((ofFuel 9).exec start ⟨.bare, .own ⟨[0]⟩⟩).doneWith fun _ σ₁ =>
      ((ofFuel 9).exec bySuffix σ₁).doneWith fun _ σ₂ => ((ofFuel 9).exec byDot σ₂).doneWith fun _ σ₃ =>
        decide (static σ₁ = some 1 ∧ static σ₂ = some 5 ∧ static σ₃ = some 5) := by decide +kernel
  obtain ⟨r₁, σ₁, started, run⟩ := Outcome.exists_of_doneWith run
  obtain ⟨r₂, σ₂, changed, run⟩ := Outcome.exists_of_doneWith run
  obtain ⟨r₃, σ₃, left, run⟩ := Outcome.exists_of_doneWith run
  exact ⟨r₁, σ₁, r₂, σ₂, r₃, σ₃, started, changed, left, of_decide_eq_true run⟩

end Evaluator

end ScriptCore
