import ScriptCore.Proofs.InstanceFields

namespace ScriptCore

theorem Action.run_bind_congr {may : May} {t : Tier} {α β : Type} {x y : Action may t α} {w : World}
    (h : x.run w = y.run w) (f : α → Action may t β) : (x >>= f).run w = (y >>= f).run w := by
  change Comp.bind x.run _ w = Comp.bind y.run _ w
  unfold Comp.bind
  rw [h]

namespace Evaluator

variable (ev : Evaluator)

def readField (full : String) (base : Value) (field : String) : Action ev.may .fault Value :=
  match base with
  | .null => Run.throwInto ⟨.attributeError, (Cause.nullPointer full).message⟩ (.nullPointer full)
  | .void => Run.fault (.undefinedWhile full)
  | .boxed .. => Run.fault (.primitiveAsObject full)
  | base => do
    let w ← Run.get
    match w.classId? base with
    | some target => Run.staticMember w.global target field
    | none => ev.hostField base field

def readFields (full : String) : Value → List String → Action ev.may .fault Value
  | base, [] => pure base
  | base, field :: rest => do
    match ← ev.readField full base field with
    | .none => Run.lapse (.resolution field)
    | v => readFields full v rest

def Direct (full : String) : Value → List String → World → Prop
  | _, [], _ => True
  | base, field :: rest, w =>
    (∀ s, base ≠ .closure s) ∧ (field = "this" → w.classId? base = none) ∧
      ∀ v w', (ev.readField full base field).run w = .done v w' → Direct full v rest w'

variable {ev} {view : View} {s : ScopeId} {w w' : World} {base v : Value} {full x field : String} {rest : List String}

theorem staticMember_scope (s s' : ScopeId) (target : Value) (other : field ≠ "this") :
    Run.staticMember s target field = Run.staticMember s' target field := by
  unfold Run.staticMember
  simp only [if_neg other]

theorem step_eq_readField (last : Option String) (depth : Nat) (apart : ∀ s, base ≠ .closure s)
    (other : field = "this" → w.classId? base = none) :
    (Run.step view ev.hostField s full false false { rest := field :: rest, last, base := some base, depth }).run w =
      (ev.readField full base field >>= fun v =>
        liftM (Run.stepTo { rest := field :: rest, last, base := some base, depth } field rest v)).run w := by
  cases base with
  | null => rfl
  | void => rfl
  | boxed p m => rfl
  | closure b => exact absurd rfl (apart b)
  | object i =>
    have ask : (Run.read fun w => w.classId? (.object i)).run w = .done (w.classId? (.object i)) w := rfl
    unfold Run.step Run.stepFrom
    dsimp only
    rw [Action.run_liftM_bind_of_done ask]
    cases id : w.classId? (.object i) with
    | none =>
      have read : (ev.readField full (.object i) field).run w = (ev.hostField (.object i) field).run w := by
        unfold readField
        rw [Action.run_get_bind]
        simp only [id]
      exact (Action.run_bind_congr read _).symm
    | some target =>
      have outside : field ≠ "this" := fun named => Option.some_ne_none _ (id.symm.trans (other named))
      have read : (ev.readField full (.object i) field).run w =
          (liftM (Run.staticMember s target field) : Action ev.may .fault Value).run w := by
        unfold readField
        rw [Action.run_get_bind]
        simp only [id, staticMember_scope w.global s target outside]
      exact (Action.run_bind_congr read _).symm
  | _ => rfl

theorem stepTo_of_some (k : Walk) (given : v ≠ .none) (w : World) :
    (Run.stepTo k field rest v).run w = .done (v, { k with rest, last := some field, base := some v }) w := by
  cases v with
  | none => exact absurd rfl given
  | _ => rfl

theorem walk_of_step (fuel : Nat) (last : Option String) (depth : Nat)
    (apart : ∀ s, base ≠ .closure s) (other : field = "this" → w.classId? base = none)
    (later : ∀ v w', (ev.readField full base field).run w = .done v w' →
      (if rest.isEmpty then pure v else
        Run.walk view ev.hostField s full false fuel { rest, last := some field, base := some v, depth }).run w' =
          (ev.readFields full v rest).run w') :
    (Run.walk view ev.hostField s full false (fuel + 1) { rest := field :: rest, last, base := some base, depth }).run w =
      (ev.readFields full base (field :: rest)).run w := by
  unfold Run.walk readFields
  rw [Action.run_bind_congr (step_eq_readField last depth apart other)]
  cases read : (ev.readField full base field).run w with
  | failed e w' => exact (Comp.bind_of_failed (Comp.bind_of_failed read)).trans (Comp.bind_of_failed read).symm
  | exhausted => exact (Comp.bind_of_exhausted (Comp.bind_of_exhausted read)).trans (Comp.bind_of_exhausted read).symm
  | done v w' =>
    rw [Action.run_bind_of_done read]
    by_cases given : v = .none
    · subst given
      exact Comp.bind_of_failed (Comp.bind_of_done read)
    · have step : (ev.readField full base field >>= fun v =>
          liftM (Run.stepTo { rest := field :: rest, last, base := some base, depth } field rest v)).run w =
            .done (v, { rest, last := some field, base := some v, depth }) w' :=
        (Action.run_bind_of_done read).trans (stepTo_of_some _ given w')
      refine (Action.run_bind_of_done step).trans ((later v w' read).trans ?_)
      cases v with
      | none => exact absurd rfl given
      | _ => rfl

theorem walk_eq_readFields (rest : List String) {fuel : Nat} (enough : rest.length ≤ fuel)
    (direct : ev.Direct full base (field :: rest) w) (last : Option String) (depth : Nat) :
    (Run.walk view ev.hostField s full false (fuel + 1) { rest := field :: rest, last, base := some base, depth }).run w =
      (ev.readFields full base (field :: rest)).run w := by
  induction rest generalizing base field w fuel last with
  | nil =>
    obtain ⟨apart, other, -⟩ := direct
    exact walk_of_step fuel last depth apart other fun v w' _ => rfl
  | cons next rest ih =>
    obtain ⟨apart, other, later⟩ := direct
    cases fuel with
    | zero => cases enough
    | succ fuel =>
      refine walk_of_step _ last depth apart other fun v w' read => ?_
      exact ih (Nat.le_of_succ_le_succ enough) (later v w' read) (some field)

theorem nameIn_eq_readFields {o : Value} {fields : List String} (plain : x ∉ ["this", "super", "global"])
    (undotted : ∀ y ∈ x :: fields, '.' ∉ y.toList) (bound : (Run.getVariable s x true).run w = .done o w')
    (defined : o ≠ .void) (given : o ≠ .none) (direct : ev.Direct (Path.join (x :: fields)) o fields w') :
    (ev.nameIn view s (Path.join (x :: fields))).run w = (ev.readFields (Path.join (x :: fields)) o fields).run w' := by
  have first := (step_of_variable ev view plain bound defined (Path.join (x :: fields)) false fields).trans
    (stepTo_of_some _ given w')
  unfold nameIn Run.resolveName
  simp only [Path.segments_join (List.cons_ne_nil x fields) undotted]
  unfold Run.walk
  refine (Action.run_bind_of_done first).trans ?_
  cases fields with
  | nil => rfl
  | cons field rest => exact walk_eq_readFields rest (Nat.le_succ_of_le (Nat.le_refl _)) direct (some x) 0

/-- A dotted name that starts with a variable is read from left to right, one field after another,
as long as there is no closure on the way and no class is asked for `this`. So from any two scopes
in which the variable has the same value the name comes to the same. -/
theorem dotted_name_reads_from_left (ev : Evaluator) {x : String} {fields : List String}
    (plain : x ∉ ["this", "super", "global"]) (undotted : ∀ y ∈ x :: fields, '.' ∉ y.toList) :
    let full := Path.join (x :: fields)
    (∀ view s w o w', (Run.getVariable s x true).run w = .done o w' → o ≠ .void → o ≠ .none → ev.Direct full o fields w' →
      (ev.nameIn view s full).run w = (ev.readFields full o fields).run w') ∧
    ∀ view view' s s' w₁ w₂ o w', (Run.getVariable s x true).run w₁ = .done o w' →
      (Run.getVariable s' x true).run w₂ = .done o w' → o ≠ .void → o ≠ .none → ev.Direct full o fields w' →
      (ev.nameIn view s full).run w₁ = (ev.nameIn view' s' full).run w₂ := by
  intro full
  constructor
  · intro view s w o w' bound defined given direct
    exact nameIn_eq_readFields plain undotted bound defined given direct
  · intro view view' s s' w₁ w₂ o w' bound bound' defined given direct
    rw [nameIn_eq_readFields plain undotted bound defined given direct,
      nameIn_eq_readFields plain undotted bound' defined given direct]

/-- A point in a variable `p` of the global scope. Its `x` is a class and its `y` another point. In
the scope of an instance of that class there is a variable `y` as well. -/
def pointWorld : World where
  scopes := #[{ registry := some 0, vars := .ofList [("p", { value := some (.object 0) })] },
    { parent := some 0, isClass := true, classInstance := some (.object 3), vars :=
      .ofList [("y", { value := some (.ofInt 7) })] }]
  objects := #[{ cls := .library .point, attrs := .ofList [("x", .object 1), ("y", .object 2)] },
    { cls := .core .classIdentifier, payload := .classId (.cls (.made 0)) },
    { cls := .library .point, attrs := .ofList [("x", .int 1), ("y", .int 2)] },
    { cls := .made 0, scope := some 1 }]
  classes := #[{ (default : MadeClass) with name := "C" }]
  registries := #[{}]

theorem dotted_name_reads_from_left_shadowed :
    let read (s : ScopeId) := ((ofFuel 1).nameIn {} s (Path.join ["p", "y", "y"])).run pointWorld
    (Run.getVariable 0 "p" true).run pointWorld = .done (.object 0) pointWorld ∧
      (Run.getVariable 1 "p" true).run pointWorld = .done (.object 0) pointWorld ∧
      (ofFuel 1).Direct (Path.join ["p", "y", "y"]) (.object 0) ["y", "y"] pointWorld ∧
      read 0 = .done (.ofInt 2) pointWorld ∧ read 1 = read 0 := by
  intro read
  have outer : (Run.getVariable 0 "p" true).run pointWorld = .done (.object 0) pointWorld := rfl
  have inner : (Run.getVariable 1 "p" true).run pointWorld = .done (.object 0) pointWorld := rfl
  have first : ((ofFuel 1).readField (Path.join ["p", "y", "y"]) (.object 0) "y").run pointWorld =
      .done (.object 2) pointWorld := rfl
  have other : "y" ≠ "this" := by decide
  have direct : (ofFuel 1).Direct (Path.join ["p", "y", "y"]) (.object 0) ["y", "y"] pointWorld := by
    refine ⟨fun _ => Value.noConfusion, fun this => absurd this other, fun v w' read => ?_⟩
    cases first.symm.trans read
    exact ⟨fun _ => Value.noConfusion, fun this => absurd this other, fun _ _ _ => trivial⟩
  have plain : "p" ∉ ["this", "super", "global"] := by decide
  have undotted : ∀ x ∈ ["p", "y", "y"], '.' ∉ x.toList := by decide
  obtain ⟨reads, same⟩ := dotted_name_reads_from_left (ofFuel 1) plain undotted
  have defined : Value.object 0 ≠ .void := Value.noConfusion
  have given : Value.object 0 ≠ .none := Value.noConfusion
  exact ⟨outer, inner, direct, reads {} 0 _ _ _ outer defined given direct,
    same {} {} 1 0 _ _ _ _ inner outer defined given direct⟩

/-- What `p.x.this` stands for depends on the scope, because the `x` of the point is a class. -/
theorem this_of_class_depends_on_scope :
    (Run.getVariable 0 "p" true).run pointWorld = .done (.object 0) pointWorld ∧
      (Run.getVariable 1 "p" true).run pointWorld = .done (.object 0) pointWorld ∧
      ((ofFuel 1).nameIn {} 1 "p.x.this").run pointWorld = .done (.object 3) pointWorld ∧
      ∃ e w, ((ofFuel 1).nameIn {} 0 "p.x.this").run pointWorld = .failed e w :=
  ⟨rfl, rfl, rfl, _, _, rfl⟩

end Evaluator

end ScriptCore
