import ScriptCore.Proofs.AllocatedPaths
import ScriptCore.Proofs.FieldAccess
import ScriptCore.Proofs.InheritedBodies

namespace ScriptCore

namespace World

variable {w : World} {i l : ObjectId}

def listed (w : World) (l : ObjectId) : List Value := (w.itemsOf? (.object l)).getD []

/-- An array whose elements stand in the list `l`. -/
structure ElementsIn (w : World) (i l : ObjectId) : Prop where
  cls : (w.obj i).cls = .core .array
  payload : ∃ c, (w.obj i).payload = .array c (.object l)

theorem ElementsIn.isInstance (h : w.ElementsIn i l) (c : CoreClass) :
    w.isInstance (.object i) (.core c) = w.isSubclass (.core .array) (.core c) := by
  rw [World.isInstance, classOf, h.cls]

theorem ElementsIn.array? (h : w.ElementsIn i l) : ∃ c, w.array? (.object i) = some (c, w.listed l) := by
  obtain ⟨c, payload⟩ := h.payload
  have array : w.isInstance (.object i) (.core .array) := by
    rw [h.isInstance]
    rfl
  refine ⟨c, ?_⟩
  simp only [World.array?, payload?, payload, array, if_true, listed]

end World

namespace Run

variable {w w' : World} {s : ScopeId} {name : String} {v : Value}

/-- A variable is gone, and nothing else has happened to variables. -/
structure Unset (w w' : World) (s : ScopeId) (name : String) : Prop where
  gone : (w'.scope s).vars.contains name = false
  others : ∀ u y, u ≠ s ∨ y ≠ name → (w'.scope u).vars.get? y = (w.scope u).vars.get? y
  scope : ∀ u, ∃ vars, w'.scope u = { w.scope u with vars }
  size : w'.scopes.size = w.scopes.size

theorem exists_unset (w : World) (s : ScopeId) (name : String) :
    ∃ w', (unsetVariable s name).run w = .done () w' ∧ Unset w w' s name := by
  cases held : (w.scope s).vars.contains name with
  | false =>
    refine ⟨w, ?_, held, fun _ _ _ => rfl, fun u => ⟨(w.scope u).vars, rfl⟩, rfl⟩
    unfold unsetVariable
    rw [Action.run_read_bind]
    simp only [held, Bool.false_eq_true, if_false]
    rfl
  | true =>
    obtain ⟨x, found⟩ := Option.isSome_iff_exists.mp held
    have inside : s < w.scopes.size := World.inside_of_held found
    let w₁ := w.setVars s fun vars => vars.erase name
    have here : w₁.scope s = { w.scope s with vars := (w.scope s).vars.erase name } := by
      rw [World.scope_setVars, if_pos ⟨rfl, inside⟩]
    have elsewhere (u : ScopeId) (hu : u ≠ s) : w₁.scope u = w.scope u := by
      rw [World.scope_setVars, if_neg fun h => hu h.1.symm]
    refine ⟨w₁.modifyMemory s Memory.forgotten, ?_, ?_, fun u y apart => ?_, fun u => ?_, ?_⟩
    · unfold unsetVariable
      rw [Action.run_read_bind]
      simp only [held, if_true]
      rfl
    · change (w₁.scope s).vars.contains name = false
      rw [here]
      simp [Table.contains]
    · change (w₁.scope u).vars.get? y = _
      by_cases hu : u = s
      · subst hu
        rw [here]
        exact Table.get?_erase_ne _ (Ne.symm (apart.resolve_left fun ne => ne rfl))
      · rw [elsewhere u hu]
    · change ∃ vars, w₁.scope u = _
      by_cases hu : u = s
      · subst hu
        exact ⟨_, here⟩
      · exact ⟨_, elsewhere u hu⟩
    · simp [w₁, World.setVars, World.modifyScope, World.modifyMemory]

theorem Unset.importTargets {w₁ : World} (h : Unset w w₁ s name) (u : ScopeId) :
    w₁.importTargets u = w.importTargets u := by
  obtain ⟨vars, same⟩ := h.scope u
  rw [World.importTargets, World.importTargets, same]

theorem Unset.wroteOnly {w₁ : World} {x : Variable} (h : Unset w w₁ s name)
    (k : w₁.WroteOnly w' s name x) : w.WroteOnly w' s name x where
  written := k.written
  others u y apart := (k.others u y apart).trans (h.others u y apart)
  scope u := by
    obtain ⟨vars, same⟩ := h.scope u
    obtain ⟨vars', proxies, same'⟩ := k.scope u
    exact ⟨vars', proxies, by rw [same', same]⟩

theorem findBinding_local (imports : w.importTargets s = []) (name : String) :
    (findBinding s name false).run w = .done (if (w.scope s).vars.contains name then some (.held s name) else none) w := by
  rw [findBinding_here, localBindingOf_plain imports]

end Run

/-- The outcome when a scope has been put back on top of the call stack. That cannot be done if a
script has emptied the stack. -/
def Outcome.withTop {α : Type} (top : ScopeId) : Outcome EvalState α → Outcome EvalState α
  | .done a τ =>
    if τ.frames = [] then .failed (.internal "swap on empty CallStack") τ else .done a (τ.setFrames (top :: τ.frames.tail))
  | .failed e τ =>
    if τ.frames = [] then .failed (.internal "swap on empty CallStack") τ else .failed e
      (τ.setFrames (top :: τ.frames.tail))
  | .exhausted => .exhausted

theorem Outcome.withTop_eq_exhausted {α : Type} {top : ScopeId} {out : Outcome EvalState α} :
    out.withTop top = .exhausted ↔ out = .exhausted := by
  cases out with
  | exhausted => exact Iff.rfl
  | done a τ | failed e τ =>
    by_cases empty : τ.frames = [] <;> simp [withTop, empty]

theorem EvalState.frames_setFrames {σ : EvalState} (running : σ.frames ≠ []) (fs : List ScopeId) :
    (σ.setFrames fs).frames = fs := by
  obtain ⟨w, own | n⟩ := σ
  · rfl
  · have inside : n < w.sharedStacks.size := by
      refine Nat.lt_of_not_le fun outside => running ?_
      change (w.stack n).frames = []
      rw [World.stack, Array.getElem?_eq_none outside]
      rfl
    simp [frames, setFrames, World.stack, inside, Array.getElem_modify]

theorem EvalState.world_setFrames (σ : EvalState) (fs : List ScopeId) :
    ∃ shared, (σ.setFrames fs).world = { σ.world with sharedStacks := shared } := by
  obtain ⟨w, own | n⟩ := σ
  · exact ⟨w.sharedStacks, rfl⟩
  · exact ⟨_, rfl⟩

namespace Eval

variable {α : Type} {x : Eval α} {s top : ScopeId} {rest : List ScopeId} {σ : EvalState}

theorem swap_of_frames (h : σ.frames = top :: rest) : swap s σ = .done top (σ.setFrames (s :: rest)) := by
  have looked : frames σ = .done σ.frames σ := rfl
  unfold swap
  rw [Comp.bind_of_done looked, h]
  rfl

theorem swap_of_none (h : σ.frames = []) : swap s σ = .failed (.internal "swap on empty CallStack") σ := by
  have looked : frames σ = .done σ.frames σ := rfl
  unfold swap
  rw [Comp.bind_of_done looked, h]
  rfl

theorem inPlace_of_frames (h : σ.frames = top :: rest) : inPlace s x σ = (x (σ.setFrames (s :: rest))).withTop top := by
  have back {β : Type} (y : Eval β) (τ : EvalState) : ((swap top >>= fun _ => pure ()) >>= fun _ => y) τ =
      if τ.frames = [] then .failed (.internal "swap on empty CallStack") τ else y
        (τ.setFrames (top :: τ.frames.tail)) := by
    cases frames : τ.frames with
    | nil => rw [Comp.bind_of_failed (Comp.bind_of_failed (swap_of_none frames)), if_pos rfl]
    | cons t rest =>
      have swapped : (swap top >>= fun _ => pure ()) τ = .done () (τ.setFrames (top :: rest)) :=
        Comp.bind_of_done (swap_of_frames frames)
      rw [Comp.bind_of_done swapped, if_neg (by simp)]
      rfl
  unfold inPlace
  rw [Comp.bind_of_done (swap_of_frames h)]
  unfold Comp.ensuring
  cases x (σ.setFrames (s :: rest)) with
  | done a τ => exact back (pure a) τ
  | failed e τ => exact back (Comp.fail e) τ
  | exhausted => rfl

end Eval

namespace Evaluator

namespace LoopVariable

/-- Nothing in the scope of the loop gets in the way of the loop variable: nothing is imported
there, and if the loop declares no type, a variable of the name that is there is loose and not
final. -/
structure IsFree (x : LoopVariable) (w : World) : Prop where
  imports : w.importTargets x.scope = []
  loose : x.typed = false → ∀ y, (w.scope x.scope).vars.get? x.name = some y → y.type = .untyped ∧ y.isFinal = false

/-- An element can be converted to the type of the loop variable, when the variable of the turn
before is gone. -/
def Converts (x : LoopVariable) (v : Value) (w : World) (u : Value) : Prop :=
  ∃ w₁ w₂, (Run.unsetVariable x.scope x.name).run w = .done () w₁ ∧ (Run.cast v x.type .cast).run w₁ = .done u w₂

/-- The loop variable has got an element: it holds what the element converts to, is what its name
stands for in the scope of the loop, and is the only variable that was written. -/
structure Took (x : LoopVariable) (v : Value) (w w' : World) : Prop where
  value : ∃ u y, x.Converts v w u ∧ y.type = x.type ∧ y.value = some u ∧ (x.typed → y.modifiers = x.modifiers) ∧
    w.WroteOnly w' x.scope x.name y ∧ (Run.getVariable x.scope x.name true).run w' = .done u w'

variable {x : LoopVariable} {v : Value} {w w' : World}

theorem took_of_wroteOnly {u : Value} {y : Variable} (free : x.IsFree w)
    (converts : x.Converts v w u) (type : y.type = x.type)
    (value : y.value = some u) (modifiers : x.typed → y.modifiers = x.modifiers) (wrote : w.WroteOnly w' x.scope x.name y) :
    x.Took v w w' := by
  have imports : w'.importTargets x.scope = [] := (wrote.importTargets x.scope).trans free.imports
  have read := Run.getVariable_own imports wrote.written true
  rw [value] at read
  exact ⟨u, y, converts, type, value, modifiers, wrote, read⟩

theorem set_typed {w₁ : World} (typed : x.typed = true) (free : x.IsFree w) (given : v ≠ .none)
    (unset : (Run.unsetVariable x.scope x.name).run w = .done () w₁) (gone : Run.Unset w w₁ x.scope x.name) :
    (x.set v).run w = (Run.declareVariable x.scope x.name x.type (some v) x.modifiers).run w₁ := by
  have imports : w₁.importTargets x.scope = [] := (gone.importTargets x.scope).trans free.imports
  have search := Run.findBinding_local imports x.name
  rw [gone.gone] at search
  unfold set
  rw [if_pos typed, Action.run_liftM_bind_of_done unset, Run.given_of_ne given]
  change (Run.setTypedVariable x.scope x.name x.type (some v) x.modifiers).run w₁ = _
  unfold Run.setTypedVariable
  rw [Action.run_liftM_bind_of_done search]
  rfl

theorem set_loose (loose : x.typed = false) (free : x.IsFree w) (given : v ≠ .none) :
    (x.set v).run w =
      (if (w.scope x.scope).vars.contains x.name then Run.assignVariable x.scope x.name v false
        else Run.declareVariable x.scope x.name .untyped (some v) {}).run w := by
  have search := Run.findBinding_local free.imports x.name
  unfold set
  rw [if_neg (by simp [loose])]
  unfold Run.setBlockVariable Run.bindIn
  split
  · exact absurd rfl given
  · rw [Action.run_liftM_bind_of_done search]
    cases (w.scope x.scope).vars.contains x.name <;> rfl

theorem converts_loose (type : x.type = .untyped) (v : Value) (w : World) : x.Converts v w v := by
  obtain ⟨w₁, unset, -⟩ := Run.exists_unset w x.scope x.name
  refine ⟨w₁, w₁, unset, ?_⟩
  rw [type]
  rfl

theorem declaredValue_some_iff {t : Ty} {modifiers : Modifiers} {held : Option Value} :
    (Run.declaredValue t (some v) modifiers).run w = .done held w' ↔
      ∃ u, held = some u ∧ (Run.cast v t .cast).run w = .done u w' := by
  have run : (Run.declaredValue t (some v) modifiers).run w =
      ((Run.cast v t .cast).run >>= fun u => (pure (some u) : Faulty (Option Value)).run) w := by
    simp only [Run.declaredValue, Option.isNone_some, Bool.and_false, Bool.false_eq_true, if_false, Option.getD_some]
    rfl
  rw [run, Comp.bind_done_iff]
  constructor
  · rintro ⟨u, w₂, cast, same⟩
    cases same
    exact ⟨u, rfl, cast⟩
  · rintro ⟨u, rfl, cast⟩
    exact ⟨u, w', cast, rfl⟩

theorem set_done_iff (untyped : x.typed = false → x.type = .untyped) (free : x.IsFree w)
    (given : v ≠ .none) : (∃ w', (x.set v).run w = .done () w') ↔ ∃ u, x.Converts v w u := by
  cases kind : x.typed with
  | true =>
    obtain ⟨w₁, unset, gone⟩ := Run.exists_unset w x.scope x.name
    rw [set_typed kind free given unset gone]
    constructor
    · rintro ⟨w', done⟩
      obtain ⟨held, w₂, run, -⟩ := Comp.bind_done_iff.mp done
      obtain ⟨u, -, cast⟩ := declaredValue_some_iff.mp run
      exact ⟨u, w₁, w₂, unset, cast⟩
    · rintro ⟨u, w₁', w₂, unset', cast⟩
      cases unset.symm.trans unset'
      exact ⟨_, Comp.bind_of_done (declaredValue_some_iff.mpr ⟨u, rfl, cast⟩)⟩
  | false =>
    have converts := converts_loose (untyped kind) v w
    refine iff_of_true ?_ ⟨v, converts⟩
    rw [set_loose kind free given]
    split
    · next held =>
      obtain ⟨y, held⟩ := Option.isSome_iff_exists.mp held
      obtain ⟨type, open'⟩ := free.loose kind y held
      refine (Run.assignVariable_done_iff held).mpr ⟨by rw [open']; rfl, v, w, ?_⟩
      rw [type]
      rfl
    · exact ⟨_, rfl⟩

theorem took_of_set (inside : x.scope < w.scopes.size) (untyped : x.typed = false → x.type = .untyped) (free : x.IsFree w)
    (given : v ≠ .none) (h : (x.set v).run w = .done () w') : x.Took v w w' := by
  cases kind : x.typed with
  | true =>
    obtain ⟨w₁, unset, gone⟩ := Run.exists_unset w x.scope x.name
    rw [set_typed kind free given unset gone] at h
    obtain ⟨held, w₂, run, -, wrote⟩ := Run.declareVariable_done (gone.size ▸ inside) h
    obtain ⟨u, rfl, cast⟩ := declaredValue_some_iff.mp run
    exact took_of_wroteOnly free ⟨w₁, w₂, unset, cast⟩ rfl rfl (fun _ => rfl) (gone.wroteOnly wrote)
  | false =>
    have converts := converts_loose (untyped kind) v w
    have typed : x.typed → False := by simp [kind]
    rw [set_loose kind free given] at h
    split at h
    · next held =>
      obtain ⟨y, held⟩ := Option.isSome_iff_exists.mp held
      obtain ⟨type, -⟩ := free.loose kind y held
      obtain ⟨-, stored, w₂, cast, wrote⟩ := Run.assignVariable_done held h
      rw [type] at cast
      cases cast
      exact took_of_wroteOnly (y := { y with value := some v }) free converts (type.trans (untyped kind).symm) rfl
        (fun h => (typed h).elim) wrote
    · have wrote := Run.wroteOnly_declareVariable inside h
      exact took_of_wroteOnly free converts (untyped kind).symm rfl (fun h => (typed h).elim) wrote

end LoopVariable

/-- A loop over a list that holds the elements of an array. -/
structure ElementLoop where
  node : Node
  list : ObjectId
  item : LoopVariable
  body : Node

namespace ElementLoop

variable (loop : ElementLoop) (ev : Evaluator)

def header (v : Value) : Eval Unit :=
  Eval.located (some ("for loop iterator variable:" ++ loop.item.name)) loop.node (loop.item.set v)

/-- In a turn that begins in `τ`, the element at `k` is due, and the evaluation of the body begins
in `ρ`. -/
structure Starts (k : Nat) (τ : EvalState) (v : Value) (ρ : EvalState) : Prop where
  due : (τ.world.listed loop.list)[k]? = some v
  bound : loop.header v τ = .done () ρ

/-- A turn after which the loop goes on. -/
inductive Turn (k : Nat) (τ υ : EvalState) : Prop
  | mk {v ρ} (starts : loop.Starts k τ v ρ) (goesOn : ev.runLoopBody loop.body ρ = .done .goOn υ)

/-- The turns of a loop that begins in `σ`. -/
inductive Turns (σ : EvalState) : Nat → EvalState → Prop
  | start : Turns σ 0 σ
  | next {k τ υ} (earlier : Turns σ k τ) (turn : loop.Turn ev k τ υ) : Turns σ (k + 1) υ

/-- How a loop ends when `k` turns have gone by: no element is left, the loop variable does not take
the next one, or the body leaves the loop. -/
inductive Ends (k : Nat) (τ : EvalState) : Outcome EvalState Ending → Prop
  | finished (none : (τ.world.listed loop.list)[k]? = none) : Ends k τ (.done (.value .void) τ)
  | refused {v e ρ} (due : (τ.world.listed loop.list)[k]? = some v) (refusal : loop.header v τ = .failed e ρ) :
      Ends k τ (.failed e ρ)
  | left {v ρ υ} (starts : loop.Starts k τ v ρ) (jump : ev.runLoopBody loop.body ρ = .done .leave υ) :
      Ends k τ (.done (.value .void) υ)
  | returned {v ρ r υ} (starts : loop.Starts k τ v ρ) (jump : ev.runLoopBody loop.body ρ = .done (.leaveWith r) υ) :
      Ends k τ (.done r υ)
  | failed {v ρ e υ} (starts : loop.Starts k τ v ρ) (failure : ev.runLoopBody loop.body ρ = .failed e υ) :
      Ends k τ (.failed e υ)

def turnsFrom (fuel k : Nat) : Eval Ending :=
  ev.eachTurns loop.node loop.item .script loop.body fuel (.positions loop.list k)

def after (rest : Eval Ending) : LoopEnd → Eval Ending
  | .goOn => rest
  | .leave => pure (.value .void)
  | .leaveWith r => pure r

variable {loop ev} {k fuel : Nat} {σ τ υ : EvalState} {out : Outcome EvalState Ending}

theorem advance_eq (ev : Evaluator) (w : World) (l : ObjectId) (k : Nat) :
    (ev.advance (.positions l k)).run w = .done ((w.listed l)[k]?.map fun v => (v, .positions l (k + 1))) w := rfl

theorem turnsFrom_of_none (none : (τ.world.listed loop.list)[k]? = none) :
    loop.turnsFrom ev (fuel + 1) k τ = .done (.value .void) τ := by
  have advanced := advance_eq ev τ.world loop.list k
  rw [none] at advanced
  unfold turnsFrom eachTurns
  rw [Comp.bind_of_done (Eval.catching_of_done (Eval.liftM_of_done advanced τ.running))]
  rfl

theorem turnsFrom_of_some {v : Value} (due : (τ.world.listed loop.list)[k]? = some v) :
    loop.turnsFrom ev (fuel + 1) k τ =
      (loop.header v >>= fun _ => ev.runLoopBody loop.body >>= after (loop.turnsFrom ev fuel (k + 1))) τ := by
  have advanced := advance_eq ev τ.world loop.list k
  rw [due] at advanced
  unfold turnsFrom
  rw [eachTurns, Comp.bind_of_done (Eval.catching_of_done (Eval.liftM_of_done advanced τ.running))]
  rfl

theorem turnsFrom_of_starts {v : Value} {ρ : EvalState} (starts : loop.Starts k τ v ρ) :
    loop.turnsFrom ev (fuel + 1) k τ = (ev.runLoopBody loop.body >>= after (loop.turnsFrom ev fuel (k + 1))) ρ := by
  rw [turnsFrom_of_some starts.due, Comp.bind_of_done starts.bound]

theorem turnsFrom_of_turn (turn : loop.Turn ev k τ υ) :
    loop.turnsFrom ev (fuel + 1) k τ = loop.turnsFrom ev fuel (k + 1) υ := by
  obtain ⟨starts, goesOn⟩ := turn
  rw [turnsFrom_of_starts starts, Comp.bind_of_done goesOn]
  rfl

theorem turnsFrom_of_turns (turns : loop.Turns ev σ k τ) (fuel : Nat) :
    loop.turnsFrom ev (fuel + k) 0 σ = loop.turnsFrom ev fuel k τ := by
  induction turns generalizing fuel with
  | start => rfl
  | @next k τ υ _ turn ih =>
    have regrouped : fuel + (k + 1) = fuel + 1 + k := by omega
    rw [regrouped, ih, turnsFrom_of_turn turn]

theorem turnsFrom_of_ends (ends : loop.Ends ev k τ out) : loop.turnsFrom ev (fuel + 1) k τ = out := by
  cases ends with
  | finished none => exact turnsFrom_of_none none
  | refused due refusal => rw [turnsFrom_of_some due, Comp.bind_of_failed refusal]
  | left starts jump | returned starts jump =>
    rw [turnsFrom_of_starts starts, Comp.bind_of_done jump]
    rfl
  | failed starts failure => rw [turnsFrom_of_starts starts, Comp.bind_of_failed failure]

theorem ends_or_turn (loop : ElementLoop) (ev : Evaluator) (k fuel : Nat) (τ : EvalState) :
    (∃ out, loop.Ends ev k τ out) ∨ (∃ υ, loop.Turn ev k τ υ) ∨ loop.turnsFrom ev (fuel + 1) k τ = .exhausted := by
  cases due : (τ.world.listed loop.list)[k]? with
  | none => exact .inl ⟨_, .finished due⟩
  | some v =>
    cases bound : loop.header v τ with
    | failed e ρ => exact .inl ⟨_, .refused due bound⟩
    | exhausted =>
      rw [turnsFrom_of_some due, Comp.bind_of_exhausted bound]
      exact .inr (.inr rfl)
    | done _ ρ =>
      have starts : loop.Starts k τ v ρ := ⟨due, bound⟩
      cases ran : ev.runLoopBody loop.body ρ with
      | failed e υ => exact .inl ⟨_, .failed starts ran⟩
      | exhausted =>
        rw [turnsFrom_of_starts starts, Comp.bind_of_exhausted ran]
        exact .inr (.inr rfl)
      | done jump υ =>
        cases jump with
        | goOn => exact .inr (.inl ⟨υ, .mk starts ran⟩)
        | leave => exact .inl ⟨_, .left starts ran⟩
        | leaveWith r => exact .inl ⟨_, .returned starts ran⟩

theorem exists_ends (turns : loop.Turns ev σ k τ) (ran : loop.turnsFrom ev fuel k τ = out) (ended : out ≠ .exhausted) :
    ∃ m υ, m < k + fuel ∧ loop.Turns ev σ m υ ∧ loop.Ends ev m υ out := by
  -- on the turns that may still follow, wherever the loop stands
  induction fuel generalizing k τ with
  | zero => exact absurd ran.symm ended
  | succ fuel ih =>
    obtain ⟨out', ends⟩ | ⟨υ, turn⟩ | endless := ends_or_turn loop ev k fuel τ
    · have same : out' = out := (turnsFrom_of_ends ends).symm.trans ran
      subst same
      exact ⟨k, τ, by omega, turns, ends⟩
    · rw [turnsFrom_of_turn turn] at ran
      obtain ⟨m, υ', bound, later, ends⟩ := ih (turns.next turn) ran
      exact ⟨m, υ', by omega, later, ends⟩
    · exact absurd (ran.symm.trans endless) ended

theorem turnsFrom_eq_iff (ended : out ≠ .exhausted) :
    loop.turnsFrom ev fuel 0 σ = out ↔ ∃ m τ, m < fuel ∧ loop.Turns ev σ m τ ∧ loop.Ends ev m τ out := by
  constructor
  · intro ran
    obtain ⟨m, τ, bound, turns, ends⟩ := exists_ends .start ran ended
    exact ⟨m, τ, by omega, turns, ends⟩
  · intro ⟨m, τ, bound, turns, ends⟩
    obtain ⟨more, rfl⟩ : ∃ more, fuel = more + 1 + m := ⟨fuel - m - 1, by omega⟩
    rw [turnsFrom_of_turns turns, turnsFrom_of_ends ends]

theorem exists_turns (n : Nat) (each : ∀ k τ, k < n → loop.Turns ev σ k τ → ∃ υ, loop.Turn ev k τ υ) :
    ∃ τ, loop.Turns ev σ n τ := by
  induction n with
  | zero => exact ⟨σ, .start⟩
  | succ n ih =>
    obtain ⟨τ, turns⟩ := ih fun k τ hk => each k τ (by omega)
    obtain ⟨υ, turn⟩ := each n τ (by omega) turns
    exact ⟨υ, turns.next turn⟩

end ElementLoop

variable {ev : Evaluator} {σ : EvalState} {i l : ObjectId}

theorem loopItems_of_array (array : σ.world.ElementsIn i l) (node : Node) :
    ev.loopItems node (.object i) σ = .done (.positions l 0, .script) σ := by
  obtain ⟨c, payload⟩ := array.payload
  obtain ⟨c', known⟩ := array.array?
  have isArray : σ.world.isArray (.object i) = true := by rw [World.isArray, known]; rfl
  have iterable : σ.world.isInstance (.object i) (.core .iterable) = true := by
    rw [array.isInstance]
    rfl
  have answers : σ.world.answer (.object i) "__iter__" = .core .array := by
    rw [World.answer, World.classOf, array.cls]
    rfl
  have cursor : (ev.cursorOf (.object i)).run σ.world = .done (.positions l 0) σ.world := by
    unfold cursorOf
    rw [Action.run_get_bind]
    simp only [answers]
    unfold coreCursor
    simp only [World.payload?, payload]
    rfl
  unfold loopItems
  rw [Eval.get_bind]
  simp only [iterable, isArray]
  exact Comp.bind_of_done (Eval.liftM_of_done cursor σ.running)

/-- The state in which the first turn of a loop begins: a new block stands on top of the call stack,
in the place of the scope around. -/
def entering (σ : EvalState) (top : ScopeId) (rest : List ScopeId) : EvalState :=
  let block : Scope := { name := (σ.world.scope top).name ++ "/BlockNameSpace", parent := some top, isBlock := true }
  EvalState.setFrames ⟨{ σ.world with scopes := σ.world.scopes.push block }, σ.running⟩ (σ.world.scopes.size :: rest)

/-- Nothing but a new scope has been added, in which nothing gets in the way of the loop variable.
-/
structure Entered (σ σ₀ : EvalState) (x : LoopVariable) (rest : List ScopeId) : Prop where
  frames : σ₀.frames = x.scope :: rest
  objects : σ₀.world.objects = σ.world.objects
  older : ∀ u < x.scope, σ₀.world.scope u = σ.world.scope u
  inside : x.scope < σ₀.world.scopes.size
  free : x.IsFree σ₀.world

variable {top : ScopeId} {rest : List ScopeId} {loop : ElementLoop}

theorem entered {x : LoopVariable} (frames : σ.frames = top :: rest)
    (scope : x.scope = σ.world.scopes.size) : Entered σ (entering σ top rest) x rest := by
  let block : Scope := { name := (σ.world.scope top).name ++ "/BlockNameSpace", parent := some top, isBlock := true }
  let σ₁ : EvalState := ⟨{ σ.world with scopes := σ.world.scopes.push block }, σ.running⟩
  obtain ⟨shared, world⟩ := σ₁.world_setFrames (σ.world.scopes.size :: rest)
  have scopes : (entering σ top rest).world.scopes = σ.world.scopes.push block := congrArg World.scopes world
  have new : (entering σ top rest).world.scope x.scope = block := by simp [World.scope, scopes, scope]
  refine ⟨?_, (congrArg World.objects world :), fun u hu => ?_, by simp [scopes, scope], ?_, fun _ z held => ?_⟩
  · have running : σ₁.frames ≠ [] := by
      change σ.frames ≠ []
      simp [frames]
    rw [scope]
    exact EvalState.frames_setFrames running _
  · rw [scope] at hu
    simp [World.scope, scopes, Array.getElem?_push, Nat.ne_of_lt hu]
  · rw [World.importTargets, new]
    rfl
  · rw [new] at held
    cases held

theorem newBlock_inPlace {y : ScopeId → Eval Ending} (frames : σ.frames = top :: rest) :
    (Eval.newBlock >>= fun s => Eval.inPlace s (y s)) σ = (y σ.world.scopes.size (entering σ top rest)).withTop top := by
  have looked : Eval.frames σ = .done σ.frames σ := rfl
  unfold Eval.newBlock
  rw [Comp.bind_assoc, Comp.bind_of_done looked, frames]
  exact (Comp.bind_of_done (Eval.liftM_of_done (x := Run.newBlock top none) rfl σ.running)).trans
    (Eval.inPlace_of_frames frames)

theorem ElementLoop.Turns.sameFrames {fuel k : Nat} {σ₀ τ : EvalState}
    (turns : loop.Turns (ofFuel fuel) σ₀ k τ) : σ₀.world.SameFrames τ.world := by
  -- whatever runs in a turn, scopes stay where they are
  have sound : (ofFuel fuel).Sound .unrestricted := .ofFuel fuel fun _ _ _ _ => trivial
  induction turns with
  | start => exact .refl _
  | next _ turn ih =>
    obtain @⟨v, _, starts, goesOn⟩ := turn
    have header : (loop.header v).Sound .unrestricted .proper fun _ => True := .located (sound.lift _)
    have bound := (header.since _).of_done starts.bound
    have body := ((sound.runLoopBody (Terms.allows_unrestricted _ loop.body)).since _).of_done goesOn
    exact ih.trans (bound.frames.trans body.frames)

theorem holder?_of_took {x : LoopVariable} {v : Value} {w w' : World} {top : ScopeId}
    (took : x.Took v w w') (older : top < x.scope)
    (y : String) : w'.holder? top y = w.holder? top y := by
  obtain ⟨u, z, -, -, -, -, wrote, -⟩ := took.value
  have same : ∀ t ∈ w.ancestry top, (w'.scope t).vars.contains y = (w.scope t).vars.contains y := by
    intro t ht
    have other : t ≠ x.scope := by
      rcases World.mem_ancestry ht with rfl | ⟨near, -⟩
      · exact Nat.ne_of_lt older
      · exact Nat.ne_of_lt (Nat.lt_trans near older)
    rw [Table.contains, Table.contains, wrote.others t y (.inl other)]
  unfold World.holder?
  rw [wrote.ancestry top, ← List.head?_filter, ← List.head?_filter, List.filter_congr same]

theorem untyped_of_absent {type : Node} {t : Ty} {σ' : EvalState} (resolved : resolveType type σ = .done t σ')
    (absent : (!type.isAbsent) = false) : t = .untyped := by
  cases type with
  | absent =>
    cases resolved
    rfl
  | _ => cases absent

theorem ElementLoop.header_done_iff {v : Value} {τ ρ : EvalState} :
    loop.header v τ = .done () ρ ↔ ∃ w', (loop.item.set v).run τ.world = .done () w' ∧ ρ = ⟨w', τ.running⟩ := by
  rw [header, Eval.located_done_iff, Eval.liftM_done_iff]

/-- No turn leaves the loop: each time the loop variable is free, the element can be converted, and
the body lets the loop go on. -/
def ElementLoop.NeverLeft (loop : ElementLoop) (ev : Evaluator) (σ₀ : EvalState) : Prop :=
  ∀ k τ v, loop.Turns ev σ₀ k τ → (τ.world.listed loop.list)[k]? = some v →
    loop.item.IsFree τ.world ∧ v ≠ .none ∧ (∃ u, loop.item.Converts v τ.world u) ∧
      ∀ ρ, loop.header v τ = .done () ρ → ∃ υ, ev.runLoopBody loop.body ρ = .done .goOn υ

theorem ElementLoop.exists_header_iff {v : Value} {τ : EvalState}
    (untyped : loop.item.typed = false → loop.item.type = .untyped) (free : loop.item.IsFree τ.world) (given : v ≠ .none) :
    (∃ ρ, loop.header v τ = .done () ρ) ↔ ∃ u, loop.item.Converts v τ.world u := by
  rw [← LoopVariable.set_done_iff untyped free given]
  constructor
  · intro ⟨ρ, done⟩
    obtain ⟨w', stored, -⟩ := header_done_iff.mp done
    exact ⟨w', stored⟩
  · intro ⟨w', stored⟩
    exact ⟨_, header_done_iff.mpr ⟨w', stored, rfl⟩⟩

theorem ElementLoop.NeverLeft.turn {ev : Evaluator} {σ₀ τ : EvalState} {k : Nat} (h : loop.NeverLeft ev σ₀)
    (untyped : loop.item.typed = false → loop.item.type = .untyped) (turns : loop.Turns ev σ₀ k τ)
    (left : k < (τ.world.listed loop.list).length) : ∃ υ, loop.Turn ev k τ υ := by
  have due := List.getElem?_eq_getElem left
  obtain ⟨free, given, converts, goesOn⟩ := h k τ _ turns due
  obtain ⟨ρ, bound⟩ := (exists_header_iff untyped free given).mpr converts
  obtain ⟨υ, goesOn⟩ := goesOn ρ bound
  exact ⟨υ, .mk ⟨due, bound⟩ goesOn⟩

section

variable {fuel : Nat} {o : Origin} {name : String} {iterable body type : Node} {modifierNames : List String}
  {σ₁ σ₂ σ₃ : EvalState} {t : Ty} {modifiers : Modifiers}
  (evaluated : (ofFuel fuel).eval iterable σ = .done (.object i) σ₁) (array : σ₁.world.ElementsIn i l)
  (resolved : resolveType type σ₁ = .done t σ₂)
  (modified : modifiersOf .field modifierNames (.forEach o name iterable body type modifierNames) σ₂ = .done modifiers σ₃)
  (frames : σ₃.frames = top :: rest)
include evaluated array resolved modified frames

theorem exec_of_array :
    let node := .forEach o name iterable body type modifierNames
    let x : LoopVariable := ⟨σ₃.world.scopes.size, name, !type.isAbsent, t, modifiers⟩
    (ofFuel (fuel + 1)).exec node σ =
      (ElementLoop.turnsFrom ⟨node, l, x, body⟩ (ofFuel fuel) fuel 0 (entering σ₃ top rest)).withTop top := by
  intro node x
  -- a loop may take as many turns as there are levels below it
  have levels : (ofFuel fuel).fuel = fuel := by cases fuel <;> rfl
  let turns (s : ScopeId) : Eval Ending :=
    (ofFuel fuel).eachTurns node ⟨s, name, !type.isAbsent, t, modifiers⟩ .script body (ofFuel fuel).fuel (.positions l 0)
  have same : turns x.scope = ElementLoop.turnsFrom ⟨node, l, x, body⟩ (ofFuel fuel) fuel 0 := by
    simp only [turns, levels]
    rfl
  rw [← same]
  refine (Comp.bind_of_done evaluated).trans ?_
  refine (Comp.bind_of_done (loopItems_of_array array node)).trans ?_
  exact (Comp.bind_of_done resolved).trans ((Comp.bind_of_done modified).trans (newBlock_inPlace frames))

/-- A loop over an array takes the elements of its list one by one, as they are when it is their
turn. It ends when there is none at the next position, when the loop variable cannot take one, or
when the body leaves it. As long as the list has `n` elements, the body is evaluated `n` times at
most, and just so often if every turn goes by. Where nothing in the scope of the loop gets in the
way, the variable holds what the element converts to, and no other variable has been written. -/
theorem array_loop_takes_each_element (inside : top < σ₃.world.scopes.size) :
    let ev := ofFuel fuel
    let node := .forEach o name iterable body type modifierNames
    let x : LoopVariable := ⟨σ₃.world.scopes.size, name, !type.isAbsent, t, modifiers⟩
    let loop : ElementLoop := ⟨node, l, x, body⟩
    let σ₀ := entering σ₃ top rest
    Entered σ₃ σ₀ x rest ∧
      (∀ out, out ≠ .exhausted → ((ofFuel (fuel + 1)).exec node σ = out ↔
        ∃ m τ before, m < fuel ∧ loop.Turns ev σ₀ m τ ∧ loop.Ends ev m τ before ∧ out = before.withTop top)) ∧
      (∀ n, (∀ k τ, loop.Turns ev σ₀ k τ → (τ.world.listed l).length = n) →
        (∀ k τ v ρ, loop.Turns ev σ₀ k τ → loop.Starts k τ v ρ → k < n) ∧
        (loop.NeverLeft ev σ₀ → n < fuel →
          ∃ τ, loop.Turns ev σ₀ n τ ∧ (ofFuel (fuel + 1)).exec node σ = (Outcome.done (.value .void) τ).withTop top)) ∧
      (∀ k τ v ρ, loop.Turns ev σ₀ k τ → loop.Starts k τ v ρ → τ.world.ElementsIn i l →
        ∃ c items, τ.world.array? (.object i) = some (c, items) ∧ items[k]? = some v) ∧
      (∀ k τ v, loop.Turns ev σ₀ k τ → x.IsFree τ.world → v ≠ .none →
        ((∃ ρ, loop.header v τ = .done () ρ) ↔ ∃ u, x.Converts v τ.world u) ∧
        ∀ ρ, loop.header v τ = .done () ρ → x.Took v τ.world ρ.world ∧
          ∀ y, ρ.world.holder? top y = τ.world.holder? top y) ∧
      ∀ (w : World) y, w.holder? top y ≠ some x.scope := by
  intro ev node x loop σ₀
  have entered : Entered σ₃ σ₀ x rest := entered frames rfl
  have ran : (ofFuel (fuel + 1)).exec node σ = (loop.turnsFrom ev fuel 0 σ₀).withTop top :=
    exec_of_array evaluated array resolved modified frames
  have untyped : x.typed = false → x.type = .untyped := untyped_of_absent resolved
  refine ⟨entered, fun out ended => ?_, fun n kept => ⟨fun k τ v ρ turns starts => ?_, fun never enough => ?_⟩,
    fun k τ v ρ turns starts whole => ?_, fun k τ v turns free given =>
      ⟨ElementLoop.exists_header_iff untyped free given, fun ρ done => ?_⟩, fun w y seen => ?_⟩
  · rw [ran]
    constructor
    · intro same
      subst same
      have ended : loop.turnsFrom ev fuel 0 σ₀ ≠ .exhausted := fun h => ended (Outcome.withTop_eq_exhausted.mpr h)
      obtain ⟨m, τ, bound, turns, ends⟩ := (ElementLoop.turnsFrom_eq_iff ended).mp rfl
      exact ⟨m, τ, _, bound, turns, ends, rfl⟩
    · intro ⟨m, τ, before, bound, turns, ends, same⟩
      subst same
      have ended : before ≠ .exhausted := fun h => ended (Outcome.withTop_eq_exhausted.mpr h)
      rw [(ElementLoop.turnsFrom_eq_iff ended).mpr ⟨m, τ, bound, turns, ends⟩]
  · rw [← kept k τ turns]
    exact (List.getElem?_eq_some_iff.mp starts.due).1
  · obtain ⟨τ, turns⟩ := ElementLoop.exists_turns n fun k τ hk turns => never.turn untyped turns
      (by rw [kept k τ turns]; exact hk)
    have none : (τ.world.listed l)[n]? = none := by simp [kept n τ turns]
    refine ⟨τ, turns, ?_⟩
    rw [ran, (ElementLoop.turnsFrom_eq_iff (by simp)).mpr ⟨n, τ, enough, turns, .finished none⟩]
  · obtain ⟨c, known⟩ := whole.array?
    exact ⟨c, _, known, starts.due⟩
  · have there : x.scope < τ.world.scopes.size := Nat.lt_of_lt_of_le entered.inside (Grows.size turns.sameFrames)
    obtain ⟨w', stored, rfl⟩ := ElementLoop.header_done_iff.mp done
    have took := LoopVariable.took_of_set there untyped free given stored
    exact ⟨took, holder?_of_took took inside⟩
  · obtain near | ⟨near, -⟩ := World.mem_ancestry (List.mem_of_find?_eq_some seen)
    · exact Nat.ne_of_gt inside near
    · exact Nat.lt_asymm inside near

end

def pairWorld : World where
  scopes := #[{ registry := some 0 }]
  objects := #[{ cls := .core .list, payload := .list [.boxed (.int 7) 0, .boxed (.int 8) 0] },
    { cls := .core .array, payload := .array (.prim .int) (.object 0) }]
  registries := #[{}]

def LoopEnd.isGoOn : LoopEnd → Bool
  | .goOn => true
  | _ => false

/-- Whether a turn goes by, and leads to a state that passes a test. -/
def ElementLoop.turnsWith (loop : ElementLoop) (ev : Evaluator) (k : Nat) (τ : EvalState) (p : EvalState → Bool) : Bool :=
  (τ.world.listed loop.list)[k]?.any fun v =>
    (loop.header v τ).doneWith fun _ ρ => (ev.runLoopBody loop.body ρ).doneWith fun r υ => r.isGoOn && p υ

theorem ElementLoop.exists_of_turnsWith {k : Nat} {τ : EvalState} {p : EvalState → Bool}
    (h : loop.turnsWith ev k τ p) : ∃ υ, loop.Turn ev k τ υ ∧ p υ := by
  obtain ⟨v, due, h⟩ := (Option.any_eq_true _ _).mp h
  obtain ⟨_, ρ, bound, h⟩ := Outcome.exists_of_doneWith h
  obtain ⟨r, υ, body, h⟩ := Outcome.exists_of_doneWith h
  obtain ⟨goesOn, passed⟩ := Bool.and_eq_true_iff.mp h
  cases r with
  | goOn => exact ⟨υ, .mk ⟨due, bound⟩ body, passed⟩
  | _ => cases goesOn

def isInteger (n : Int) : Option Value → Bool
  | some (.boxed (.int k) 0) => k = n
  | _ => false

theorem eq_of_isInteger {n : Int} {v : Option Value} (h : isInteger n v) : v = some (.boxed (.int n) 0) := by
  unfold isInteger at h
  split at h
  · rw [of_decide_eq_true h]
  · cases h

/-- `for (final long x : a) a[1] = 9;` stores in its first turn what it takes in the second. -/
theorem array_loop_takes_each_element_storing :
    let number (n : Int) : Node := .literal {} (.boxed (.int n) 0)
    let array : Node := .literal {} (.object 1)
    let store : Node := .assignment {} (.primary {} array [.indexSuffix {} (number 1)]) .plain (number 9)
    let node : Node := .forEach {} "x" array store (.typeRef {} (.named "long") 0) ["final"]
    let x : LoopVariable := ⟨1, "x", true, .prim .long, ⟨["final"]⟩⟩
    let loop : ElementLoop := ⟨node, 0, x, store⟩
    let σ : EvalState := ⟨pairWorld, .own ⟨[0]⟩⟩
    let σ₀ := entering σ 0 []
    ∃ τ₁ ρ₁ τ₂, loop.Turns (ofFuel 5) σ₀ 1 τ₁ ∧ loop.Starts 1 τ₁ (.boxed (.int 9) 0) ρ₁ ∧
      x.Took (.boxed (.int 9) 0) τ₁.world ρ₁.world ∧ loop.Turns (ofFuel 5) σ₀ 2 τ₂ ∧
      (ofFuel 6).exec node σ = (Outcome.done (.value .void) τ₂).withTop 0 := by
  intro number array store node x loop σ σ₀
  have run : loop.turnsWith (ofFuel 5) 0 σ₀ fun τ₁ => isInteger 9 (τ₁.world.listed 0)[1]? &&
      (τ₁.world.importTargets 1).isEmpty && loop.turnsWith (ofFuel 5) 1 τ₁ fun τ₂ => (τ₂.world.listed 0).length == 2 := by
    decide +kernel
  obtain ⟨τ₁, first, run⟩ := ElementLoop.exists_of_turnsWith run
  simp only [Bool.and_eq_true, List.isEmpty_iff] at run
  obtain ⟨⟨due, imports⟩, run⟩ := run
  obtain ⟨τ₂, @⟨v, ρ₁, starts, body⟩, length⟩ := ElementLoop.exists_of_turnsWith run
  cases (eq_of_isInteger due).symm.trans starts.due
  have turns₁ : loop.Turns (ofFuel 5) σ₀ 1 τ₁ := .next .start first
  have turns₂ : loop.Turns (ofFuel 5) σ₀ 2 τ₂ := turns₁.next (.mk starts body)
  have finished : (τ₂.world.listed 0)[2]? = none := by simp [beq_iff_eq.mp length]
  have free : x.IsFree τ₁.world := ⟨imports, fun loose => by cases loose⟩
  have evaluated : (ofFuel 5).eval array σ = .done (.object 1) σ := rfl
  have modified : modifiersOf .field ["final"] node σ = .done ⟨["final"]⟩ σ := rfl
  have resolved : resolveType (.typeRef {} (.named "long") 0) σ = .done (.prim .long) σ := rfl
  obtain ⟨-, outcome, -, -, took, -⟩ :=
    array_loop_takes_each_element evaluated ⟨rfl, .prim .int, rfl⟩ resolved modified rfl (by decide)
  have ended : (Outcome.done (Ending.value .void) τ₂).withTop 0 ≠ .exhausted := by simp [Outcome.withTop_eq_exhausted]
  exact ⟨τ₁, ρ₁, τ₂, turns₁, starts, ((took 1 τ₁ _ turns₁ free (by simp)).2 ρ₁ starts.bound).1, turns₂,
    (outcome _ ended).mpr ⟨2, τ₂, _, by decide, turns₂, .finished finished, rfl⟩⟩

/-- `for (x : a) final int x = 5;` comes to an end when the second element is due, although its body
ends well. There is a third turn of `for (x : a) a.elements.append(5);`, although the array had two
elements. -/
theorem array_loop_turns_can_differ_from_length :
    let array : Node := .literal {} (.object 1)
    let five : Node := .literal {} (.boxed (.int 5) 0)
    let redeclared : Node := .varDecl {} (.typeRef {} (.named "int") 0) [.declarator {} "x" five 0] ["final"]
    let appended : Node := .primary {} array [.fieldSuffix {} "elements", .callSuffix {} "append" [five]]
    let node (body : Node) : Node := .forEach {} "x" array body .absent []
    let loop (body : Node) : ElementLoop := ⟨node body, 0, ⟨1, "x", false, .untyped, {}⟩, body⟩
    let σ : EvalState := ⟨pairWorld, .own ⟨[0]⟩⟩
    (∃ τ, (loop redeclared).Turns (ofFuel 5) (entering σ 0 []) 1 τ ∧ (τ.world.listed 0).length = 2) ∧
      (((ofFuel 6).exec (node redeclared) σ).reportsWith fun r _ =>
        r.message == "for loop iterator variable:x : Final variable 'x', can't re-assign.") ∧
      (pairWorld.listed 0).length = 2 ∧ ∃ τ, (loop appended).Turns (ofFuel 5) (entering σ 0 []) 3 τ := by
  intro array five redeclared appended node loop σ
  have refused : (loop redeclared).turnsWith (ofFuel 5) 0 (entering σ 0 []) fun τ => (τ.world.listed 0).length == 2 := by
    decide +kernel
  have grown : (loop appended).turnsWith (ofFuel 5) 0 (entering σ 0 []) fun τ₁ =>
      (loop appended).turnsWith (ofFuel 5) 1 τ₁ fun τ₂ => (loop appended).turnsWith (ofFuel 5) 2 τ₂ fun _ => true := by
    decide +kernel
  obtain ⟨τ, turn, length⟩ := ElementLoop.exists_of_turnsWith refused
  obtain ⟨τ₁, first, grown⟩ := ElementLoop.exists_of_turnsWith grown
  obtain ⟨τ₂, second, grown⟩ := ElementLoop.exists_of_turnsWith grown
  obtain ⟨τ₃, third, -⟩ := ElementLoop.exists_of_turnsWith grown
  exact ⟨⟨τ, .next .start turn, beq_iff_eq.mp length⟩, by decide +kernel, rfl, τ₃,
    .next (.next (.next .start first) second) third⟩

end Evaluator

end ScriptCore
