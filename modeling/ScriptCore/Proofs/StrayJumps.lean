import ScriptCore.Interpreter
import ScriptCore.Proofs.Gives

namespace ScriptCore

namespace Eval

variable {α β : Type} {s : ScopeId} {x : Eval α} {a : α} {σ σ' : EvalState}

theorem withFrame_of_done (h : x (σ.setFrames (s :: σ.frames)) = .done a σ') :
    withFrame s x σ = (pop >>= fun _ => pure a) σ' := by
  change Comp.ensuring x pop (σ.setFrames (s :: σ.frames)) = _
  unfold Comp.ensuring
  rw [h]
  rfl

theorem withFrame_bind_of_done {f : α → Eval β} (h : x (σ.setFrames (s :: σ.frames)) = .done a σ') :
    (withFrame s x >>= f) σ = (pop >>= fun _ => f a) σ' := by
  calc (withFrame s x >>= f) σ
    _ = (pop >>= (fun _ => pure a) >>= f) σ' := by
      change Comp.bind (withFrame s x) f σ = Comp.bind (pop >>= fun _ => pure a) f σ'
      unfold Comp.bind
      rw [withFrame_of_done h]
    _ = (pop >>= fun _ => f a) σ' := by
      rw [Comp.bind_assoc]
      rfl

theorem pop_of_frames (h : σ.frames ≠ []) : pop σ = .done () (σ.setFrames σ.frames.tail) := by
  have looked : frames σ = .done σ.frames σ := rfl
  obtain ⟨top, rest, running⟩ := List.exists_cons_of_ne_nil h
  unfold pop
  rw [Comp.bind_of_done looked, running]
  rfl

theorem pop_of_none (h : σ.frames = []) : pop σ = .failed (.internal "pop on empty CallStack") σ := by
  have looked : frames σ = .done σ.frames σ := rfl
  unfold pop
  rw [Comp.bind_of_done looked, h]
  rfl

theorem pop_bind_unit : (pop >>= fun _ => pure ()) σ = pop σ := by
  by_cases empty : σ.frames = []
  · rw [Comp.bind_of_failed (pop_of_none empty), pop_of_none empty]
  · rw [Comp.bind_of_done (pop_of_frames empty), pop_of_frames empty]
    rfl

end Eval

namespace Evaluator

variable {ev : Evaluator} {σ σ₁ σ₂ : EvalState} {r : Ending} {args : List Value} {caller : Node}

/-- What a call of a method does before its body runs. The scope of the call is on top of the call
stack then. -/
def enterMethod (m : Method) (args : List Value) (caller : Node) : Eval Unit := do
  let s ← openMethod m args caller
  Eval.push s
  noteCall m s

theorem runBody_of_done {m : Method} (entered : enterMethod m args caller σ = .done () σ₁)
    (ran : ev.execHere m.body σ₁ = .done r σ₂) :
    ev.runBody m args caller σ =
      (Eval.pop >>= fun _ => returned r σ₂.frames >>= fun value => convertReturned m r value) σ₂ := by
  obtain ⟨s, _, opened, entered⟩ := Comp.bind_done_iff.mp entered
  obtain ⟨_, _, pushed, logged⟩ := Comp.bind_done_iff.mp entered
  cases pushed
  unfold runBody
  rw [Comp.bind_of_done opened]
  refine (Eval.withFrame_bind_of_done (a := (r, σ₂.frames)) ?_).trans rfl
  exact (Comp.bind_of_done logged).trans (Comp.bind_of_done ran)

/-- What the part of a class in a construction does before the statements of its constructor that
are left run. The scope of the constructor is on top of the call stack then. -/
def enterConstructor (ev : Evaluator) (fuel : Nat) (v : Value) (c : ClassRef) (inst : ScopeId)
    (args : List Value) (caller : Node) (calling : Option Nat) : Eval (List Node) := do
  let w ← Run.get
  let k ← openConstructor w c inst args caller calling
  Eval.push k.frame
  ev.beginConstructor (fun c args caller calling => ev.constructLevel fuel v c inst args caller calling) w v c inst args
    caller k
  pure (remaining k.statements)

theorem constructLevel_of_done {fuel : Nat} {v : Value} {c : ClassRef} {inst : ScopeId} {calling : Option Nat}
    {remaining : List Node} (entered : ev.enterConstructor fuel v c inst args caller calling σ = .done remaining σ₁)
    (ran : ev.runStatements remaining σ₁ = .done r σ₂) :
    ev.constructLevel (fuel + 1) v c inst args caller calling σ = Eval.pop σ₂ := by
  obtain ⟨w, _, read, entered⟩ := Comp.bind_done_iff.mp entered
  cases read
  obtain ⟨k, _, opened, entered⟩ := Comp.bind_done_iff.mp entered
  obtain ⟨_, _, ⟨⟩, entered⟩ := Comp.bind_done_iff.mp entered
  obtain ⟨_, _, begun, entered⟩ := Comp.bind_done_iff.mp entered
  cases entered
  unfold constructLevel
  refine (Comp.bind_of_done (x := (liftM Run.get : Eval World)) rfl).trans ((Comp.bind_of_done opened).trans ?_)
  refine (Eval.withFrame_of_done (a := ()) ?_).trans (Eval.pop_bind_unit (σ := σ₂))
  exact (Comp.bind_of_done begun).trans (Comp.bind_of_done ran)

/-- A method whose body ends with a jump that is no `return` fails, with an error at the jump unless
the body has taken all frames off the call stack. The part of a class in a construction completes
however the body of its constructor ends. -/
theorem methods_report_stray_jumps (ev : Evaluator) :
    (∀ m args caller σ σ₁ sig k σ₂, m.member = none → enterMethod m args caller σ = .done () σ₁ →
      ev.execHere m.body σ₁ = .done (.signal sig k) σ₂ → sig.kind ≠ .return →
      ev.invoke m args caller σ =
        if σ₂.frames = [] then .failed (.internal "pop on empty CallStack") σ₂
        else .failed (.report { message := Cause.jumpInMethod.message, node := sig.node, stack := some σ₂.frames })
          (σ₂.setFrames σ₂.frames.tail)) ∧
    ∀ fuel v c inst args caller calling σ remaining σ₁ r σ₂,
      ev.enterConstructor fuel v c inst args caller calling σ = .done remaining σ₁ →
      ev.runStatements remaining σ₁ = .done r σ₂ →
      ev.constructLevel (fuel + 1) v c inst args caller calling σ =
        if σ₂.frames = [] then .failed (.internal "pop on empty CallStack") σ₂ else .done ()
          (σ₂.setFrames σ₂.frames.tail) := by
  refine ⟨fun m args caller σ σ₁ sig k σ₂ scripted entered ran stray => ?_,
    fun fuel v c inst args caller calling σ remaining σ₁ r σ₂ entered ran => ?_⟩
  · have run : ev.invoke m args caller σ = ev.runBody m args caller σ := by
      unfold invoke
      rw [scripted]
    rw [run, runBody_of_done entered ran]
    split
    · next empty => exact Comp.bind_of_failed (Eval.pop_of_none empty)
    · next frames =>
      have refused : returned (.signal sig k) σ₂.frames = Comp.fail (.report
          { message := Cause.jumpInMethod.message, node := sig.node, stack := some σ₂.frames }) := if_neg stray
      rw [Comp.bind_of_done (Eval.pop_of_frames frames), refused]
      rfl
  · rw [constructLevel_of_done entered ran]
    split
    · next empty => exact Eval.pop_of_none empty
    · next frames => exact Eval.pop_of_frames frames

def breakingWorld : World where
  scopes := #[{ registry := some 0 }, { parent := some 0, isClass := true }]
  classes := #[{ (default : MadeClass) with
    name := "A"
    script := some { (default : ScriptPart) with
      staticScope := 1, body := { constructors := [.methodDecl {} "A" [] (.blockOf [.break {} none]) .absent []] } } }]
  registries := #[{}]

def strays (o : Outcome EvalState Ending) : Bool :=
  o.doneWith fun r σ => r.signal?.any (fun sig => decide (sig.kind ≠ .return)) && !σ.frames.isEmpty

theorem exists_of_strays {o : Outcome EvalState Ending} (h : strays o) :
    ∃ sig k σ, o = .done (.signal sig k) σ ∧ sig.kind ≠ .return ∧ σ.frames ≠ [] := by
  obtain ⟨r, σ, done, h⟩ := Outcome.exists_of_doneWith h
  cases r with
  | value => cases h
  | signal sig k => exact ⟨sig, k, σ, done, by simpa [Ending.signal?] using h⟩

/-- A call of a method that consists of a `break` is refused, and the part of a class completes
whose constructor does. -/
theorem methods_report_stray_jumps_breaking :
    let m : Method := { name := "f", home := 0, body := .blockOf [.break {} none] }
    let σ : EvalState := ⟨breakingWorld, .own ⟨[0]⟩⟩
    (∃ e σ', (ofFuel 9).invoke m [] .absent σ = .failed (.report e) σ' ∧ e.message =
      "'continue' or 'break' in method body") ∧
      ∃ σ', (ofFuel 9).constructLevel 9 (.object 0) (.made 0) 0 [] .absent none σ = .done () σ' := by
  intro m σ
  obtain ⟨methods, constructors⟩ := methods_report_stray_jumps (ofFuel 9)
  have method : (enterMethod m [] .absent σ).doneWith fun _ σ₁ => strays ((ofFuel 9).execHere m.body σ₁) := rfl
  have constructor : ((ofFuel 9).enterConstructor 8 (.object 0) (.made 0) 0 [] .absent none σ).doneWith fun remaining σ₁ =>
      strays ((ofFuel 9).runStatements remaining σ₁) := rfl
  obtain ⟨⟨⟩, σ₁, entered, ran⟩ := Outcome.exists_of_doneWith method
  obtain ⟨sig, k, σ₂, ran, stray, frames⟩ := exists_of_strays ran
  have refused := methods m [] .absent σ σ₁ sig k σ₂ rfl entered ran stray
  rw [if_neg frames] at refused
  obtain ⟨remaining, τ₁, begun, ended⟩ := Outcome.exists_of_doneWith constructor
  obtain ⟨jump, n, τ₂, ended, -, left⟩ := exists_of_strays ended
  have completed := constructors 8 (.object 0) (.made 0) 0 [] .absent none σ remaining τ₁ (.signal jump n) τ₂ begun ended
  rw [if_neg left] at completed
  exact ⟨⟨_, _, refused, rfl⟩, _, completed⟩

theorem constructor_can_end_with_break :
    ¬∀ (ev : Evaluator) fuel v c inst args caller calling σ remaining σ₁ sig k σ₂,
      ev.enterConstructor fuel v c inst args caller calling σ = .done remaining σ₁ →
      ev.runStatements remaining σ₁ = .done (.signal sig k) σ₂ → sig.kind ≠ .return →
      ∃ report σ', ev.constructLevel (fuel + 1) v c inst args caller calling σ = .failed (.report report) σ' := by
  intro always
  let σ : EvalState := ⟨breakingWorld, .own ⟨[0]⟩⟩
  have entered : ((ofFuel 9).enterConstructor 8 (.object 0) (.made 0) 0 [] .absent none σ).doneWith fun remaining σ₁ =>
      strays ((ofFuel 9).runStatements remaining σ₁) := rfl
  obtain ⟨remaining, σ₁, entered, ran⟩ := Outcome.exists_of_doneWith entered
  obtain ⟨sig, k, σ₂, ran, stray, frames⟩ := exists_of_strays ran
  obtain ⟨report, σ', failed⟩ := always (ofFuel 9) 8 _ _ _ _ _ _ σ remaining σ₁ sig k σ₂ entered ran stray
  rw [constructLevel_of_done entered ran, Eval.pop_of_frames frames] at failed
  cases failed

end Evaluator

end ScriptCore
