import Mathlib.Logic.Relation
import ScriptCore.Proofs.Hosting
import ScriptCore.Proofs.StackDiscipline

namespace ScriptCore

namespace World

variable {w w' : World} {s t : ScopeId} {m : Method} {caller : Node}

structure IsCall (w : World) (s : ScopeId) (m : Method) (caller : Node) : Prop where
  running : (w.scope s).running = some m
  caller : (w.scope s).caller = some caller

theorem IsCall.inside (h : w.IsCall s m caller) : s < w.scopes.size := by
  apply Nat.lt_of_not_le
  intro outside
  have running := h.running
  rw [scope_of_size_le outside] at running
  cases running

theorem IsCall.later (h : w.IsCall s m caller) (same : w.SameFrames w') : w'.IsCall s m caller where
  running := (same.scope h.inside).running.trans h.running
  caller := (same.scope h.inside).caller.trans h.caller

abbrev Inside (w : World) (s t : ScopeId) : Prop := Relation.ReflTransGen w.IsBlockIn s t

theorem Inside.caller_eq_none (h : w.Inside s t) (other : s ≠ t) : (w.scope s).caller = none := by
  cases h.cases_head with
  | inl same => exact absurd same other
  | inr first => exact first.choose_spec.1.caller

theorem Extends.split {ss below : List ScopeId} (h : w.Extends ss (t :: below)) :
    ∃ inner frame, ss = inner ++ frame :: below ∧ w.Inside frame t := by
  generalize eq : t :: below = k at h
  induction h generalizing t below with
  | refl => exact ⟨[], t, eq.symm, .refl⟩
  | @call s k _ ih =>
    subst eq
    obtain ⟨inner, frame, rfl, -⟩ := ih rfl
    exact ⟨inner ++ [frame], t, by simp, .refl⟩
  | block inside _ ih =>
    cases eq
    obtain ⟨inner, frame, rfl, within⟩ := ih rfl
    exact ⟨inner, frame, rfl, within.tail inside⟩

/-- Scopes count as those of methods exactly if they were made for calls. Scripts that get hold of
scopes can change this. -/
def Marked (w : World) : Prop := ∀ x ∈ w.scopes, x.isMethod = x.caller.isSome

instance (w : World) : Decidable w.Marked := inferInstanceAs (Decidable (∀ x ∈ w.scopes, x.isMethod = x.caller.isSome))

theorem Marked.scope (h : w.Marked) (s : ScopeId) : (w.scope s).isMethod = (w.scope s).caller.isSome := by
  cases hs : w.scopes[s]? with
  | none => simp [World.scope, hs]
  | some x => simpa [World.scope, hs] using h x (Array.mem_of_getElem? hs)

theorem traceEntry_of_caller_eq_none (marked : w.Marked) (h : (w.scope s).caller = none) : w.traceEntry s = "" := by
  have unmarked := marked.scope s
  rw [h] at unmarked
  simp [traceEntry, unmarked]

theorem callerInfo_of_unassigned (h : w.Unassigned ["caller_info"]) (s : ScopeId) :
    w.callerInfo s = (w.scope s).caller := by
  rw [callerInfo, h s _ List.mem_cons_self]

theorem traceEntry_of_isCall (marked : w.Marked) (unassigned : w.Unassigned ["caller_info"]) (h : w.IsCall s m caller) :
    w.traceEntry s = "\nCalled from method: " ++ w.qualifiedName s ++ " : at Line: " ++
      toString caller.line ++ " : in file: " ++ caller.file ++ " : " ++ w.nodeText caller := by
  have isMethod := marked.scope s
  rw [h.caller] at isMethod
  simp [traceEntry, isMethod, callerInfo_of_unassigned unassigned, h.caller]

theorem trace_append (w : World) (ss ts : List ScopeId) : w.trace (ss ++ ts) = w.trace ss ++ w.trace ts := by
  simp [trace]

end World

variable {α : Type} {ev : Evaluator} {c : Terms}

/-- Errors that may not come up anywhere are located on the call stack as it is. -/
def Eval.Here (c : Terms) (x : Eval α) : Prop :=
  ∀ ⦃w₀⦄ σ k, c.Kept w₀ k σ → x.Meets σ (fun _ σ' => c.Kept w₀ k σ') fun e _ =>
    e.isOutright → c.passes e ∨ ∃ r, e = .report r ∧ r.stack = some k.frames

namespace Eval.Here

theorem pure (a : α) : (Pure.pure a : Eval α).Here c := fun _ _ _ hk => hk

theorem bind {β : Type} {x : Eval α} {f : α → Eval β} (hx : x.Here c) (hf : ∀ a, (f a).Here c) : (x >>= f).Here c := by
  intro w₀ σ k hk
  rw [Comp.meets_bind]
  exact (hx σ k hk).imp fun a σ' hk' => hf a σ' k hk'

theorem lift (h : ev.Sound c) {may : May} {t : Tier} [i : May.Within may ev.may]
    (x : Action may t α) : (monadLift x : Eval α).Here c := by
  intro w₀ σ k hk
  refine Eval.meets_lift.mpr ((x.meets σ.world).mono (fun a w' ran => ?_) fun e w' ran ho => ?_)
  · obtain ⟨fits, same⟩ := h.reaches i.step ran hk.fits
    exact hk.world fits same
  · exact .inl (h.passes_may hk.fits (ran.2.passed ho))

theorem showing (hd : c.Discreet) {f : List ScopeId → Report} (shows : ∀ fs, (f fs).stack = some fs) :
    (Eval.frames >>= fun fs => Comp.fail (.report (f fs)) : Eval α).Here c := by
  intro w₀ σ k hk ho
  refine .inr ⟨f σ.frames, rfl, ?_⟩
  rw [shows, hk.frames hd]

theorem stop (hd : c.Discreet) (n : Node) (cause : Cause) : (Eval.stop n cause : Eval α).Here c := showing hd fun _ => rfl

theorem catching (h : ev.Sound c) {may : May} {t : Tier} [i : May.Within may ev.may] (x : Action may t α)
    {handler : World → Failure → Option (Eval α)} (hh : ∀ w e y, handler w e = some y → y.Here c) :
    (Eval.catching (monadLift x) handler).Here c := by
  intro w₀ σ k hk
  rw [Eval.meets_catching]
  refine Eval.meets_lift.mpr ((x.meets σ.world).mono (fun a w' ran => ?_) fun e w' ran => ?_)
  · obtain ⟨fits, same⟩ := h.reaches i.step ran hk.fits
    exact hk.world fits same
  · obtain ⟨fits, same⟩ := h.reaches i.step ran.1 hk.fits
    split
    · next y hy => exact hh _ e y hy _ k (hk.world fits same)
    · exact fun ho => .inl (h.passes_may hk.fits (ran.2.passed ho))

theorem located (h : ev.Sound c) (hd : c.Discreet) {may : May} {t : Tier} [May.Within may ev.may] (intro' : Option String)
    (n : Node) (x : Action may t α) : (Eval.located intro' n (monadLift x)).Here c := by
  refine catching h x fun w e y hy => ?_
  split at hy
  · cases hy
    exact showing hd fun _ => rfl
  · cases hy

theorem forEach {β : Type} {xs : List β} {f : β → Eval Unit} (hf : ∀ a, (f a).Here c) :
    (ScriptCore.forEach xs f).Here c := by
  induction xs with
  | nil => exact pure ()
  | cons a rest ih => exact bind (hf a) fun _ => ih

end Eval.Here

namespace Evaluator

theorem methodFrame_isCall (m : Method) (caller : Node) (w : World) {F : Failure → World → Prop} :
    (methodFrame m caller).run.Meets w (fun s w' => w'.IsCall s m caller) F := by
  change World.IsCall { w with scopes := w.scopes.push _ } w.scopes.size m caller
  constructor <;> simp [World.scope]

variable (h : ev.Sound c) (hd : c.Discreet)
include h hd

theorem bindParameter_here (s : ScopeId) (method : String) (caller : Node) (p : MethodParam)
    (arg : Value) : (bindParameter s method caller p arg).Here c := by
  unfold bindParameter
  split
  · split
    · exact .stop hd _ _
    · exact .bind (.lift h _) fun _ => .located h hd _ _ _
  · refine .bind (.catching h _ fun w e y hy => ?_) fun v => .located h hd _ _ _
    split at hy
    · cases hy
      exact .stop hd _ _
    · cases hy

theorem bindArguments_here (s : ScopeId) (m : Method) (args : List Value) (caller : Node) :
    (bindArguments s m args caller).Here c := by
  unfold bindArguments
  split
  · exact .stop hd _ _
  · exact .forEach fun e => bindParameter_here h hd s m.name caller e.1 e.2

theorem convertReturned_here (m : Method) (result : Ending) (value : Value) :
    (convertReturned m result value).Here c := by
  unfold convertReturned
  split
  · exact .pure _
  · exact .pure _
  · exact .located h hd _ _ _

theorem Sound.runBody_located {m : Method} (hm : c.Allows .branch m.body) (args : List Value)
    (caller : Node) {w₀ : World} {k : CallStack} {σ : EvalState} (hk : c.Kept w₀ k σ) :
    (ev.runBody m args caller).Meets σ (fun _ _ => True) fun e σ' => e.isOutright →
      c.passes e ∨ (∃ r, e = .report r ∧ r.stack = some k.frames) ∨
        ∃ s, σ'.world.IsCall s m caller ∧ σ'.world.RaisedOn ⟨s :: k.frames⟩ e := by
  unfold Evaluator.runBody Evaluator.openMethod
  simp only [Comp.bind_assoc]
  have made : (monadLift (methodFrame m caller) : Eval ScopeId).Meets σ (fun s σ' => σ'.world.IsCall s m caller)
      fun _ _ => True := Eval.meets_lift.mpr (methodFrame_isCall m caller σ.world)
  have atCall {e : Failure} (he : c.passes e ∨ ∃ r, e = .report r ∧ r.stack = some k.frames) {w : World} :
      c.passes e ∨ (∃ r, e = .report r ∧ r.stack = some k.frames) ∨
        ∃ s, w.IsCall s m caller ∧ w.RaisedOn ⟨s :: k.frames⟩ e := he.imp_right .inl
  rw [Comp.meets_bind]
  refine ((Eval.Here.lift h _ σ k hk).and made).mono (fun s σ₁ h₁ => ?_) fun _ _ he ho => atCall (he.1 ho)
  obtain ⟨hk₁, isCall⟩ := h₁
  -- From here on the scopes are followed from the world in which the frame was made.
  rw [Comp.meets_bind]
  refine (bindArguments_here h hd s m args caller σ₁ k hk₁.afresh).mono (fun _ σ₂ hk₂ => ?_) fun _ _ he ho => atCall (he ho)
  rw [Comp.meets_bind, Comp.meets_pure, Comp.meets_bind]
  refine (h.inFrame_meets hm s hk₂).mono (fun p σ₃ h₃ => ?_) fun e σ₃ he ho => ?_
  · rw [Comp.meets_bind]
    refine (Sound.returned_meets (t := .proper) h₃.1 h₃.2 p.1).mono (fun value σ₄ hk₄ => ?_) fun e σ₄ he ho => ?_
    · exact (convertReturned_here h hd m p.1 value σ₄ k hk₄).mono (fun _ _ _ => trivial) fun _ _ he ho => atCall (he ho)
    · exact (he.2.passed ho).imp_right fun located => .inr ⟨s, isCall.later he.1.since.frames, located⟩
  · exact (he.2.passed ho).imp_right fun located => .inr ⟨s, isCall.later he.1.since.frames, located⟩

end Evaluator

namespace Terms

variable {w : World}

/-- The terms of code that does not name the call stack, where located errors come up only on the
stack that runs. -/
def located : Terms where
  names path := !View.mentions path
  raises _ := True
  passes e := e.isReport = false
  reports := .inl fun _ h => by simpa using h
  halts := .inr fun _ => rfl
  lapses := fun _ ⟨_, he⟩ => he ▸ rfl

theorem discreet_located : located.Discreet := fun _ h => by simpa [located] using h

theorem allows_located {n : Node} (hn : n.discreet) (r : Role) : located.Allows r n where
  names := hn
  orderly ho := by cases ho
  complete hc := by cases hc

theorem fits_located_iff : located.Fits w ↔ w.Discreet where
  mp h n hn := (h.code n hn).names
  mpr h := .of_code (fun n hn => allows_located (h n hn) _) fun ho => by cases ho

theorem kept_located (hw : w.Discreet) (k : CallStack) : located.Kept w k ⟨w, .own k⟩ where
  fits := fits_located_iff.mpr hw
  since := .refl w
  stack _ := rfl
  started hc := by cases hc

end Terms

namespace Evaluator

open Terms

/-- The answers that end in located errors. -/
def reports (_ : World) (e : Failure) : Bool := e.isReport

theorem sound_located {E : Embedding} (host : E.Respects World.Discreet) (n : Nat) :
    (hosted (E.withholding reports) n).Sound .located :=
  Embedding.sound_hosted fits_located_iff (host.withholding _) (fun _ _ _ _ _ _ _ _ _ => trivial)
    (fun _ _ _ _ _ _ failed => (Action.withholding_failed failed).2) n

/-- A located error that leaves the evaluation of a tree shows the frames below the one on top as
they were, if no request that the evaluation makes of the host is answered by a located error. One
that leaves the call of a method shows the stack of the caller, if it comes from binding the
arguments or converting the result, or else one frame for this call above those. If this is the
scope of the call, the trace has an entry for it. But if it is that of a block inside, the trace has
none. -/
theorem trace_shows_calls_outside_blocks (E : Embedding) (host : E.Respects World.Discreet)
    (n : Nat) {w : World} (hw : w.Discreet) :
    (∀ (node : Node) (top : ScopeId) (below : List ScopeId) (r : Report) (σ : EvalState),
    node.discreet → E.Spares reports n (·.exec node) ⟨w, .own ⟨top :: below⟩⟩ →
      (hosted E n).exec node ⟨w, .own ⟨top :: below⟩⟩ = .failed (.report r) σ →
      ∃ inner frame, r.stack = some (inner ++ frame :: below) ∧ σ.world.Inside frame top) ∧
    ∀ (m : Method) (args : List Value) (caller : Node) (k : CallStack) (r : Report) (σ : EvalState),
      m.body.discreet → E.Spares reports n (·.runBody m args caller) ⟨w, .own k⟩ →
      (hosted E n).runBody m args caller ⟨w, .own k⟩ = .failed (.report r) σ →
      r.stack = some k.frames ∨
      ∃ inner frame s, r.stack = some (inner ++ frame :: k.frames) ∧ σ.world.Inside frame s ∧ σ.world.IsCall s m caller ∧
        (σ.world.Marked → σ.world.Unassigned ["caller_info"] → r.stackTrace σ.world =
          σ.world.trace inner ++
          (if frame = s then "\nCalled from method: " ++ σ.world.qualifiedName s ++
            " : at Line: " ++ toString caller.line ++
            " : in file: " ++ caller.file ++ " : " ++ σ.world.nodeText caller else "") ++
          σ.world.trace k.frames) := by
  have sound := sound_located host n
  constructor
  · intro node top below r σ hn spared failed
    have failed := spared.trans failed
    have permitted := ((sound.exec node (allows_located hn _) _ _ (kept_located hw ⟨top :: below⟩)).of_failed failed).2
    rcases permitted.passed rfl with other | ⟨_, ss, same, shown, grown⟩
    · cases other
    · cases same
      obtain ⟨inner, frame, rfl, inside⟩ := grown.split
      exact ⟨inner, frame, shown, inside⟩
  · intro m args caller k r σ hm spared failed
    have failed := spared.trans failed
    have located := sound.runBody_located discreet_located (allows_located hm _) args caller (kept_located hw k)
    rcases located.of_failed failed rfl with other | ⟨_, same, shown⟩ | ⟨s, isCall, _, ss, same, shown, grown⟩
    · cases other
    · cases same
      exact .inl shown
    · cases same
      obtain ⟨inner, frame, rfl, inside⟩ := grown.split
      refine .inr ⟨inner, frame, s, shown, inside, isCall, fun marked unassigned => ?_⟩
      have whole : r.stackTrace σ.world = σ.world.trace inner ++ σ.world.traceEntry frame ++ σ.world.trace k.frames := by
        rw [Report.stackTrace, shown]
        exact (σ.world.trace_append inner (frame :: k.frames)).trans (by simp [World.trace, String.append_assoc])
      rw [whole]
      split
      · next same =>
        subst same
        rw [World.traceEntry_of_isCall marked unassigned isCall]
      · next other => rw [World.traceEntry_of_caller_eq_none marked (inside.caller_eq_none other)]

/-- A global method `f` that calls `g`, which runs the given statement. -/
def callingWorld (statement : Node) : World where
  scopes := #[{
    name := "global", registry := some 0
    methods := .ofList [("f", [{ name := "f", home := 0, body := .blockOf [.invocation {} "g" []] }]),
      ("g", [{ name := "g", home := 0, body := .blockOf [statement] }])] }]
  registries := #[{}]

/-- How the calls of the next two theorems end. -/
theorem reports_of_callingWorld :
    let missing : Node := .invocation {} "nosuch" []
    let w := callingWorld missing
    let w' := callingWorld (.blockOf [missing])
    w.Discreet ∧ w'.Discreet ∧
    (((hosted .silent 12).runBody { name := "f", home := 0, body := .blockOf [.invocation {} "g" []] } []
      (.invocation {} "f" []) ⟨w, .own ⟨[0]⟩⟩).reportsWith fun r σ =>
        r.stack = some [2, 1, 0] && (σ.world.scope 1).caller.isSome && σ.world.Marked && σ.world.assigned.isEmpty) ∧
    (((ofFuel 12).runBody { name := "g", home := 0, body := .blockOf [.blockOf [missing]] } [] .absent
      ⟨w', .own ⟨[0]⟩⟩).reportsWith fun r σ => r.stack = some [2, 0] && (σ.world.scope 2).caller.isNone) ∧
    ((ofFuel 12).exec (.invocation {} "f" []) ⟨w', .own ⟨[0]⟩⟩).reportsWith fun r σ =>
      r.stackTrace σ.world = "\nCalled from method: f : at Line: -1 : in file: <unknown file> : f()" := by
  decide +kernel

/-- A call of `f` in whose inner call an unknown command is run: both calls show, `g` first. The
evaluator is covered as well. -/
theorem trace_shows_calls_outside_blocks_direct :
    let w := callingWorld (.invocation {} "nosuch" [])
    let call : Node := .invocation {} "f" []
    let f : Method := { name := "f", home := 0, body := .blockOf [.invocation {} "g" []] }
    ofFuel 12 = hosted .own 12 ∧ Embedding.own.Respects World.Discreet ∧ w.Discreet ∧ f.body.discreet ∧
      ∃ r σ, (hosted .silent 12).runBody f [] call ⟨w, .own ⟨[0]⟩⟩ = .failed (.report r) σ ∧ r.stack = some [2, 1, 0] ∧
        σ.world.Marked ∧ σ.world.Unassigned ["caller_info"] ∧ r.stackTrace σ.world =
          σ.world.trace [2] ++ ("\nCalled from method: " ++ σ.world.qualifiedName 1 ++
          " : at Line: " ++ toString call.line ++ " : in file: " ++ call.file ++ " : " ++ σ.world.nodeText call) ++
          σ.world.trace [0] := by
  intro w call f
  obtain ⟨hw, -, run, -⟩ := reports_of_callingWorld
  have hm : f.body.discreet := by decide
  obtain ⟨r, σ, failed, shape⟩ := Outcome.exists_of_reportsWith run
  simp only [Bool.and_eq_true, decide_eq_true_eq, List.isEmpty_iff] at shape
  obtain ⟨⟨⟨shown, called⟩, marked⟩, unassigned⟩ := shape
  have unassigned := World.unassigned_of_nil unassigned ["caller_info"]
  refine ⟨ofFuel_eq_hosted 12, own_respects_discreet, hw, hm, r, σ, failed, shown, marked, unassigned, ?_⟩
  have located := (trace_shows_calls_outside_blocks .silent (Embedding.silent_respects _) 12 hw).2 f [] call ⟨[0]⟩ r σ hm
    (Embedding.silent_spares _ _ _ _) failed
  rcases located with atCall | ⟨inner, frame, s, frames, inside, isCall, text⟩
  · rw [shown] at atCall
    cases atCall
  · rw [shown] at frames
    have split : [2] ++ [1, 0] = inner ++ frame :: [0] := Option.some.inj frames
    obtain ⟨rfl, same⟩ := List.append_inj' split rfl
    cases same
    have own : 1 = s := Decidable.byContradiction fun other => by rw [inside.caller_eq_none other] at called; cases called
    subst own
    exact text marked unassigned

/-- It is not so that every call that is active when its body fails shows by a frame of its own.
Here `g` has failed inside a block, and the trace tells of `f` only. -/
theorem trace_misses_call_in_block :
    (¬∀ (n : Nat) (m : Method) (args : List Value) (caller : Node) (k : CallStack) (w : World) (r : Report) (σ : EvalState),
      w.Discreet → m.body.discreet → (ofFuel n).runBody m args caller ⟨w, .own k⟩ = .failed (.report r) σ →
      r.stack = some k.frames ∨ ∃ inner s, r.stack = some (inner ++ s :: k.frames) ∧ σ.world.IsCall s m caller) ∧
    ∃ r σ, (ofFuel 12).exec (.invocation {} "f" [])
      ⟨callingWorld (.blockOf [.invocation {} "nosuch" []]), .own ⟨[0]⟩⟩ = .failed (.report r) σ ∧
      r.stackTrace σ.world = "\nCalled from method: f : at Line: -1 : in file: <unknown file> : f()" := by
  let w := callingWorld (.blockOf [.invocation {} "nosuch" []])
  constructor
  · intro always
    let g : Method := { name := "g", home := 0, body := .blockOf [.blockOf [.invocation {} "nosuch" []]] }
    obtain ⟨-, hw, -, run, -⟩ := reports_of_callingWorld
    obtain ⟨r, σ, failed, shape⟩ := Outcome.exists_of_reportsWith run
    simp only [Bool.and_eq_true, decide_eq_true_eq, Option.isNone_iff_eq_none] at shape
    obtain ⟨shown, uncalled⟩ := shape
    rcases always 12 g [] .absent ⟨[0]⟩ w r σ hw (by decide) failed with atCall | ⟨inner, s, frames, isCall⟩
    · rw [shown] at atCall
      cases atCall
    · rw [shown] at frames
      have split : [] ++ [2, 0] = inner ++ s :: [0] := Option.some.inj frames
      obtain ⟨rfl, same⟩ := List.append_inj' split rfl
      cases same
      have caller := isCall.caller
      rw [uncalled] at caller
      cases caller
  · obtain ⟨-, -, -, -, run⟩ := reports_of_callingWorld
    obtain ⟨r, σ, failed, shape⟩ := Outcome.exists_of_reportsWith run
    exact ⟨r, σ, failed, of_decide_eq_true shape⟩

end Evaluator

end ScriptCore
