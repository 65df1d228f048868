import ScriptCore.Proofs.Hosting
import ScriptCore.Proofs.FieldAccess
import ScriptCore.Proofs.Programs
import ScriptCore.Proofs.StackDiscipline

namespace ScriptCore

def Node.isWellFormed (n : Node) : Bool := n.discreet && n.complete .statement

namespace World

/-- All code that the world keeps lacks no part and does not name the call stack. -/
structure WellFormed (w : World) : Prop where
  discreet : w.Discreet
  bodies : w.KeepsOnly (Node.complete .branch ·)
  members : ∀ n, w.HoldsMember n → n.complete .statement

theorem WellFormed.of_blank {w : World} (blank : w.KeepsOnly fun _ => False) : w.WellFormed where
  discreet n hn := (blank n hn).elim
  bodies n hn := (blank n hn).elim
  members n := by
    rintro ⟨k, hk, hn⟩
    exact (blank n (.cls k hk hn)).elim

end World

/-- The answers that end in errors of the interpreter itself, by their class. -/
def Failure.isInterpreterError (w : World) (e : Failure) : Bool := Run.isFailureOf w e .interpreterError

namespace Terms

/-- The terms of well-formed code. If they are strict, no errors of the interpreter itself may come
up but for missing values. -/
def wellFormed (strict : Bool) : Terms where
  names path := !View.mentions path
  raises c := strict → c ≠ .interpreterError
  complete := true
  passes e := strict → (∀ m, e ≠ .internal m) ∨ e.IsLapse
  reports := .inr fun _ _ => .inl fun _ h => by cases h
  halts := .inl ⟨rfl, fun _ h => by simpa using h⟩
  lapses _ h _ := .inr h

variable {strict : Bool}

theorem allows_wellFormed_iff {r : Role} {n : Node} : (wellFormed strict).Allows r n ↔ n.discreet ∧ n.complete r where
  mp h := ⟨h.names, h.complete rfl⟩
  mpr h := ⟨h.1, fun ho => (by cases ho), fun _ => h.2⟩

theorem fits_wellFormed_iff {w : World} : (wellFormed strict).Fits w ↔ w.WellFormed where
  mp h := by
    refine ⟨fun n hn => (h.code n hn).names, fun n hn => (h.code n hn).complete rfl, fun n hn => ?_⟩
    exact (h.members n hn).complete rfl
  mpr h := by
    refine ⟨fun n hn => ?_, fun n hn => ?_, fun ho => (by cases ho), fun ho => by cases ho⟩
    · exact allows_wellFormed_iff.mpr ⟨h.discreet n hn, h.bodies n hn⟩
    · obtain ⟨k, hk, hc⟩ := id hn
      exact allows_wellFormed_iff.mpr ⟨h.discreet n (.cls k hk hc), h.members n hn⟩

end Terms

namespace Embedding

open Terms

variable {E : Embedding} {w₀ w w' : World} {nodes : List Node}

/-- The worlds that well-formed programs lead to, one after the other, whether they fail or not. -/
inductive Reached (E : Embedding) (w₀ : World) : World → Prop
  | start : Reached E w₀ w₀
  | program {w w' : World} {nodes : List Node} (h : Reached E w₀ w) (hn : ∀ node ∈ nodes, node.isWellFormed) (n : Nat)
      (s : ScopeId) (run : ((Evaluator.hosted E n).evaluate s nodes).Leads w w') : Reached E w₀ w'

theorem own_respects_wellFormed : own.Respects World.WellFormed :=
  own_respects (c := wellFormed false) fits_wellFormed_iff fun n =>
    .ofFuel n (fun _ _ _ _ strict => by cases strict) fun _ _ _ _ _ _ strict => by cases strict

theorem sound_lenient (host : E.Respects World.WellFormed) (n : Nat) : (Evaluator.hosted E n).Sound (wellFormed false) :=
  sound_hosted fits_wellFormed_iff host (fun _ _ _ _ _ _ _ _ _ strict => by cases strict)
    (fun _ _ _ _ _ _ _ strict => by cases strict) n

/-- In a host that withholds all answers by errors of the interpreter itself, none come up but for
missing values. -/
theorem sound_strict (host : E.Respects World.WellFormed) (n : Nat) :
    (Evaluator.hosted (E.withholding Failure.isInterpreterError) n).Sound (wellFormed true) := by
  refine sound_hosted fits_wellFormed_iff (host.withholding _) (fun level _ r w w' v d failed hv _ same => ?_)
    (fun level _ r w w' e failed _ => .inl fun m same => ?_) n
  · subst same
    exact absurd hv (Bool.eq_false_iff.mp (Action.withholding_failed failed).2)
  · subst same
    cases (Action.withholding_failed failed).2

/-- A well-formed program keeps the code of the world well-formed. -/
theorem evaluate_meets {strict : Bool} {ev : Evaluator} (sound : ev.Sound (wellFormed strict))
    (s : ScopeId) (hn : ∀ node ∈ nodes, node.isWellFormed) (hw : w.WellFormed) :
    (ev.evaluate s nodes).Meets w (fun _ w' => w'.WellFormed) fun e w' =>
      w'.WellFormed ∧ (wellFormed strict).Permits ⟨[s]⟩ .proper w' e := by
  have allowed (node : Node) (hm : node ∈ nodes) : (wellFormed strict).Allows .statement node :=
    allows_wellFormed_iff.mpr (Bool.and_eq_true_iff.mp (hn node hm))
  exact (Evaluator.Sound.onStack (sound.runProgram allowed) [s] (fits_wellFormed_iff.mpr hw)).mono
    (fun _ w' h => fits_wellFormed_iff.mp h.1) fun e w' h => ⟨fits_wellFormed_iff.mp h.1.1, h.2⟩

theorem Reached.wellFormed (host : E.Respects World.WellFormed) (hw : w₀.WellFormed)
    (h : E.Reached w₀ w) : w.WellFormed := by
  -- The host answers in the world that each program has reached, so well-formedness is carried from one to the next.
  induction h with
  | start => exact hw
  | program _ hn n s run ih =>
    refine Comp.Meets.of_leads (P := World.WellFormed) ?_ run
    exact (evaluate_meets (sound_lenient host n) s hn ih).mono (fun _ _ h => h) fun _ _ h => h.1

/-- The errors of the interpreter itself, by their class, that the strict terms permit. -/
theorem lapse_of_permits {k : CallStack} {e : Failure} (h : (Terms.wellFormed true).Permits k .proper w e)
    (he : e.isInterpreterError w) : e.IsLapse := by
  cases e with
  | internal m =>
    rcases h.passed rfl with passes | ⟨r, -, same, -⟩
    · exact (passes rfl).resolve_left fun other => other m rfl
    · cases same
  | thrown v => exact absurd rfl (h.raised rfl (by decide) he rfl)
  | report r =>
    simp only [Failure.isInterpreterError, Run.isFailureOf, World.failureClass] at he
    split at he <;> cases he
  | classGeneration => cases he
  | _ => exact h.allowed.elim

end Embedding

namespace Evaluator

theorem nameIn_of_nothing (ev : Evaluator) (view : View) {w : World} {s : ScopeId} {x : String} (undotted : '.' ∉ x.toList)
    (plain : x ∉ ["this", "super", "global"]) (read : (Run.getVariable s x true).run w = .done .none w) :
    (ev.nameIn view s x).run w = .failed (.internal (Lapse.resolution x).message) w := by
  have first : (Run.step view ev.hostField s x false false { rest := [x] }).run w =
      .failed (.internal (Lapse.resolution x).message) w :=
    step_of_variable ev view plain read (fun h => by cases h) x false []
  unfold nameIn Run.resolveName
  simp only [Path.segments_of_plain undotted]
  unfold Run.walk
  exact Comp.bind_of_failed first

theorem eval_variable (E : Embedding) (n : Nat) (l : Origin) {w : World} {s t : ScopeId} {below : List ScopeId} {x : String}
    {held : Variable} (undotted : '.' ∉ x.toList) (plain : x ∉ ["this", "super", "global", "callStack"])
    (found : (Run.findBinding s x true).run w = .done (some (.held t x)) w) (known : (w.scope t).vars.get? x = some held)
    (defined : held.value ≠ some .void) :
    ∃ m k, let σ : EvalState := ⟨w.remembering m k, .own ⟨s :: below⟩⟩
      (held.IsSet → (hosted E (n + 1)).eval (.name l x) ⟨w, .own ⟨s :: below⟩⟩ = .done (held.value.getD .none) σ) ∧
      (¬held.IsSet → (hosted E (n + 1)).eval (.name l x) ⟨w, .own ⟨s :: below⟩⟩ =
        .failed (.internal ("null result resolving: " ++ x)) σ) := by
  have unmentioned : View.mentions x = false := by
    rw [View.mentions, Path.segments_of_plain undotted]
    simpa using fun same : "callStack" = x => plain (by simp [← same])
  have special : x ∉ ["this", "super", "global"] := fun h => plain (List.mem_of_mem_take (i := 3) h)
  have resolved : ∃ m k, (hosted E n).nameValue (.name l x) x ⟨w, .own ⟨s :: below⟩⟩ = Eval.located none (.name l x)
      (liftM ((hosted E n).nameIn { frames := s :: below } s x)) ⟨w.remembering m k, .own ⟨s :: below⟩⟩ :=
    nameValue_eq (hosted E n) unmentioned
  obtain ⟨m, k, named⟩ := resolved
  -- Looking the name up has changed only what scopes remember, which the variable does not depend on.
  have read := (Run.Oblivious.getVariable s x true).of_done (Run.getVariable_of_found found known) m k
  refine ⟨m, k, fun set => ?_, fun unset => ?_⟩
  · have value : held.value.getD .none ≠ .void := by
      cases h : held.value with
      | none => exact fun h => by cases h
      | some v => exact fun same => defined (h.trans (congrArg some same))
    have given := nameIn_of_value (hosted E n) { frames := s :: below } undotted special read value set
    have done := named.trans (Eval.located_done_iff.mpr (Eval.liftM_of_done given _))
    have ended : (hosted E (n + 1)).exec (.name l x) ⟨w, .own ⟨s :: below⟩⟩ = _ := Comp.bind_of_done done
    exact (Comp.bind_of_done ended).trans (asValue_ending _ _)
  · have nothing : held.value.getD .none = .none := Classical.not_not.mp unset
    rw [nothing] at read
    have missing := nameIn_of_nothing (hosted E n) { frames := s :: below } undotted special read
    have failed := named.trans (Eval.located_of_internal none (.name l x) (Eval.liftM_of_failed missing _))
    have ended : (hosted E (n + 1)).exec (.name l x) ⟨w, .own ⟨s :: below⟩⟩ = _ := Comp.bind_of_failed failed
    exact Comp.bind_of_failed ended

/-- In every world that well-formed programs lead to from one without code, well-formed programs end
in an error of the interpreter itself, or in an exception object of its class, only if a variable
was to be given no value at all, or if a name was read that has none; unless the host answers a
request that the program makes by such an error. -/
theorem checks_fail_only_for_missing_values (E : Embedding) (host : E.Respects World.WellFormed)
    {w₀ w : World} (blank : w₀.KeepsOnly fun _ => False) (reached : E.Reached w₀ w) :
    (∀ (n : Nat) (s : ScopeId) (nodes : List Node) (e : Failure) (w' : World), (∀ node ∈ nodes, node.isWellFormed) →
      E.Spares Failure.isInterpreterError n (·.evaluate s nodes) w →
      (hosted E n).evaluate s nodes w = .failed e w' → e.isInterpreterError w' →
      e = .internal "null variable value" ∨ ∃ name, e = .internal ("null result resolving: " ++ name)) ∧
    ∀ (n : Nat) (l : Origin) (s t : ScopeId) (below : List ScopeId) (x : String) (held : Variable), '.' ∉ x.toList →
      x ∉ ["this", "super", "global", "callStack"] → (Run.findBinding s x true).run w = .done (some (.held t x)) w →
      (w.scope t).vars.get? x = some held → held.value ≠ some .void → ∃ m k,
        let σ : EvalState := ⟨w.remembering m k, .own ⟨s :: below⟩⟩
        (held.IsSet → (hosted E (n + 1)).eval (.name l x) ⟨w, .own ⟨s :: below⟩⟩ = .done (held.value.getD .none) σ) ∧
        (¬held.IsSet → (hosted E (n + 1)).eval (.name l x) ⟨w, .own ⟨s :: below⟩⟩ =
          .failed (.internal ("null result resolving: " ++ x)) σ) := by
  have hw := reached.wellFormed host (.of_blank blank)
  constructor
  · intro n s nodes e w' hn spared failed he
    have permitted := ((Embedding.evaluate_meets (Embedding.sound_strict host n) s hn hw).of_failed (spared.trans failed)).2
    obtain ⟨lapse, rfl⟩ := Embedding.lapse_of_permits permitted he
    cases lapse with
    | assignment => exact .inl rfl
    | resolution name => exact .inr ⟨name, rfl⟩
  · intro n l s t below x held undotted plain found known defined
    exact eval_variable E n l undotted plain found known defined

def integerDecl (modifiers : List String) (x : String) (init : Node) : Node :=
  .varDecl {} (.typeRef {} (.named "int") 0) [.declarator {} x init 0] modifiers

def internalMessage? : Failure → Option String
  | .internal message => some message
  | _ => none

theorem exists_internal_of_failsWith {σ α : Type} {o : Outcome σ α} {message : String}
    (h : o.failsWith fun e => internalMessage? e = some message) : ∃ s, o = .failed (.internal message) s := by
  obtain ⟨e, s, failed, shown⟩ := Outcome.exists_of_failsWith h
  cases e with
  | internal m =>
    cases of_decide_eq_true shown
    exact ⟨s, failed⟩
  | _ => cases of_decide_eq_true shown

/-- A program declares a final variable that waits for its value, and one that has a value. The
latter can be read, the former cannot. The conditions hold of the evaluator as well. -/
theorem checks_fail_only_for_missing_values_waiting :
    let program : List Node := [integerDecl ["final"] "x" .absent, integerDecl [] "y" (.literal {} (.ofInt 5))]
    ofFuel 12 = hosted .own 12 ∧ Embedding.own.Respects World.WellFormed ∧ (World.bare.KeepsOnly fun _ => False) ∧
      ∃ w, ((hosted .silent 12).evaluate 0 program).Leads .bare w ∧ Embedding.silent.Reached .bare w ∧
        (∃ e w', (hosted .silent 12).evaluate 0 [.name {} "x"] w = .failed e w' ∧ e.isInterpreterError w' ∧
          (e = .internal "null variable value" ∨ ∃ name, e = .internal ("null result resolving: " ++ name))) ∧
        (∃ σ, (hosted .silent 12).eval (.name {} "x") ⟨w, .own ⟨[0]⟩⟩ = .failed (.internal "null result resolving: x") σ) ∧
        ∃ v σ, (hosted .silent 12).eval (.name {} "y") ⟨w, .own ⟨[0]⟩⟩ = .done v σ ∧ w.integer? v.unwrap = some 5 := by
  intro program
  have blank : World.bare.KeepsOnly fun _ => False := by decide +kernel
  have wellFormed : ∀ node ∈ program, node.isWellFormed := by decide +kernel
  have run : ((hosted .silent 12).evaluate 0 program .bare).doneWith fun _ w =>
      decide (∀ t ∈ w.ancestry 0, (w.importTargets t).isEmpty) && decide (w.holder? 0 "x" = some 0) &&
      decide (w.holder? 0 "y" = some 0) && ((w.scope 0).vars.get? "x").any (fun held => held.value.isNone) &&
      ((w.scope 0).vars.get? "y").any (fun held => held.value.any fun v => decide (w.integer? v.unwrap = some 5)) &&
      ((hosted .silent 12).evaluate 0 [.name {} "x"] w).failsWith
        (fun e => internalMessage? e = some "null result resolving: x") := by decide +kernel
  obtain ⟨_, w, done, shape⟩ := Outcome.exists_of_doneWith run
  simp only [Bool.and_eq_true, decide_eq_true_eq, Option.any_eq_true, Option.isNone_iff_eq_none] at shape
  obtain ⟨⟨⟨⟨⟨imports, holderX⟩, holderY⟩, x, knownX, waiting⟩, y, knownY, v, value, five⟩, fails⟩ := shape
  have leads : ((hosted .silent 12).evaluate 0 program).Leads .bare w := .done _ done
  have reached : Embedding.silent.Reached .bare w := .program .start wellFormed 12 0 leads
  have imports : ∀ t ∈ w.ancestry 0, w.importTargets t = [] := fun t ht => List.isEmpty_iff.mp (imports t ht)
  have foundX := Run.findBinding_plain imports "x"
  have foundY := Run.findBinding_plain imports "y"
  rw [holderX] at foundX
  rw [holderY] at foundY
  obtain ⟨checks, reads⟩ := checks_fail_only_for_missing_values .silent (Embedding.silent_respects _) blank reached
  refine ⟨ofFuel_eq_hosted 12, Embedding.own_respects_wellFormed, blank, w, leads, reached, ?_, ?_, ?_⟩
  · obtain ⟨w', failed⟩ := exists_internal_of_failsWith fails
    exact ⟨_, w', failed, rfl, checks 12 0 [.name {} "x"] _ w' (by decide +kernel)
      (Embedding.silent_spares _ _ _ _) failed rfl⟩
  · obtain ⟨m, k, -, missing⟩ :=
      reads 11 {} 0 0 [] "x" x (by decide) (by decide) foundX knownX (by rw [waiting]; exact fun h => by cases h)
    exact ⟨_, missing fun set => set (by rw [waiting]; rfl)⟩
  · have void : v ≠ .void := by
      rintro rfl
      cases five
    have none : v ≠ .none := by
      rintro rfl
      cases five
    obtain ⟨m, k, given, -⟩ := reads 11 {} 0 0 [] "y" y (by decide) (by decide) foundY knownY (by simpa [value] using void)
    have read := given (by simpa [Variable.IsSet, value] using none)
    rw [value] at read
    exact ⟨v, _, read, five⟩

/-- It is not so that a program that lacks no part never ends in an error of the interpreter itself:
a final variable that waits for its value cannot be read, and a call stack that a script has cleared
cannot be gone back on. -/
theorem unset_final_fails_check :
    (¬∀ (n : Nat) (s : ScopeId) (nodes : List Node) (message : String) (w : World),
      (∀ node ∈ nodes, node.complete .statement) → (ofFuel n).evaluate s nodes .bare ≠ .failed (.internal message) w) ∧
    (∃ w, (ofFuel 12).evaluate 0 [integerDecl ["final"] "x" .absent, .name {} "x"] .bare =
      .failed (.internal "null result resolving: x") w) ∧
    ∃ w, (ofFuel 12).evaluate 0 [.blockOf [.invocation {} "this.callStack.clear" []]] .bare =
      .failed (.internal "swap on empty CallStack") w := by
  have unset : ∃ w, (ofFuel 12).evaluate 0 [integerDecl ["final"] "x" .absent, .name {} "x"] .bare =
      .failed (.internal "null result resolving: x") w := exists_internal_of_failsWith (by decide +kernel)
  refine ⟨fun always => ?_, unset, exists_internal_of_failsWith (by decide +kernel)⟩
  obtain ⟨w, failed⟩ := unset
  exact always 12 0 _ _ w (by decide +kernel) failed

end Evaluator

end ScriptCore
