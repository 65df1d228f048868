import ScriptCore.Proofs.Hosting

namespace ScriptCore

def Node.discreet (n : Node) : Bool := n.usesOnly fun path => !View.mentions path

def World.Discreet (w : World) : Prop := ∀ n, w.Holds n → n.discreet

instance (w : World) : Decidable w.Discreet :=
  decidable_of_iff (∀ n ∈ w.scopes.toList.flatMap Scope.code ++ w.objects.toList.flatMap Obj.code ++
    w.classes.toList.flatMap MadeClass.code, n.discreet) (forall_congr' fun _ => by rw [World.holds_iff])

namespace Terms

def unnamed : Terms := .lenient (fun path => !View.mentions path) (fun _ => True) false

theorem discreet_unnamed : unnamed.Discreet := fun path h => by simpa [unnamed, lenient] using h

theorem allows_unnamed {n : Node} (hn : n.discreet) (r : Role) : unnamed.Allows r n where
  names := hn
  orderly ho := by cases ho
  complete hc := by cases hc

theorem fits_unnamed_iff {w : World} : unnamed.Fits w ↔ w.Discreet where
  mp h n hn := (h.code n hn).names
  mpr h := .of_code (fun n hn => allows_unnamed (h n hn) _) fun ho => by cases ho

theorem kept_unnamed {w : World} (hw : w.Discreet) (k : CallStack) : unnamed.Kept w k ⟨w, .own k⟩ where
  fits := fits_unnamed_iff.mpr hw
  since := .refl w
  stack _ := rfl
  started hc := by cases hc

theorem Kept.state {w : World} {k : CallStack} {σ : EvalState} (h : unnamed.Kept w k σ) :
    σ.frames = k.frames ∧ σ.running = .own k :=
  ⟨h.frames discreet_unnamed, h.stack discreet_unnamed⟩

end Terms

/-- A world whose global scope declares a method `f` with one statement and no parameters. -/
def World.declaring (statement : Node) : World where
  scopes := #[{
    name := "global", registry := some 0
    methods := .ofList [("f", [{ name := "f", home := 0, body := .blockOf [statement] }])] }]
  registries := #[{}]

namespace Evaluator

theorem own_respects_discreet : Embedding.own.Respects World.Discreet :=
  Embedding.own_respects Terms.fits_unnamed_iff fun n => .ofFuel n fun _ _ _ _ => trivial

theorem sound_unnamed {E : Embedding} (host : E.Respects World.Discreet) (n : Nat) : (hosted E n).Sound .unnamed :=
  Embedding.sound_hosted Terms.fits_unnamed_iff host (fun _ _ _ _ _ _ _ _ _ => trivial) (fun _ _ _ _ _ _ _ => trivial) n

/-- Evaluation of a tree that does not name the call stack, in a world whose code does not either,
ends with the frames it started with, and with nobody else knowing the stack. When a block fails,
there is nothing for its try statement to unwind. The host may answer requests as it likes, but the
code that it leaves in the world must not name the call stack: code that is made while the program
runs counts as code of the world. -/
theorem eval_keeps_frames (E : Embedding) (host : E.Respects World.Discreet) (n : Nat) {node : Node}
    {w : World} (k : CallStack) (hn : node.discreet) (hw : w.Discreet) :
    (∀ σ, ((hosted E n).eval node ⟨w, .own k⟩).state? = some σ → σ.frames = k.frames ∧ σ.running = .own k) ∧
      ∀ (block : Node) (e : Failure) (σ : EvalState), block.discreet →
        (hosted E n).runBlock block ⟨w, .own k⟩ = .failed e σ → Eval.unwound k.frames.length σ.frames = σ.frames := by
  have hk := Terms.kept_unnamed hw k
  constructor
  · intro σ hσ
    have run := (sound_unnamed host n).eval (Terms.allows_unnamed hn _) _ k hk
    refine Comp.Meets.of_leads (P := fun σ => σ.frames = k.frames ∧ σ.running = .own k) ?_ (Comp.leads_of_state? hσ)
    exact run.mono (fun _ _ h => h.1.state) fun _ _ h => h.1.state
  · intro block e σ hb hf
    have kept := (((sound_unnamed host n).runBlock (Terms.allows_unnamed hb _) rfl _ k hk).of_failed hf).1.state
    rw [kept.1]
    exact Eval.Sound.unwound_eq_self (Nat.le_refl _)

/-- How the evaluations of the next two theorems end. -/
theorem frames_of_declaring :
    let block : Node := .blockOf [.invocation {} "f" []]
    let w : World := .declaring (.arrayAlloc {} (.typeRef {} (.named "int") 0) [.literal {} (.ofInt (-1))] .absent)
    let node : Node := .tryCatch {} block [.catchClause {} (.param {} "e" .absent []) (.blockOf [])] .absent
    let w' : World := .declaring (.invocation {} "this.callStack.push" [.name {} "this.nameSpace"])
    ((ofFuel 9).eval node ⟨w, .own ⟨[0]⟩⟩).state?.isSome ∧ ((ofFuel 9).runBlock block ⟨w, .own ⟨[0]⟩⟩).isFailed ∧
    ((ofFuel 3).eval (.invocation {} "f" []) ⟨w', .own ⟨[0]⟩⟩).state?.map EvalState.frames = some [1, 0] := by
  decide +kernel

theorem eval_keeps_frames_failing :
    let w : World := .declaring (.arrayAlloc {} (.typeRef {} (.named "int") 0) [.literal {} (.ofInt (-1))] .absent)
    let block : Node := .blockOf [.invocation {} "f" []]
    let node : Node := .tryCatch {} block [.catchClause {} (.param {} "e" .absent []) (.blockOf [])] .absent
    Embedding.own.Respects World.Discreet ∧ node.discreet ∧ w.Discreet ∧
      ((ofFuel 9).eval node ⟨w, .own ⟨[0]⟩⟩).state?.isSome ∧
      (∀ σ, ((ofFuel 9).eval node ⟨w, .own ⟨[0]⟩⟩).state? = some σ → σ.frames = [0] ∧ σ.running = .own ⟨[0]⟩) ∧
      ∃ e σ, (ofFuel 9).runBlock block ⟨w, .own ⟨[0]⟩⟩ = .failed e σ ∧ Eval.unwound 1 σ.frames = σ.frames := by
  intro w block node
  have hn : node.discreet := by decide
  have hw : w.Discreet := by decide
  have kept := eval_keeps_frames .own own_respects_discreet 9 ⟨[0]⟩ hn hw
  rw [← ofFuel_eq_hosted] at kept
  obtain ⟨ended, failed, -⟩ := frames_of_declaring
  obtain ⟨e, σ, hf⟩ := Outcome.exists_of_isFailed failed
  exact ⟨own_respects_discreet, hn, hw, ended, kept.1, e, σ, hf, kept.2 block e σ (by decide) hf⟩

/-- Without the condition on the code that the world keeps it does not hold: the call of a method
that puts a scope on the call stack names no stack itself. -/
theorem stored_code_can_leave_frames :
    ¬∀ (n : Nat) (node : Node) (w : World) (k : CallStack), node.discreet →
      ∀ σ, ((ofFuel n).eval node ⟨w, .own k⟩).state? = some σ → σ.frames = k.frames := by
  intro always
  let w : World := .declaring (.invocation {} "this.callStack.push" [.name {} "this.nameSpace"])
  have run := frames_of_declaring.2.2
  obtain ⟨σ, hσ, hf⟩ := Option.map_eq_some_iff.mp run
  have same := always 3 (.invocation {} "f" []) w ⟨[0]⟩ (by decide) σ hσ
  rw [hf] at same
  cases same

end Evaluator

end ScriptCore
