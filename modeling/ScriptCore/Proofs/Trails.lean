import Mathlib.Data.List.Forall2
import ScriptCore.Proofs.Meets
import ScriptCore.Script.Declaration
import ScriptCore.Script.Block

namespace ScriptCore

abbrev Event := Node × Ending

/-- The nodes that an evaluation has gone through on its way from one state to another, with nothing
but pauses between. -/
inductive Trail (ev : Evaluator) (pause : EvalState → EvalState → Prop) : List Event → EvalState → EvalState → Prop
  | nil (σ : EvalState) : Trail ev pause [] σ σ
  | exec {n : Node} {r : Ending} {es : List Event} {σ σ₁ σ' : EvalState} (h : ev.exec n σ = .done r σ₁)
      (rest : Trail ev pause es σ₁ σ') : Trail ev pause ((n, r) :: es) σ σ'
  | pause {es : List Event} {σ σ₁ σ' : EvalState} (h : pause σ σ₁) (rest : Trail ev pause es σ₁ σ') : Trail ev pause es σ σ'

/-- The statements of a list were evaluated in order, each of them with a value; or up to the first
that ended with a signal. -/
inductive RunsThrough : List Node → List Event → Prop
  | nil : RunsThrough [] []
  | value {n : Node} {v : Value} {ns : List Node} {es : List Event} (rest : RunsThrough ns es) :
      RunsThrough (n :: ns) ((n, .value v) :: es)
  | signal {n : Node} {s : Signal} {k : Option Nat} {ns : List Node} : RunsThrough (n :: ns) [(n, .signal s k)]

def RunsBlock (ns : List Node) (es : List Event) : Prop :=
  ∃ declared others, es = declared ++ others ∧ declared.map Prod.fst = ns.filter Node.isClassDecl ∧
    RunsThrough (ns.filter fun n => !n.isClassDecl) others

variable {ev : Evaluator} {pause : EvalState → EvalState → Prop} {I : EvalState → Prop} {α β : Type}

theorem Trail.append {es fs : List Event} {σ σ₁ σ' : EvalState} (h : Trail ev pause es σ σ₁)
    (k : Trail ev pause fs σ₁ σ') : Trail ev pause (es ++ fs) σ σ' := by
  induction h with
  | nil => exact k
  | exec run _ ih => exact .exec run (ih k)
  | pause step _ ih => exact .pause step (ih k)

/-- Whenever the computation gives a result, it has left a trail of which `P` holds with the result.
The trail starts and ends in states of the kind `I`. -/
def Eval.Follows (ev : Evaluator) (pause : EvalState → EvalState → Prop) (I : EvalState → Prop)
    (P : α → List Event → Prop) (x : Eval α) : Prop :=
  ∀ σ, I σ → x.Meets σ (fun a σ' => I σ' ∧ ∃ es, Trail ev pause es σ σ' ∧ P a es) fun _ _ => True

/-- A kind of states that evaluation does not leave, with pauses that take in what does not change a
thing and what is done to the call stack. -/
structure Trail.Regular (ev : Evaluator) (pause : EvalState → EvalState → Prop) (I : EvalState → Prop) : Prop where
  run : ∀ {n r σ σ'}, ev.exec n σ = .done r σ' → I σ → I σ'
  rest : ∀ {σ σ'}, pause σ σ' → I σ → I σ'
  calm : ∀ {σ : EvalState} {w}, σ.world.Calm w → pause σ { σ with world := w }
  frames : ∀ σ fs, pause σ (EvalState.setFrames σ fs)
  value : ∀ {r v σ σ'}, Eval.asValue r σ = .done v σ' → pause σ σ'

namespace Eval.Follows

variable {x : Eval α} {P Q : α → List Event → Prop}

theorem pure {a : α} (h : P a []) : (Pure.pure a : Eval α).Follows ev pause I P := fun σ hσ => ⟨hσ, [], .nil σ, h⟩

theorem imp (hx : x.Follows ev pause I P) (h : ∀ a es, P a es → Q a es) : x.Follows ev pause I Q := fun σ hσ =>
  (hx σ hσ).impDone fun _ _ ⟨kind, es, trail, hp⟩ => ⟨kind, es, trail, h _ _ hp⟩

theorem ran (hx : x.Follows ev pause I P) : x.Follows ev pause I fun a es => P a es ∧ ∃ σ σ', x σ = .done a σ' :=
  fun σ hσ => ((hx σ hσ).and (Comp.meets_self x σ)).impDone
    fun _ σ' ⟨⟨kind, es, trail, hp⟩, run⟩ => ⟨kind, es, trail, hp, σ, σ', run⟩

theorem bind {f : α → Eval β} {R : β → List Event → Prop} (hx : x.Follows ev pause I P)
    (hf : ∀ a es, P a es → (f a).Follows ev pause I fun b fs => R b (es ++ fs)) : (x >>= f).Follows ev pause I R := by
  intro σ hσ
  rw [Comp.meets_bind]
  refine (hx σ hσ).impDone fun a σ₁ ⟨kind, es, first, hp⟩ => ?_
  refine (hf a es hp σ₁ kind).impDone fun b σ' ⟨kind', fs, second, hr⟩ => ?_
  exact ⟨kind', es ++ fs, first.append second, hr⟩

theorem after {f : α → Eval β} {S : α → Prop} {R : β → List Event → Prop}
    (hx : x.Follows ev pause I fun a es => es = [] ∧ S a) (hf : ∀ a, S a → (f a).Follows ev pause I R) :
    (x >>= f).Follows ev pause I R :=
  hx.bind fun a _ ⟨silent, ha⟩ => by subst silent; exact hf a ha

theorem exhausted : Eval.Follows ev pause I P Comp.exhausted := fun _ _ => trivial

theorem stop {n : Node} {c : Cause} : (Eval.stop n c : Eval α).Follows ev pause I P := fun _ _ => trivial

theorem get :
    (monadLift Run.get : Eval World).Follows ev pause I fun w es => es = [] ∧ ∃ σ, I σ ∧ σ.world = w := fun σ hσ =>
  ⟨hσ, [], .nil σ, rfl, σ, hσ, rfl⟩

theorem collect {xs : List β} {f : β → Eval α} {S : β → α → Prop}
    (h : ∀ b ∈ xs, (f b).Follows ev pause I fun a es => es = [] ∧ S b a) :
    (ScriptCore.collect xs f).Follows ev pause I fun as es => es = [] ∧ List.Forall₂ S xs as := by
  induction xs with
  | nil => exact .pure ⟨rfl, .nil⟩
  | cons b rest ih =>
    refine .after (h b List.mem_cons_self) fun a ha =>
      .after (ih fun c hc => h c (List.mem_cons_of_mem b hc)) fun as has => ?_
    exact .pure ⟨rfl, .cons ha has⟩

theorem forEach {xs : List β} {f : β → Eval Unit} (h : ∀ b ∈ xs, (f b).Follows ev pause I fun _ es => es = [] ∧ True) :
    (ScriptCore.forEach xs f).Follows ev pause I fun _ es => es = [] ∧ True := by
  induction xs with
  | nil => exact .pure ⟨rfl, trivial⟩
  | cons b rest ih => exact .after (h b List.mem_cons_self) fun _ _ => ih fun c hc => h c (List.mem_cons_of_mem b hc)

theorem catching {handler : World → Failure → Option (Eval α)} (hx : x.Follows ev pause I P)
    (fails : ∀ w e y σ, handler w e = some y → y.Meets σ (fun _ _ => False) fun _ _ => True) :
    (Eval.catching x handler).Follows ev pause I P := fun σ hσ => by
  refine Eval.meets_catching.mpr ((hx σ hσ).mono (fun _ _ h => h) fun e σ' _ => ?_)
  split
  · next y found => exact (fails _ _ y σ' found).imp fun _ _ h => h.elim
  · trivial

end Eval.Follows

namespace Trail.Regular

variable (h : Regular ev pause I)
include h

theorem exec (n : Node) : (ev.exec n).Follows ev pause I fun r es => es = [(n, r)] := fun σ hσ =>
  (Comp.meets_self _ σ).impDone fun r σ' run => ⟨h.run run hσ, [(n, r)], .exec run (.nil σ'), rfl⟩

theorem pausing {x : Eval α} {S : α → Prop}
    (hx : ∀ σ a σ', x σ = .done a σ' → pause σ σ' ∧ S a) : x.Follows ev pause I fun a es => es = [] ∧ S a := fun σ hσ =>
  (Comp.meets_self x σ).impDone fun a σ' run =>
    have ⟨step, ha⟩ := hx σ a σ' run
    ⟨h.rest step hσ, [], .pause step (.nil σ'), rfl, ha⟩

theorem lift {t : Tier} (x : Action .nothing t α) {S : α → Prop}
    (hx : ∀ σ, I σ → x.run.Meets σ.world (fun a _ => S a) fun _ _ => True) :
    (monadLift x : Eval α).Follows ev pause I fun a es => es = [] ∧ S a := fun σ hσ => by
  refine Eval.meets_lift.mpr (((x.meets_calm σ.world).and (hx σ hσ)).impDone ?_)
  rintro a w ⟨calm, ha⟩
  exact ⟨h.rest (h.calm calm) hσ, [], .pause (h.calm calm) (.nil _), rfl, ha⟩

theorem quiet {t : Tier} (x : Action .nothing t α) :
    (monadLift x : Eval α).Follows ev pause I fun _ es => es = [] ∧ True :=
  h.lift x fun _ _ => Comp.meets_of_forall (fun _ _ => trivial) fun _ _ => trivial

theorem located {t : Tier} (intro : Option String) (n : Node) (x : Action .nothing t α) :
    (Eval.located intro n (monadLift x)).Follows ev pause I fun _ es => es = [] ∧ True := fun σ hσ =>
  Eval.meets_located (h.quiet x σ hσ)

theorem asValue (r : Ending) : (Eval.asValue r).Follows ev pause I fun _ es => es = [] ∧ True :=
  h.pausing fun _ _ _ run => ⟨h.value run, trivial⟩

theorem withFrame {s : ScopeId} {x : Eval α} {P : α → List Event → Prop}
    (hx : x.Follows ev pause I P) : (Eval.withFrame s x).Follows ev pause I P := by
  intro σ hσ
  have entered : pause σ (σ.setFrames (s :: σ.frames)) := h.frames σ _
  unfold Eval.withFrame Eval.push
  simp only [Comp.meets_bind, Eval.meets_frames, Eval.meets_setFrames, Comp.meets_ensuring]
  refine (hx _ (h.rest entered hσ)).mono (fun a σ₁ ran => ?_) fun _ _ _ => ?_
  · obtain ⟨kind, es, trail, hp⟩ := ran
    unfold Eval.pop
    simp only [Comp.meets_bind, Eval.meets_frames]
    split
    · trivial
    · next rest _ =>
      have left : pause σ₁ (σ₁.setFrames rest) := h.frames σ₁ rest
      have back : Trail ev pause [] σ₁ (σ₁.setFrames rest) := .pause left (.nil _)
      exact ⟨h.rest left kind, es, by simpa using (Trail.pause entered trail).append back, hp⟩
  · exact Comp.meets_of_forall (fun _ _ => trivial) fun _ _ => trivial

theorem perform (n : Node) : (ev.perform n).Follows ev pause I fun _ es => es.map Prod.fst = [n] :=
  (h.exec n).bind fun r es hes => .pure (by simp [hes])

theorem eval (n : Node) : (ev.eval n).Follows ev pause I fun _ es => es.map Prod.fst = [n] :=
  (h.exec n).bind fun r es hes => (h.asValue r).imp fun _ fs ⟨silent, _⟩ => by simp [hes, silent]

theorem performAll (ns : List Node) : (forEach ns ev.perform).Follows ev pause I fun _ es => es.map Prod.fst = ns := by
  induction ns with
  | nil => exact .pure rfl
  | cons n rest ih => exact (h.perform n).bind fun _ es hes => ih.imp fun _ fs hfs => by simp [hes, hfs]

theorem evalArgs (ns : List Node) : (ev.evalArgs ns).Follows ev pause I fun _ es => es.map Prod.fst = ns := by
  unfold Evaluator.evalArgs
  induction ns with
  | nil => exact .pure rfl
  | cons n rest ih =>
    refine .bind (P := fun _ es => es.map Prod.fst = [n]) ?_ fun v es hes =>
      ih.bind fun vs fs hfs => .pure (by simp [hes, hfs])
    refine (h.eval n).bind fun v es hes => ?_
    split
    · exact .after (h.quiet _) fun _ _ => .stop
    · exact .pure (by simpa using hes)

theorem runOthers (last : Value) (ns : List Node) :
    (ev.runOthers last ns).Follows ev pause I fun _ es => RunsThrough (ns.filter fun n => !n.isClassDecl) es := by
  induction ns generalizing last with
  | nil => exact .pure .nil
  | cons n rest ih =>
    unfold Evaluator.runOthers
    split
    · next declares => simpa [declares] using ih last
    · next other =>
      refine .after (h.quiet _) fun _ _ => (h.exec n).bind fun r es hes => ?_
      subst hes
      have kept : (n :: rest).filter (fun n => !n.isClassDecl) = n :: rest.filter fun n => !n.isClassDecl := by simp [other]
      rw [kept]
      split
      · exact .pure .signal
      · exact (ih _).imp fun _ fs hfs => .value hfs

theorem runStatements (ns : List Node) : (ev.runStatements ns).Follows ev pause I fun _ es => RunsBlock ns es :=
  (h.performAll _).bind fun _ es hes => (h.runOthers .void ns).imp fun _ fs hfs => ⟨es, fs, rfl, hes, hfs⟩

theorem checkLock (block lock : Node) :
    (ev.checkLock block lock).Follows ev pause I fun _ es => es.map Prod.fst = if lock.isAbsent then [] else [lock] := by
  unfold Evaluator.checkLock
  split
  · exact .pure rfl
  · refine (h.eval lock).bind fun v es hes => ?_
    split
    · exact .stop
    · exact .pure (by simpa using hes)

end Trail.Regular

end ScriptCore
