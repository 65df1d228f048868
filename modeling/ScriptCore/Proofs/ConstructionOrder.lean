import Mathlib.Data.List.Nodup
import ScriptCore.Proofs.Hierarchies
import ScriptCore.Proofs.Trails

namespace ScriptCore

namespace Evaluator

/-- The classes on the line of superclasses, from a class up. -/
inductive OnLine (w : World) (c : ClassRef) : ClassRef → Prop
  | self : OnLine w c c
  | above {k p : ClassRef} (h : OnLine w c k) (nearest : scriptedSuperclass? w k = some p) : OnLine w c p

/-- A constructor that a class on the line declares. -/
def IsConstructor (w : World) (c : ClassRef) (decl : Node) : Prop :=
  ∃ k part, OnLine w c k ∧ w.script? k = some part ∧ decl ∈ part.body.constructors

/-- The arguments of the constructors in a construction: those that it was asked for with, none, or
what the arguments of a call from one constructor to another were evaluated to. -/
inductive Passed (ev : Evaluator) (w : World) (c : ClassRef) (given : List Value) : List Value → Prop
  | given : Passed ev w c given given
  | none : Passed ev w c given []
  | evaluated {decl : Node} {ss : List Node} {call : Node × String × List Node} {args : List Value} {σ σ' : EvalState}
      (declared : IsConstructor w c decl) (statements : decl.methodBody.statements? = some ss)
      (explicit : explicitCall? ss = some call) (run : ev.evalArgs call.2.2 σ = .done args σ') : Passed ev w c given args

/-- What the construction of an instance does besides evaluating nodes: methods and constructors are
built, arguments are bound in scopes that are new, and the host sets up its part at the root of the
line. -/
inductive Preparing (ev : Evaluator) (w : World) (v : Value) (c : ClassRef) (given : List Value) (σ : EvalState) :
    EvalState → Prop
  | calm {w' : World} (h : σ.world.Calm w') : Preparing ev w v c given σ { σ with world := w' }
  | frames (fs : List ScopeId) : Preparing ev w v c given σ (σ.setFrames fs)
  | value {r : Ending} {x : Value} {σ' : EvalState} (h : Eval.asValue r σ = .done x σ') : Preparing ev w v c given σ σ'
  | declared {i : ObjectId} {inst : ScopeId} {k : ClassRef} {body : ClassBody} {σ' : EvalState} (object : v = .object i)
      (h : declareMethods i inst k body σ = .done () σ') : Preparing ev w v c given σ σ'
  | built {decl : Node} {home : ScopeId} {m : Method} {σ' : EvalState} (declared : IsConstructor w c decl)
      (h : buildMethod decl home σ = .done m σ') : Preparing ev w v c given σ σ'
  | bound {decl : Node} {s : ScopeId} {m : Method} {args : List Value} {caller : Node} {σ' : EvalState}
      (declared : IsConstructor w c decl) (body : m.body = decl.methodBody) (new : w.scopes.size ≤ s)
      (passed : Passed ev w c given args) (h : bindArguments s m args caller σ = .done () σ') :
      Preparing ev w v c given σ σ'
  | hosted {k : ClassRef} {args : List Value} {caller : Node} {σ' : EvalState} (line : OnLine w c k)
      (root : scriptedSuperclass? w k = none) (passed : Passed ev w c given args)
      (h : ev.constructHostPart v k args caller σ = .done () σ') : Preparing ev w v c given σ σ'
  | logged {parts : List String} {values : List Value} {σ' : EvalState}
      (h : (monadLift (ev.debugValues parts values) : Eval Unit) σ = .done () σ') : Preparing ev w v c given σ σ'

def locks : Node → List Node
  | .block _ _ lock => if lock.isAbsent then [] else [lock]
  | _ => []

def RunsBody (body : Node) (rest : List Node) (es : List Event) : Prop :=
  (rest = [] ∧ es = []) ∨ ∃ locked run, es = locked ++ run ∧ locked.map Prod.fst = locks body ∧ RunsBlock rest run

/-- The part of one class in a construction: its fields, each once and in the order of declaration,
then the bodies of its constructors, that of a constructor which passes its work on after that of
the other. -/
inductive Contributes (b : ClassBody) : List Event → Prop
  | fields {es : List Event} (none : b.constructors = []) (initialised : es.map Prod.fst = b.fields) : Contributes b es
  | body {decl : Node} {ss : List Node} {es fs : List Event} (declared : decl ∈ b.constructors)
      (statements : decl.methodBody.statements? = some ss) (own : delegates ss = false)
      (initialised : es.map Prod.fst = b.fields) (run : RunsBody decl.methodBody (remaining ss) fs)
        : Contributes b (es ++ fs)
  | delegated {decl : Node} {ss : List Node} {es fs : List Event} (declared : decl ∈ b.constructors)
      (statements : decl.methodBody.statements? = some ss) (passed : delegates ss = true) (first : Contributes b es)
      (run : RunsBody decl.methodBody (remaining ss) fs) : Contributes b (es ++ fs)

def IsArgument (w : World) (line : List ClassRef) (e : Event) : Prop :=
  ∃ k ∈ line, ∃ part, w.script? k = some part ∧ ∃ decl ∈ part.body.constructors, ∃ ss call,
    decl.methodBody.statements? = some ss ∧ explicitCall? ss = some call ∧ e.1 ∈ call.2.2

def Share (w : World) (k : ClassRef) (es : List Event) : Prop := ∃ part, w.script? k = some part ∧ Contributes part.body es

/-- A construction up to some class: the arguments, then the parts of the classes from the root of
the line down, and last what the class itself has done. -/
inductive Constructs (w : World) (k : ClassRef) (last : List Event → Prop) : List Event → Prop
  | mk {upper : List ClassRef} {asked own : List Event} {shares : List (List Event)} (line : Lineage w k upper)
      (arguments : ∀ e ∈ asked, IsArgument w (upper ++ [k]) e) (above : List.Forall₂ (Share w) upper shares)
      (done : last own) :
      Constructs w k last (asked ++ shares.flatten ++ own)

inductive Started (b : ClassBody) : Option (Nat × Method) → List Node → Prop
  | bare (h : b.constructors = []) : Started b none []
  | taken {decl : Node} {i : Nat} {m : Method} {ss : List Node} (declared : decl ∈ b.constructors)
      (body : m.body = decl.methodBody) (statements : m.body.statements? = some ss) : Started b (some (i, m)) ss

def Initialises (b : ClassBody) (ss : List Node) (es : List Event) : Prop :=
  if delegates ss then Contributes b es else es.map Prod.fst = b.fields

def Finishes (chosen : Option (Nat × Method)) (rest : List Node) (es : List Event) : Prop :=
  match chosen with
  | some (_, m) => RunsBody m.body rest es
  | none => es = []

variable {ev : Evaluator} {w : World} {v : Value} {c₀ c : ClassRef} {given : List Value}

theorem Preparing.since (sound : ev.Sound .unrestricted) {σ σ' : EvalState}
    (h : ev.Preparing w v c given σ σ') : Terms.unrestricted.Since σ.world σ'.world := by
  have allowed (r : Role) (n : Node) := Terms.allows_unrestricted r n
  cases h with
  | calm h => exact .of_inert h.inert
  | frames fs => exact Terms.since_setFrames .unrestricted σ fs
  | value h => exact (Eval.Sound.since (t := .proper) (.asValue fun ho => by cases ho) σ).of_done h
  | declared _ h => exact (Eval.Sound.since (sound.declareMethods _ _ _ fun n _ => allowed _ n) σ).of_done h
  | built _ h => exact (Eval.Sound.since (sound.buildMethod (allowed _ _) _) σ).of_done h
  | bound _ _ _ _ h => exact (Eval.Sound.since (sound.bindArguments _ _ _ _) σ).of_done h
  | hosted _ _ _ h => exact (Eval.Sound.since (sound.constructHostPart _ _ _ _) σ).of_done h
  | logged h => exact (Eval.Sound.since (sound.lift (t := .proper) _) σ).of_done h

theorem regular (sound : ev.Sound .unrestricted) (w : World) (v : Value) (c : ClassRef) (given : List Value) :
    Trail.Regular ev (ev.Preparing w v c given) fun σ => Terms.unrestricted.Since w σ.world where
  run h since := since.trans ((Eval.Sound.since (sound.exec _ (Terms.allows_unrestricted _ _)) _).of_done h)
  rest h since := since.trans (h.since sound)
  calm h := .calm h
  frames _ fs := .frames fs
  value h := .value h

variable {b : ClassBody} {chosen : Option (Nat × Method)}

theorem Started.contributes {ss : List Node} {es fs : List Event} (h : Started b chosen ss)
    (first : Initialises b ss es) (rest : Finishes chosen (remaining ss) fs) : Contributes b (es ++ fs) := by
  cases h with
  | bare none =>
    obtain rfl : fs = [] := rest
    have fields : es.map Prod.fst = b.fields := first
    exact .fields none (by simpa using fields)
  | taken declared body statements =>
    unfold Initialises at first
    rw [Finishes, body] at rest
    rw [body] at statements
    split at first
    · next passed => exact .delegated declared statements passed first rest
    · next own => exact .body declared statements (by simpa using own) first rest

/-- Before the statements of a constructor, if there are any, its lock is evaluated. -/
def Locks (chosen : Option (Nat × Method)) (rest : List Node) (es : List Event) : Prop :=
  match chosen with
  | some (_, m) => if rest = [] then es = [] else es.map Prod.fst = locks m.body
  | none => es = []

theorem eq_nil_of_runsBlock {es : List Event} (h : RunsBlock [] es) : es = [] := by
  obtain ⟨declared, others, rfl, none, run⟩ := h
  cases run
  simpa using none

theorem Locks.finishes {rest : List Node} {es fs : List Event} (h : Locks chosen rest es) (run : RunsBlock rest fs)
    (bare : chosen = none → rest = []) : Finishes chosen rest (es ++ fs) := by
  cases chosen with
  | none =>
    obtain rfl := bare rfl
    obtain rfl : es = [] := h
    exact eq_nil_of_runsBlock run
  | some e =>
    obtain ⟨i, m⟩ := e
    unfold Locks at h
    dsimp only at h
    split at h
    · next empty =>
      subst empty h
      exact .inl ⟨rfl, eq_nil_of_runsBlock run⟩
    · exact .inr ⟨es, fs, rfl, h, run⟩

section

variable {I : EvalState → Prop} (reg : Trail.Regular ev (ev.Preparing w v c₀ given) I)
include reg

theorem buildConstructors_follows (declared : ∀ decl ∈ b.constructors, IsConstructor w c₀ decl)
    (c : ClassRef) (inst : ScopeId) :
    (buildConstructors c inst b).Follows ev (ev.Preparing w v c₀ given) I fun ms es =>
      es = [] ∧ List.Forall₂ (fun decl (m : Method) => m.body = decl.methodBody) b.constructors ms :=
  .collect fun decl hd =>
    .after (reg.pausing fun _ _ _ run => ⟨.built (declared decl hd) run, (built_of_buildMethod run).2.1⟩)
      fun _ body => .pure ⟨rfl, body⟩

theorem chooseConstructor_follows {ms : List Method}
    (built : List.Forall₂ (fun decl (m : Method) => m.body = decl.methodBody) b.constructors ms) (w' : World) (c : ClassRef)
    (anonymous : Bool) (args : List Value) (caller : Node) (calling : Option Nat) :
    (chooseConstructor w' c anonymous ms args caller calling).Follows ev (ev.Preparing w v c₀ given)
    I fun chosen es => es = [] ∧
      ((chosen = none ∧ b.constructors = []) ∨
        ∃ i m decl, chosen = some (i, m) ∧ decl ∈ b.constructors ∧ m.body = decl.methodBody) := by
  unfold chooseConstructor
  split
  · next empty =>
    have none : b.constructors = [] := by
      rw [List.isEmpty_iff.mp empty] at built
      exact List.forall₂_nil_right_iff.mp built
    split
    · exact .stop
    · exact .pure ⟨rfl, .inl ⟨rfl, none⟩⟩
  · refine .after (reg.located _ _ _) fun best _ => ?_
    split
    · exact .stop
    · next i m found =>
      split
      · exact .stop
      · obtain ⟨j, -, hj⟩ := Option.bind_eq_some_iff.mp found
        obtain ⟨m', hm, he⟩ := Option.map_eq_some_iff.mp hj
        cases he
        obtain ⟨inside, rfl⟩ := List.getElem?_eq_some_iff.mp hm
        have declared : i < b.constructors.length := built.length_eq ▸ inside
        exact .pure ⟨rfl, .inr ⟨i, _, _, rfl, List.getElem_mem declared, built.get declared inside⟩⟩

theorem constructorStatements_follows (h : (chosen = none ∧ b.constructors = []) ∨
      ∃ i m decl, chosen = some (i, m) ∧ decl ∈ b.constructors ∧ m.body = decl.methodBody) :
    (monadLift (constructorStatements chosen) : Eval (List Node)).Follows ev (ev.Preparing w v c₀ given) I fun ss es =>
      es = [] ∧ Started b chosen ss := by
  refine reg.lift _ fun _ _ => ?_
  rcases h with ⟨rfl, none⟩ | ⟨i, m, decl, rfl, declared, body⟩
  · exact .bare none
  · unfold constructorStatements
    dsimp only
    cases statements : m.body.statements? with
    | none => trivial
    | some ss => exact .taken declared body statements

theorem bindChosen_follows {ss : List Node} (started : Started b chosen ss)
    (declared : ∀ decl ∈ b.constructors, IsConstructor w c₀ decl) {frame : ScopeId} (new : w.scopes.size ≤ frame)
    {args : List Value} (passed : Passed ev w c₀ given args) (caller : Node) :
    (bindChosen frame chosen args caller).Follows ev (ev.Preparing w v c₀ given) I fun _ es => es = [] ∧ True := by
  cases started with
  | bare => exact .pure ⟨rfl, trivial⟩
  | taken here body => exact reg.pausing fun _ _ _ run => ⟨.bound (declared _ here) body new passed run, trivial⟩

theorem passedOn_follows {ss : List Node} (started : Started b chosen ss)
    (declared : ∀ decl ∈ b.constructors, IsConstructor w c₀ decl) {implicit : List Value}
    (passed : Passed ev w c₀ given implicit) :
    (ev.passedOn (explicitCall? ss) implicit).Follows ev (ev.Preparing w v c₀ given) I fun args es =>
      Passed ev w c₀ given args ∧ ∀ e ∈ es, ∃ call, explicitCall? ss = some call ∧ e.1 ∈ call.2.2 := by
  unfold passedOn
  split
  · next l name nodes explicit =>
    refine (reg.evalArgs nodes).ran.imp fun args es ⟨hes, σ, σ', run⟩ => ⟨?_, fun e he => ⟨_, explicit, ?_⟩⟩
    · cases started with
      | bare => cases explicit
      | taken here body statements => exact .evaluated (declared _ here) (body ▸ statements) explicit run
    · rw [← hes]
      exact List.mem_map_of_mem he
  · exact .pure ⟨passed, fun _ he => absurd he List.not_mem_nil⟩

theorem prepareStatements_follows (name : String) (chosen : Option (Nat × Method)) (args : List Value) (rest : List Node) :
    (ev.prepareStatements name chosen args rest).Follows ev (ev.Preparing w v c₀ given) I fun _ es =>
      Locks chosen rest es := by
  unfold prepareStatements
  split
  · unfold Locks
    dsimp only
    cases rest with
    | nil => exact .pure rfl
    | cons n rest =>
      simp only [List.isEmpty_cons, Bool.false_eq_true, if_false, reduceCtorEq]
      refine .after (S := fun _ => True) (reg.pausing fun _ _ _ run => ⟨.logged run, trivial⟩) fun _ _ => ?_
      split
      · next block => exact (reg.checkLock _ _).imp fun _ es hes => by rw [hes, block, locks]
      · next other =>
        refine .pure ?_
        unfold locks
        split
        · next block => exact absurd block (other _ _ _)
        · rfl
  · exact .pure rfl

end

theorem IsArgument.mono {line line' : List ClassRef} {e : Event} (h : IsArgument w line e)
    (more : line ⊆ line') : IsArgument w line' e := by
  obtain ⟨k, hk, rest⟩ := h
  exact ⟨k, more hk, rest⟩

theorem Constructs.under {c p : ClassRef} {last : List Event → Prop} {es fs : List Event}
    (nearest : scriptedSuperclass? w c = some p) (above : Constructs w p (Share w p) es) (own : last fs) :
    Constructs w c last (es ++ fs) := by
  obtain @⟨upper, asked, share, shares, line, arguments, above, own'⟩ := above
  have joined : asked ++ shares.flatten ++ share ++ fs = asked ++ (shares ++ [share]).flatten ++ fs := by simp
  rw [joined]
  exact .mk (.under nearest line) (fun e he => (arguments e he).mono (List.subset_append_left _ _))
    (List.rel_append above (.cons own' .nil)) own

theorem Constructs.imp {first last : List Event → Prop} {es : List Event} (h : Constructs w c first es)
    (done : ∀ own, first own → last own) : Constructs w c last es := by
  obtain ⟨line, arguments, above, own⟩ := h
  exact .mk line arguments above (done _ own)

theorem Constructs.around {first last : List Event → Prop} {args es fs : List Event}
    (asked : ∀ e ∈ args, IsArgument w [c] e) (mid : Constructs w c first es) (rest : ∀ own, first own → last (own ++ fs)) :
    Constructs w c last (args ++ (es ++ fs)) := by
  obtain @⟨upper, asked', own, shares, line, arguments, above, done⟩ := mid
  have joined : args ++ (asked' ++ shares.flatten ++ own ++ fs) = args ++ asked' ++ shares.flatten ++ (own ++ fs) := by simp
  rw [joined]
  refine .mk line (fun e he => ?_) above (rest own done)
  rcases List.mem_append.mp he with he | he
  · exact (asked e he).mono (List.subset_append_right _ _)
  · exact arguments e he

theorem Started.isArgument {part : ScriptPart} {ss : List Node} {e : Event}
    (h : Started part.body chosen ss) (script : w.script? c = some part)
    (asked : ∃ call, explicitCall? ss = some call ∧ e.1 ∈ call.2.2) : IsArgument w [c] e := by
  obtain ⟨call, explicit, he⟩ := asked
  cases h with
  | bare => cases explicit
  | taken declared body statements =>
    rw [body] at statements
    exact ⟨c, List.mem_singleton_self c, part, script, _, declared, ss, call, statements, explicit, he⟩

section

variable (sound : ev.Sound .unrestricted) (linear : w.Linearised)
include sound

theorem openConstructor_follows {part : ScriptPart} (script : w.script? c = some part) (line : OnLine w c₀ c) {w' : World}
    (same : w.SameClasses w') (inst : ScopeId) (args : List Value) (caller : Node) (calling : Option Nat) :
    (openConstructor w' c inst args caller calling).Follows ev (ev.Preparing w v c₀ given)
      (fun σ => Terms.unrestricted.Since w σ.world) fun k es =>
        es = [] ∧ k.body = part.body ∧ Started part.body k.chosen k.statements ∧ w.scopes.size ≤ k.frame := by
  have reg := regular sound w v c₀ given
  unfold openConstructor
  rw [World.inheritedScript_of_script (same.script_of_some script)]
  refine .after (buildConstructors_follows reg (fun decl hd => ⟨c, part, line, script, hd⟩) c inst) fun ms built =>
    .after (chooseConstructor_follows reg built _ _ _ _ _ _) fun chosen hchosen =>
    .after (constructorStatements_follows reg hchosen) fun ss started => .after (S := fun s => w.scopes.size ≤ s) ?_
      fun frame new => .pure ⟨rfl, rfl, started, new⟩
  exact reg.lift _ fun σ since => since.frames.size

include linear

theorem beginConstructor_follows {level : ClassRef → List Value → Node → Option Nat → Eval Unit}
    {part : ScriptPart} (script : w.script? c = some part) (line : OnLine w c₀ c)
    (hl : ∀ k args caller calling, (w.script? k).isSome → OnLine w c₀ k → Passed ev w c₀ given args →
      (level k args caller calling).Follows ev (ev.Preparing w v c₀ given)
      (fun σ => Terms.unrestricted.Since w σ.world) fun _ es => Constructs w k (Share w k) es)
    {w' : World} (same : w.SameClasses w') (inst : ScopeId) {args : List Value} (passed : Passed ev w c₀ given args)
    (caller : Node) {k : ConstructorCall} (body : k.body = part.body) (started : Started part.body k.chosen k.statements)
    (new : w.scopes.size ≤ k.frame) :
    (ev.beginConstructor level w' v c inst args caller k).Follows ev (ev.Preparing w v c₀ given)
      (fun σ => Terms.unrestricted.Since w σ.world) fun _ es => ∃ asked mid locked, es = asked ++ (mid ++ locked) ∧
        (∀ e ∈ asked, IsArgument w [c] e) ∧ Constructs w c (Initialises part.body k.statements) mid ∧
        Locks k.chosen (remaining k.statements) locked := by
  have reg := regular sound w v c₀ given
  have declared (decl : Node) (hd : decl ∈ part.body.constructors) : IsConstructor w c₀ decl := ⟨c, part, line, script, hd⟩
  have implicit : Passed ev w c₀ given (if k.chosen.isNone && k.anonymous then args else []) := by
    split
    · exact passed
    · exact .none
  unfold beginConstructor
  rw [scriptedSuperclass_eq same linear script]
  refine .after (bindChosen_follows reg started declared new passed caller) fun _ _ =>
    (passedOn_follows reg started declared implicit).bind fun args asked ⟨passed, hasked⟩ =>
    .bind (P := fun _ es => Constructs w c (Initialises part.body k.statements) es) ?_ fun _ mid hmid =>
    (prepareStatements_follows reg _ _ _ _).imp fun _ locked hlocked => ?_
  · split
    · next passing =>
      refine (hl c args _ _ (Option.isSome_of_eq_some script) line passed).imp fun _ es level => ?_
      refine level.imp fun own ⟨part', script', share⟩ => ?_
      cases script.symm.trans script'
      exact (if_pos passing).mpr share
    · next own =>
      have fields : (ev.evalFields inst k.body.fields).Follows ev (ev.Preparing w v c₀ given)
          (fun σ => Terms.unrestricted.Since w σ.world) fun _ es => Initialises part.body k.statements es :=
        (reg.withFrame (reg.performAll _)).imp fun _ es hes => (if_neg own).mpr (body ▸ hes)
      split
      · next p nearest =>
        obtain ⟨_, script', -⟩ := isScriptedClass_iff.mp (isScriptedClass_of_scriptedSuperclass nearest)
        exact (hl p args _ _ (Option.isSome_of_eq_some script') (.above line nearest) passed).bind fun _ es above =>
          fields.imp fun _ fs hfs => above.under nearest hfs
      · next none =>
        refine .after (S := fun _ => True)
          (reg.pausing fun _ _ _ run => ⟨.hosted line none passed run, trivial⟩) fun _ _ => ?_
        refine fields.imp fun _ fs hfs => ?_
        have start : Constructs w c (Initialises part.body k.statements) ([] ++ [].flatten ++ fs) :=
          .mk (.root none) (fun _ he => absurd he List.not_mem_nil) .nil hfs
        exact start
  · exact ⟨asked, mid, locked, rfl, fun e he => started.isArgument script (hasked e he), hmid, hlocked⟩

theorem constructLevel_follows (fuel : Nat) (inst : ScopeId) (scripted : (w.script? c).isSome) (line : OnLine w c₀ c)
    {args : List Value} (passed : Passed ev w c₀ given args) (caller : Node) (calling : Option Nat) :
    (ev.constructLevel fuel v c inst args caller calling).Follows ev (ev.Preparing w v c₀ given)
      (fun σ => Terms.unrestricted.Since w σ.world) fun _ es => Constructs w c (Share w c) es := by
  have reg := regular sound w v c₀ given
  induction fuel generalizing c args caller calling with
  | zero => exact .exhausted
  | succ fuel ih =>
    obtain ⟨part, script⟩ := Option.isSome_iff_exists.mp scripted
    refine .after .get fun w' ⟨σ, since, hw⟩ => ?_
    subst hw
    have same := since.classes rfl
    refine .after (openConstructor_follows sound script line same inst args caller calling) fun k ⟨body, started, new⟩ =>
      reg.withFrame ?_
    refine (beginConstructor_follows sound linear script line (fun p args caller calling scripted line passed =>
      ih scripted line passed caller calling) same inst passed caller body started new).bind fun _ es begun => ?_
    refine (reg.runStatements (remaining k.statements)).bind fun _ fs run => .pure ?_
    obtain ⟨asked, mid, locked, rfl, hasked, hmid, hlocked⟩ := begun
    have bare : k.chosen = none → remaining k.statements = [] := by
      intro none
      rw [none] at started
      generalize hs : k.statements = ss at started
      cases started
      rfl
    have finished : Finishes k.chosen (remaining k.statements) (locked ++ fs) := hlocked.finishes run bare
    have whole : Constructs w c (Share w c) _ := hmid.around hasked fun own first =>
      ⟨part, script, started.contributes first finished⟩
    simpa using whole

theorem setUpScripted_follows (i : ObjectId) (scripted : (w.script? c).isSome) (args : List Value) (caller : Node) :
    (ev.setUpScripted (.object i) c args caller).Follows ev (ev.Preparing w (.object i) c args)
      (fun σ => Terms.unrestricted.Since w σ.world) fun _ es => Constructs w c (Share w c) es := by
  have reg := regular sound w (.object i) c args
  refine .after .get fun w' _ => .after (reg.quiet _) fun inst _ => .after (reg.quiet _) fun _ _ =>
    .after (reg.quiet _) fun _ _ => reg.withFrame (.after (.forEach fun e _ => ?_) fun _ _ => ?_)
  · exact reg.pausing fun _ _ _ run => ⟨.declared rfl run, trivial⟩
  · exact constructLevel_follows sound linear _ inst scripted .self .given caller none

theorem constructScripted_follows {part : ScriptPart} {args : List Value} {node : Node} {σ σ' : EvalState}
    (script : w.script? c = some part) (start : σ.world = w) (done : ev.constructScripted c args node σ = .done v σ') :
    isScriptedClass w c = true ∧ ∃ es, Trail ev (ev.Preparing w v c args) es σ σ' ∧ Constructs w c (Share w c) es := by
  subst start
  unfold constructScripted at done
  rw [Eval.get_bind, World.inheritedScript_of_script script] at done
  dsimp only [Option.map_some, Option.getD_some] at done
  split at done
  · cases done
  · next concrete =>
    have scripted : isScriptedClass σ.world c = true := isScriptedClass_iff.mpr ⟨part, script, by simp_all⟩
    obtain ⟨x, σ₁, made, done⟩ := Comp.bind_done_iff.mp done
    obtain ⟨⟨⟩, σ₂, setUp, done⟩ := Comp.bind_done_iff.mp done
    cases done
    have reg := regular sound σ.world v c args
    have created : (monadLift (Run.newInstance c) : Eval Value).Follows ev (ev.Preparing σ.world v c args)
        (fun τ => Terms.unrestricted.Since σ.world τ.world) fun x es => es = [] ∧ ∃ i, x = .object i :=
      reg.lift _ fun τ _ => (Run.meets_newInstance c τ.world).impDone fun _ _ ⟨i, hx, _⟩ => ⟨i, hx⟩
    have caught := (created.catching (fun w e y τ found => by
      cases found
      exact Comp.meets_bind.mpr (Comp.meets_of_forall (fun _ _ => trivial) fun _ _ => trivial)) σ
        (.refl σ.world)).of_done made
    obtain ⟨since, es, first, rfl, i, rfl⟩ := caught
    have rest := setUpScripted_follows sound linear i (Option.isSome_of_eq_some script) args node σ₁ since
    obtain ⟨-, fs, second, whole⟩ := rest.of_done setUp
    exact ⟨scripted, fs, first.append second, whole⟩

end

/-- Whenever an instance of a scripted class is made, the nodes that were evaluated for it came in
this order: the arguments of the calls from one constructor to another, then the parts of the
scripted classes on the line of superclasses, from the root down. The part of a class is its fields,
each once and in the order of declaration, and then the bodies of its constructors. The line has
every scripted class of the hierarchy, unless one stands beside it. -/
theorem construction_goes_down_the_line (n : Nat) {σ σ' : EvalState} {c : ClassRef} {part : ScriptPart} {args : List Value}
    {node : Node} {v : Value} (linear : σ.world.Linearised) (script : σ.world.script? c = some part)
    (done : (ofFuel n).constructScripted c args node σ = .done v σ') :
    (∃ upper asked shares, Lineage σ.world c upper ∧
      Trail (ofFuel n) ((ofFuel n).Preparing σ.world v c args) (asked ++ shares.flatten) σ σ' ∧
      (∀ e ∈ asked, IsArgument σ.world (upper ++ [c]) e) ∧ List.Forall₂ (Share σ.world) (upper ++ [c]) shares ∧
      (upper ++ [c]).Nodup ∧ (upper ++ [c]).reverse.Sublist (scriptedClasses σ.world c) ∧
      (upper ++ [c] = (scriptedClasses σ.world c).reverse ↔ ∀ k ∈ scriptedClasses σ.world c, k ∈ upper ++ [c])) ∧
    ∀ (w w' : World) (spec : ClassSpec) (k : ClassRef), w.Linearised → (∀ m, .made m ∈ spec.bases → m < w.classes.size) →
      spec.make.run w = .done (.ok k) w' → w'.Linearised := by
  refine ⟨?_, fun w w' spec k before there => before.make there⟩
  have sound : (ofFuel n).Sound .unrestricted := .ofFuel n fun _ _ _ _ => trivial
  obtain ⟨scripted, es, trail, whole⟩ := constructScripted_follows sound linear script rfl done
  obtain @⟨upper, asked, own, shares, line, arguments, above, last⟩ := whole
  have within := line.sublist linear scripted
  obtain ⟨_, first, distinct, -⟩ := exists_scriptedClasses linear scripted
  refine ⟨upper, asked, shares ++ [own], line, by simpa using trail, arguments, ?_, ?_, within, ?_, ?_⟩
  · exact List.rel_append above (.cons last .nil)
  · exact List.nodup_reverse.mp (within.nodup (first ▸ distinct))
  · intro same k hk
    rw [same]
    exact List.mem_reverse.mpr hk
  · exact line.eq_scriptedClasses linear scripted

/-- Two classes with a field each, `A` with constructors of which one passes its work on. `C`
extends `A` and names `B` among its interfaces. `D` extends `A`; one of its constructors passes its
work on to the other, which calls that of `A`. -/
def familyWorld : World :=
  let number (n : Int) : Node := .literal {} (.ofInt n)
  let set (x : String) (e : Node) : Node := .assignment {} (.name {} x) .plain e
  let field (x : String) (n : Int) : Node := .varDecl {} (.typeRef {} (.named "int") 0) [.declarator {} x (number n) 0] []
  let constructor (cls : String) (params : List String) (ss : List Node) : Node :=
    .methodDecl {} cls (params.map fun x => .param {} x (.typeRef {} (.named "int") 0) []) (.blockOf ss) .absent []
  { scopes := #[{ registry := some 0 }, { parent := some 0, isClass := true }]
    classes := #[
      { (default : MadeClass) with
        name := "A"
        script := some { (default : ScriptPart) with
          staticScope := 1
          body := {
            fields := [field "a" 1]
            constructors := [constructor "A" [] [.invocation {} "this" [number 4]],
              constructor "A" ["x"] [set "a" (.name {} "x")]] } } },
      { (default : MadeClass) with
        name := "B", script := some { (default : ScriptPart) with staticScope := 1, body := { fields := [field "b" 2] } } },
      { name := "C", qualname := "C", module := "m", bases := [.made 0, .made 1]
        ancestors := [.made 0, .made 1, .core .object]
        bases_mem := fun _ h => List.mem_append_left [ClassRef.core .object] h
        object_mem := List.mem_append_right [ClassRef.made 0, .made 1] List.mem_cons_self
        metaclass := .core .type
        script := some { (default : ScriptPart) with staticScope := 1, body := {} } },
      { name := "D", qualname := "D", module := "m", bases := [.made 0], ancestors := [.made 0, .core .object]
        bases_mem := fun _ h => List.mem_append_left [ClassRef.core .object] h
        object_mem := List.mem_append_right [ClassRef.made 0] List.mem_cons_self
        metaclass := .core .type
        script := some { (default : ScriptPart) with
          staticScope := 1
          body := {
            fields := [field "d" 3]
            constructors := [constructor "D" [] [.invocation {} "this" [number 7], set "d" (number 5)],
              constructor "D" ["x"] [.invocation {} "super" [.name {} "x"], set "d" (.name {} "x")]] } } }]
    registries := #[{}] }

theorem linearised_familyWorld : familyWorld.Linearised := .of_lt (by decide)

theorem construction_goes_down_the_line_family : ∃ v σ',
    familyWorld.Linearised ∧ (familyWorld.script? (.made 3)).isSome ∧
    (ofFuel 9).constructScripted (.made 3) [] .absent ⟨familyWorld, .own ⟨[0]⟩⟩ = .done v σ' ∧
    (σ'.world.scope 2).vars.keys = ["a", "d"] ∧
    ∃ asked shares,
      Trail (ofFuel 9) ((ofFuel 9).Preparing familyWorld v (.made 3) []) (asked ++ shares.flatten)
        ⟨familyWorld, .own ⟨[0]⟩⟩ σ' ∧
      (∀ e ∈ asked, IsArgument familyWorld [.made 0, .made 3] e) ∧
      List.Forall₂ (Share familyWorld) [.made 0, .made 3] shares ∧
      (scriptedClasses familyWorld (.made 3)).reverse = [.made 0, .made 3] := by
  have run : ((ofFuel 9).constructScripted (.made 3) [] .absent ⟨familyWorld, .own ⟨[0]⟩⟩).doneWith fun _ σ' =>
      (σ'.world.scope 2).vars.keys = ["a", "d"] := by decide +kernel
  obtain ⟨v, σ', done, vars⟩ := Outcome.exists_of_doneWith run
  obtain ⟨⟨upper, asked, shares, line, trail, arguments, parts, -, -, whole⟩, -⟩ :=
    construction_goes_down_the_line 9 linearised_familyWorld rfl done
  obtain rfl : upper = [.made 0] := by
    cases line with
    | root none => cases none
    | under nearest rest =>
      cases nearest
      cases rest with
      | root none => rfl
      | under above _ => cases above
  have all : scriptedClasses familyWorld (.made 3) = [.made 3, .made 0] := rfl
  exact ⟨v, σ', linearised_familyWorld, rfl, done, of_decide_eq_true vars, asked, shares, trail, arguments, parts,
    (whole.mpr (by simp [all])).symm⟩

/-- `B` is a scripted class of the hierarchy of `C`, but its field is never evaluated for an
instance of `C`. -/
theorem class_beside_the_line_is_left_out : ∃ v σ',
    (ofFuel 9).constructScripted (.made 2) [] .absent ⟨familyWorld, .own ⟨[0]⟩⟩ = .done v σ' ∧
    scriptedClasses familyWorld (.made 2) = [.made 2, .made 0, .made 1] ∧
    (σ'.world.scope 2).vars.contains "a" = true ∧ (σ'.world.scope 2).vars.contains "b" = false := by
  have run : ((ofFuel 9).constructScripted (.made 2) [] .absent ⟨familyWorld, .own ⟨[0]⟩⟩).doneWith fun _ σ' =>
      (σ'.world.scope 2).vars.contains "a" && !(σ'.world.scope 2).vars.contains "b" := by decide +kernel
  obtain ⟨v, σ', done, vars⟩ := Outcome.exists_of_doneWith run
  exact ⟨v, σ', done, rfl, by simpa using vars⟩

end Evaluator

end ScriptCore
