import ScriptCore.Proofs.ArgumentBinding
import ScriptCore.Proofs.FieldAccess
import ScriptCore.Proofs.InstanceCalls

namespace ScriptCore

def Variable.loosened (x : Variable) : Variable := { value := x.value }

namespace World

variable {w w' : World} {c t : ScopeId}

/-- The methods of a scope as declarations leave them: each under its own name, and none with the
parameter types of another of that name. -/
structure Filed (w : World) (t : ScopeId) : Prop where
  keys : (w.scope t).methods.keys.Nodup
  named : ∀ e ∈ (w.scope t).methods.entries, ∀ m ∈ e.2, m.name = e.1
  distinct : ∀ e ∈ (w.scope t).methods.entries, (e.2.map Method.paramTypes).Nodup

structure IsOwn (w : World) (t : ScopeId) : Prop where
  inside : t < w.scopes.size
  first : (w.scope t).isClass = false ∨ w.importTargets t = []

/-- The scope `c` declares the methods of `t`, stands inside it and imports nothing. -/
structure Mirrors (w : World) (c t : ScopeId) : Prop where
  own : w.IsOwn t
  parent : (w.scope c).parent = some t
  older : t < c
  plain : (w.scope c).isClass = false
  imports : w.importTargets c = []
  methods : ∀ name, w.overloads c name = w.overloads t name

theorem IsOwn.of_scope (own : w.IsOwn t) (size : w.scopes.size ≤ w'.scopes.size)
    (same : w'.scope t = w.scope t) : w'.IsOwn t := by
  refine ⟨Nat.lt_of_lt_of_le own.inside size, ?_⟩
  rw [importTargets, same]
  exact own.first

end World

namespace Run

variable {w : World} {c t : ScopeId} {name : String} {types : List Ty}

theorem firstSome_of_first {α : Type} {f : α → Faulty (Option Method)} {a : α} {rest : List α}
    {r : Except Cause (Option Method)} (first : (f a).run w = (ofCause r).run w) (known : r ≠ .ok none) :
    (firstSome (a :: rest) f).run w = (ofCause r).run w := by
  rw [firstSome]
  cases r with
  | error e => exact Comp.bind_of_failed first
  | ok found =>
    rw [Action.run_bind_of_done first]
    cases found with
    | none => exact absurd rfl known
    | some m => rfl

theorem findMethod_of_declared (own : w.IsOwn t) (known : w.declared name types t ≠ .ok none) :
    (findMethod t name types).run w = (ofCause (w.declared name types t)).run w := by
  have here : (localMethod t name types).run w = (ofCause (w.declared name types t)).run w := by
    rcases own.first with plain | imports
    · unfold localMethod
      rw [Action.run_read_bind]
      simp only [plain, Bool.false_eq_true, if_false]
      exact firstSome_of_first (run_declaredMethod t name types w) known
    · rw [localMethod_plain imports types, run_declaredMethod]
  obtain ⟨rest, ancestry⟩ := w.head_ancestry t
  change (firstSome (w.ancestry t) fun u => localMethod u name types).run w = _
  rw [ancestry]
  exact firstSome_of_first here known

theorem findMethod_of_mirrors (h : w.Mirrors c t) : (findMethod c name types).run w = (findMethod t name types).run w := by
  have ancestry : w.ancestry c = [c] ++ w.ancestry t := World.ancestry_of_parent h.parent h.older
  have same : w.declared name types c = w.declared name types t := by
    unfold World.declared
    rw [h.methods name]
  have imports : ∀ u ∈ [c], (importedMethod u name types).run w = .done none w := by
    intro u hu
    rw [List.mem_singleton.mp hu]
    exact importedMethod_plain h.imports types
  obtain ⟨own, outer⟩ := findMethod_of_own ancestry imports
  have first : w.firstDeclared name types [c] = w.declared name types t := by
    simp only [World.firstDeclared, same]
    split <;> simp_all
  by_cases none : w.declared name types t = .ok none
  · exact outer (first.trans none)
  · rw [own (first ▸ none), first, findMethod_of_declared h.own none]

end Run

/-- Computations that begin in the same way come out the same if they go on so from there. -/
theorem Comp.bind_congr_of_done {σ α β : Type} {x y : Comp σ α} {f g : α → Comp σ β} {s : σ}
    (first : x s = y s) (rest : ∀ a s', y s = .done a s' → f a s' = g a s') :
    (x >>= f) s = (y >>= g) s := by
  cases ran : y s with
  | done a s' => rw [bind_of_done (first.trans ran), bind_of_done ran, rest a s' ran]
  | failed e s' => rw [bind_of_failed (first.trans ran), bind_of_failed ran]
  | exhausted => rw [bind_of_exhausted (first.trans ran), bind_of_exhausted ran]

namespace Evaluator

variable {ev : Evaluator} {σ : EvalState} {c t : ScopeId} {name : String} {args : List Value}

/-- A scope answers a call by a method that it finds, or by its handler for all others. -/
def Answers (w : World) (t : ScopeId) (name : String) (args : List Value) : Prop :=
  (∀ w', (Run.findMethod t name (w.typesOf (args.map hideNone))).run w ≠ .done none w') ∨
    objectProtocol? t name (args.map hideNone) = none ∧ ∀ w', (catchAll t).run w ≠ .done none w'

theorem objectProtocol?_eq_none (c : ScopeId) (h : objectProtocol? t name args = none) :
    objectProtocol? c name args = none := by
  unfold objectProtocol? at h ⊢
  split at h
  · cases h
  · cases h
  · cases h
  · cases h
  · rfl

theorem catchAll_of_mirrors {w : World} (h : w.Mirrors c t) : (catchAll c).run w = (catchAll t).run w := by
  unfold catchAll Action.converting
  simp only [Comp.catching, Run.findMethod_of_mirrors h]

theorem invokeIn_of_mirrors (h : σ.world.Mirrors c t) (known : Answers σ.world t name args)
    (caller : Node) (origin : Option ScopeId) :
    ev.invokeIn c name args caller false origin σ = ev.invokeIn t name args caller false origin σ := by
  have found : (liftM (Run.findMethod c name (σ.world.typesOf (args.map hideNone))) : Eval (Option Method)) σ =
      (liftM (Run.findMethod t name (σ.world.typesOf (args.map hideNone))) : Eval (Option Method)) σ := by
    change Eval.lift _ σ = Eval.lift _ σ
    simp only [Eval.lift, Run.findMethod_of_mirrors h]
  have located : Eval.located (some ("Method " ++ name)) caller
        (Run.findMethod c name (σ.world.typesOf (args.map hideNone))) σ =
      Eval.located (some ("Method " ++ name)) caller
        (Run.findMethod t name (σ.world.typesOf (args.map hideNone))) σ := Eval.catching_congr found
  unfold invokeIn
  refine Eval.read_bind.trans ?_
  refine .trans ?_ (Eval.lift_bind_of_done (x := (Run.read _).run) rfl).symm
  refine Comp.bind_congr_of_done located fun r σ' ran => ?_
  cases r with
  | some m => dsimp only
  | none =>
    obtain ⟨w', search, rfl⟩ := Eval.liftM_done_iff.mp (Eval.located_done_iff.mp ran)
    obtain rfl := (Run.steady_findMethod t name _ σ.world).of_done search
    obtain ⟨protocol, handler⟩ := known.resolve_left fun other => other _ search
    have same : (liftM (catchAll c) : Eval (Option Method)) σ =
        (liftM (catchAll t) : Eval (Option Method)) σ := by
      change Eval.lift _ σ = Eval.lift _ σ
      simp only [Eval.lift, catchAll_of_mirrors h]
    dsimp only
    rw [objectProtocol?_eq_none c protocol, protocol]
    refine Comp.bind_congr_of_done same fun r σ' ran => ?_
    cases r with
    | some m => dsimp only
    | none =>
      obtain ⟨w', none, -⟩ := Eval.liftM_done_iff.mp ran
      exact absurd none (handler w')

structure NamedCall where
  name : String
  args : List Value
  caller : Node
  origin : Option ScopeId

def callAll (ev : Evaluator) (s : ScopeId) (calls : List NamedCall) : Eval (List Value) :=
  collect calls fun call => ev.invokeIn s call.name call.args call.caller false call.origin

/-- All along some calls on `t`, the scope `c` mirrors `t` and `t` answers the next call. -/
def MirroredAlong (ev : Evaluator) (c t : ScopeId) : List NamedCall → EvalState → Prop
  | [], _ => True
  | call :: rest, σ => σ.world.Mirrors c t ∧ Answers σ.world t call.name call.args ∧
      ∀ v σ', ev.invokeIn t call.name call.args call.caller false call.origin σ = .done v σ' → MirroredAlong ev c t rest σ'

theorem callAll_of_mirroredAlong {calls : List NamedCall} (h : MirroredAlong ev c t calls σ) :
    ev.callAll c calls σ = ev.callAll t calls σ := by
  induction calls generalizing σ with
  | nil => simp only [callAll, collect]
  | cons call rest ih =>
    obtain ⟨mirrors, known, later⟩ := h
    have same : ev.invokeIn c call.name call.args call.caller false call.origin σ =
        ev.invokeIn t call.name call.args call.caller false call.origin σ :=
      invokeIn_of_mirrors mirrors known call.caller call.origin
    unfold callAll collect
    refine Comp.bind_congr_of_done same fun v σ' ran => ?_
    exact Comp.bind_congr_of_done (ih (later v σ' ran)) fun _ _ _ => rfl

end Evaluator

namespace World

/-- In `w` the variables of some names have been copied from `t` to the scope `c`, which was new and
empty in `w₁`. -/
structure Copied (w₁ w : World) (t c : ScopeId) (names : List String) : Prop where
  size : w.scopes.size = w₁.scopes.size
  others : ∀ s, s ≠ c → w.scope s = w₁.scope s
  scope : w.scope c = { w₁.scope c with vars := (w.scope c).vars }
  vars : ∀ n, (w.scope c).vars.get? n = if n ∈ names then ((w₁.scope t).vars.get? n).map Variable.loosened else none

theorem Copied.isFrame {w w₁ : World} {t c : ScopeId} {names : List String}
    (copied : w₁.Copied w t c names) (frame : w₁.IsFrame c) : w.IsFrame c := by
  have inner : w.scope c = _ := copied.scope
  refine ⟨copied.size ▸ frame.inside, ?_, ?_⟩
  · rw [inner]
    exact frame.block
  · rw [importTargets, inner]
    exact frame.imports

end World

namespace Run

variable {w w₁ : World} {c t : ScopeId} {name : String} {names : List String}

theorem setVariable_loose {v : Value} (frame : w.IsFrame c) (given : v ≠ .none)
    (loose : ∀ x, (w.scope c).vars.get? name = some x → x.type = .untyped ∧ x.modifiers = {}) :
    ∃ w', (setVariable c name v false false).run w = .done () w' ∧
      w'.scopes = (w.setVars c (·.put name { value := some v })).scopes := by
  rw [setVariable_of_noBlock frame.block]
  cases held : (w.scope c).vars.get? name with
  | none =>
    have new : (w.scope c).vars.contains name = false := by simp [Table.contains, held]
    rw [bindIn_of_unknown given (findBinding_frame frame new)]
    exact ⟨_, rfl, rfl⟩
  | some x =>
    have known : (w.scope c).vars.contains name := by simp [Table.contains, held]
    have found : (findBinding c name false).run w = .done (some (.held c name)) w := by
      rw [findBinding_here]
      exact localBindingOf_own (.inr frame.imports) known
    obtain ⟨type, modifiers⟩ := loose x held
    rw [bindIn_of_found given found]
    change ∃ w', (assignVariable c name v false).run w = .done () w' ∧ _
    rw [run_assignVariable held, Variable.isFinal, modifiers, type]
    exact ⟨_, rfl, rfl⟩

theorem copied_step {x : Variable} {v : Value} (own : w₁.IsOwn t) (apart : t ≠ c) (frame : w₁.IsFrame c)
    (copied : w₁.Copied w t c names) (held : (w₁.scope t).vars.get? name = some x) (value : x.value.getD .none = v) :
    (getVariable t name false).run w = .done v w ∧
      (v ≠ .none → ∃ w', (setVariable c name v false false).run w = .done () w' ∧ w₁.Copied w' t c (name :: names)) ∧
      (v = .none → (setVariable c name v false false).run w = .failed (.internal "null variable value") w) := by
  have same : w.scope t = w₁.scope t := copied.others t apart
  have frame : w.IsFrame c := copied.isFrame frame
  refine ⟨?_, fun given => ?_, ?_⟩
  · subst value
    have known : (w.scope t).vars.contains name := by simp [Table.contains, same, held]
    have found : (findBinding t name false).run w = .done (some (.held t name)) w := by
      rw [findBinding_here]
      refine localBindingOf_own ?_ known
      rw [World.importTargets, same]
      exact own.first
    exact getVariable_of_found found (same ▸ held)
  · have loose : ∀ y, (w.scope c).vars.get? name = some y → y.type = .untyped ∧ y.modifiers = {} := by
      intro y hy
      rw [copied.vars name] at hy
      split at hy
      · obtain ⟨z, -, rfl⟩ := Option.map_eq_some_iff.mp hy
        exact ⟨rfl, rfl⟩
      · cases hy
    obtain ⟨w', run, scopes⟩ := setVariable_loose frame given loose
    have after (s : ScopeId) : w'.scope s = (w.setVars c (·.put name { value := some v })).scope s :=
      congrArg (fun all : Array Scope => all[s]?.getD {}) scopes
    have here : w'.scope c = { w.scope c with vars := (w.scope c).vars.put name { value := some v } } := by
      rw [after, World.scope_setVars, if_pos ⟨rfl, frame.inside⟩]
    refine ⟨w', run, ?_, fun s hs => ?_, ?_, fun n => ?_⟩
    · rw [scopes, ← copied.size]
      simp [World.setVars, World.modifyScope]
    · rw [after, World.scope_setVars, if_neg fun h => hs h.1.symm, copied.others s hs]
    · rw [here, copied.scope]
    · rw [here]
      by_cases new : n = name
      · subst new
        have set : x.value = some v := by
          cases stored : x.value with
          | none => rw [stored] at value; exact absurd value.symm given
          | some u => rw [stored] at value; rw [← value]; rfl
        rw [Table.get?_put_self, if_pos List.mem_cons_self, held, Option.map_some, Variable.loosened, set]
      · rw [Table.get?_put_ne _ _ (Ne.symm new), copied.vars n]
        simp [new]
  · rintro rfl
    rw [setVariable_of_noBlock frame.block]
    rfl

end Run

theorem Table.exists_of_mem_keys {α : Type} {t : Table α} {k : String} (h : k ∈ t.keys) : ∃ v, t.get? k = some v := by
  obtain ⟨entries⟩ := t
  obtain ⟨e, he, rfl⟩ := List.mem_map.mp h
  clear h
  induction entries with
  | nil => cases he
  | cons x rest ih =>
    obtain ⟨n, v⟩ := x
    by_cases same : n = e.1
    · exact ⟨v, by simp [Table.get?, Table.lookup, same]⟩
    · have later : e ∈ rest := by
        rcases List.mem_cons.mp he with rfl | later
        · exact absurd rfl same
        · exact later
      obtain ⟨v', hv⟩ := ih later
      exact ⟨v', by simpa [Table.get?, Table.lookup, same] using hv⟩

namespace Evaluator

variable {w₁ : World} {c t : ScopeId}

/-- All variables are copied if they have values, and the first one without a value stops the
copying. -/
theorem copyVariables_run (own : w₁.IsOwn t) (apart : t ≠ c) (frame : w₁.IsFrame c) {names before : List String} {w : World}
    (copied : w₁.Copied w t c before) (known : names ⊆ (w₁.scope t).vars.keys) (r : StackRef) :
    ((∀ n ∈ names, ∀ x, (w₁.scope t).vars.get? n = some x → x.IsSet) →
      ∃ w', copyVariables t c names ⟨w, r⟩ = .done () ⟨w', r⟩ ∧ w₁.Copied w' t c (names.reverse ++ before)) ∧
    (∀ n ∈ names, ∀ x, (w₁.scope t).vars.get? n = some x → ¬x.IsSet →
      ∃ w', copyVariables t c names ⟨w, r⟩ = .failed (.internal "null variable value") ⟨w', r⟩) := by
  induction names generalizing before w with
  | nil => exact ⟨fun _ => ⟨w, rfl, copied⟩, fun n hn => by cases hn⟩
  | cons name rest ih =>
    obtain ⟨x, held⟩ := Table.exists_of_mem_keys (known List.mem_cons_self)
    obtain ⟨read, write, stop⟩ := Run.copied_step own apart frame copied held rfl
    have later : rest ⊆ (w₁.scope t).vars.keys := fun n hn => known (List.mem_cons_of_mem _ hn)
    by_cases set : x.IsSet
    · obtain ⟨w', wrote, copied'⟩ := write set
      have turn : copyVariables t c (name :: rest) ⟨w, r⟩ = copyVariables t c rest ⟨w', r⟩ :=
        Comp.bind_of_done ((Comp.bind_of_done (Eval.liftM_of_done read r)).trans (Eval.liftM_of_done wrote r))
      rw [turn, List.reverse_cons, List.append_assoc]
      obtain ⟨done, failed⟩ := ih copied' later
      refine ⟨fun all => done fun n hn => all n (List.mem_cons_of_mem _ hn), fun n hn y held' unset => ?_⟩
      rcases List.mem_cons.mp hn with rfl | hn
      · rw [held] at held'
        cases held'
        exact absurd set unset
      · exact failed n hn y held' unset
    · have stopped : copyVariables t c (name :: rest) ⟨w, r⟩ = .failed (.internal "null variable value") ⟨w, r⟩ := by
        refine Comp.bind_of_failed ((Comp.bind_of_done (Eval.liftM_of_done read r)).trans ?_)
        change Eval.lift (Run.setVariable c name (x.value.getD .none) false false).run ⟨w, r⟩ = _
        simp only [Eval.lift, stop (Classical.not_not.mp set)]
      exact ⟨fun all => absurd (all name List.mem_cons_self x held) set, fun _ _ _ _ _ => ⟨w, stopped⟩⟩

end Evaluator

/-- Methods that can be declared one after another without one taking the place of another. -/
def Method.Apart (a b : Method) : Prop := a.name = b.name → a.paramTypes ≠ b.paramTypes

namespace World

variable {w w₁ : World} {c t : ScopeId}

/-- In `w` the scope `c`, which declared nothing in `w₁`, declares the methods of a list. -/
structure Lent (w₁ w : World) (c : ScopeId) (methods : List Method) : Prop where
  size : w.scopes.size = w₁.scopes.size
  others : ∀ s, s ≠ c → w.scope s = w₁.scope s
  scope : w.scope c = { w₁.scope c with methods := (w.scope c).methods }
  overloads : ∀ n, w.overloads c n = methods.filter fun m => m.name = n

theorem Filed.apart (h : w.Filed t) : (w.scope t).methods.values.flatten.Pairwise Method.Apart := by
  have keys := h.keys
  have named := h.named
  have distinct := h.distinct
  generalize (w.scope t).methods = table at keys named distinct
  obtain ⟨entries⟩ := table
  rw [List.pairwise_flatten]
  constructor
  · intro ms hms
    obtain ⟨e, he, rfl⟩ := List.mem_map.mp hms
    refine (List.pairwise_map.mp (distinct e he)).imp fun {a b} (differ : a.paramTypes ≠ b.paramTypes) => ?_
    exact fun _ => differ
  · have differ : entries.Pairwise fun a b => a.1 ≠ b.1 := List.pairwise_map.mp keys
    refine List.pairwise_map.mpr (differ.imp_of_mem fun {a b} ha hb apart x hx y hy same => ?_)
    rw [named a ha x hx, named b hb y hy] at same
    exact absurd same apart

theorem filter_filed {entries : List (String × List Method)} (keys : (entries.map Prod.fst).Nodup)
    (named : ∀ e ∈ entries, ∀ m ∈ e.2, m.name = e.1) (n : String) :
    (entries.map Prod.snd).flatten.filter (fun m => m.name = n) = (Table.lookup entries n).getD [] := by
  induction entries with
  | nil => rfl
  | cons e rest ih =>
    obtain ⟨k, ms⟩ := e
    obtain ⟨first, keys⟩ := List.nodup_cons.mp keys
    have here : ∀ m ∈ ms, m.name = k := named (k, ms) List.mem_cons_self
    have later : ∀ e ∈ rest, ∀ m ∈ e.2, m.name = e.1 := fun e he => named e (List.mem_cons_of_mem _ he)
    rw [List.map_cons, List.flatten_cons, List.filter_append, Table.lookup]
    by_cases same : k = n
    · subst same
      have own : ms.filter (fun m => m.name = k) = ms := List.filter_eq_self.mpr fun m hm => by simp [here m hm]
      have none : (rest.map Prod.snd).flatten.filter (fun m => m.name = k) = [] := by
        refine List.filter_eq_nil_iff.mpr fun m hm => ?_
        obtain ⟨l, hl, hm⟩ := List.mem_flatten.mp hm
        obtain ⟨e, he, rfl⟩ := List.mem_map.mp hl
        rw [later e he m hm, decide_eq_true_eq]
        rintro rfl
        exact first (List.mem_map.mpr ⟨e, he, rfl⟩)
      rw [own, none, if_pos rfl, List.append_nil]
      rfl
    · have none : ms.filter (fun m => m.name = n) = [] := List.filter_eq_nil_iff.mpr fun m hm => by simp [here m hm, same]
      rw [none, if_neg same, List.nil_append]
      exact ih keys later

theorem Filed.filter (h : w.Filed t) (n : String) :
    (w.scope t).methods.values.flatten.filter (fun m => m.name = n) = w.overloads t n :=
  filter_filed h.keys h.named n

theorem Filed.of_scope (h : w₁.Filed t) (same : (w.scope t).methods = (w₁.scope t).methods) : w.Filed t := by
  obtain ⟨keys, named, distinct⟩ := h
  rw [← same] at keys named distinct
  exact ⟨keys, named, distinct⟩

end World

theorem Run.addOverload_of_new {ms : List Method} {m : Method}
    (new : ∀ x ∈ ms, x.paramTypes ≠ m.paramTypes) : Run.addOverload ms m = ms ++ [m] := by
  induction ms with
  | nil => rfl
  | cons x rest ih =>
    rw [Run.addOverload, if_neg (new x List.mem_cons_self), ih fun y hy => new y (List.mem_cons_of_mem _ hy)]
    rfl

namespace Evaluator

variable {w₁ : World} {c : ScopeId}

theorem setMethods_run (frame : w₁.IsFrame c) {methods before : List Method} {w : World}
    (lent : w₁.Lent w c before) (apart : (before ++ methods).Pairwise Method.Apart) (r : StackRef) :
    ∃ w', (forEach methods fun m => (Run.setMethod c m : Eval Unit)) ⟨w, r⟩ = .done () ⟨w', r⟩ ∧
      w₁.Lent w' c (before ++ methods) := by
  induction methods generalizing before w with
  | nil => exact ⟨w, rfl, by simpa using lent⟩
  | cons m rest ih =>
    have inside : c < w.scopes.size := lent.size ▸ frame.inside
    have plain : (w.scope c).isBlock = false := by
      rw [lent.scope]
      exact frame.block
    let w' := (w.withMethod c m).forgetting c
    have run : Run.setMethod c m w = .done () w' := by
      rw [Run.run_setMethod, World.enclosing_of_not_isBlock plain]
    have after (s : ScopeId) : w'.scope s = (w.withMethod c m).scope s :=
      (w.withMethod c m).scope_forgetting c s
    have here : w'.scope c = { w.scope c with methods := (w'.scope c).methods } := by
      rw [after, World.withMethod, World.scope_modifyScope, if_pos ⟨rfl, inside⟩]
    have lent' : w₁.Lent w' c (before ++ [m]) := by
      refine ⟨?_, fun s hs => ?_, ?_, fun n => ?_⟩
      · rw [← lent.size]
        simp [w', World.forgetting, World.modifyMemory, World.withMethod, World.modifyScope]
      · rw [after, World.withMethod, World.scope_modifyScope, if_neg fun h => hs h.1.symm, lent.others s hs]
      · rw [here, lent.scope]
      · rw [Run.overloads_setMethod inside plain run n, lent.overloads n, List.filter_append]
        split
        · next same =>
          have new : ∀ x ∈ before.filter (fun x => x.name = n), x.paramTypes ≠ m.paramTypes := by
            intro x hx
            obtain ⟨hx, name⟩ := List.mem_filter.mp hx
            have apart : x.Apart m := (List.pairwise_append.mp apart).2.2 x hx m List.mem_cons_self
            exact apart ((of_decide_eq_true name).trans same)
          rw [Run.addOverload_of_new new]
          simp [same]
        · next other => simp [Ne.symm other]
    have split : before ++ m :: rest = before ++ [m] ++ rest := by simp
    rw [split] at apart ⊢
    obtain ⟨w'', done, lent''⟩ := ih lent' apart
    have turn : (Run.setMethod c m : Eval Unit) ⟨w, r⟩ = .done () ⟨w', r⟩ := by
      change Eval.lift (Run.setMethod c m) ⟨w, r⟩ = _
      simp only [Eval.lift, run]
    exact ⟨w'', (Comp.bind_of_done turn).trans done, lent''⟩

theorem newScope_done {x : Scope} {w w' : World} {s : ScopeId} (made : (Run.newScope x).run w = .done s w') :
    s = w.scopes.size ∧ w'.scopes.size = s + 1 ∧ (∀ u, u ≠ s → w'.scope u = w.scope u) ∧
      w'.scope s = { x with methods := {}, vars := {} } := by
  cases made
  refine ⟨rfl, by simp, fun u hu => ?_, ?_⟩
  · simp only [World.scope, Array.getElem?_push, if_neg hu]
  · simp only [World.scope, Array.getElem?_push, if_true, Option.getD_some]

theorem newChild_run (t : ScopeId) (title : String) (w : World) : ∃ w₁ name,
    (Run.newChild t (some title)).run w = .done w.scopes.size w₁ ∧ w₁.scopes.size = w.scopes.size + 1 ∧
      (∀ s, s ≠ w.scopes.size → w₁.scope s = w.scope s) ∧ w₁.scope w.scopes.size = { name, parent := some t } := by
  let name := if title.isEmpty then "anonymous" else title
  obtain ⟨w₁, made⟩ : ∃ w₁, (Run.newChild t (some title)).run w = .done w.scopes.size w₁ := ⟨_, rfl⟩
  exact ⟨w₁, name, made, (newScope_done (x := { name, parent := some t }) made).2⟩

/-- A scope inside `t` that has nothing but variables is given the methods of `t`, and mirrors it
then. -/
theorem lendMethods_run {t : ScopeId} {w : World} {name : String} (frame : w.IsFrame c)
    (own : w.IsOwn t) (filed : w.Filed t)
    (older : t < c) (inner : w.scope c = { name, parent := some t, vars := (w.scope c).vars }) (r : StackRef) :
    ∃ w', (forEach (w.scope t).methods.values.flatten fun m => (Run.setMethod c m : Eval Unit)) ⟨w, r⟩ = .done () ⟨w', r⟩ ∧
      (∀ s, s ≠ c → w'.scope s = w.scope s) ∧ (w'.scope c).vars = (w.scope c).vars ∧ w'.Mirrors c t := by
  have start : w.Lent w c [] := by
    refine ⟨rfl, fun _ _ => rfl, rfl, fun n => ?_⟩
    rw [World.overloads, inner]
    rfl
  obtain ⟨w', given, lent⟩ := setMethods_run frame start filed.apart r
  have same : w'.scope t = w.scope t := lent.others t (Nat.ne_of_lt older)
  have outer : w'.scope c = _ := lent.scope
  refine ⟨w', given, lent.others, by rw [outer], own.of_scope (Nat.le_of_eq lent.size.symm) same,
    ?_, older, ?_, ?_, fun n => ?_⟩
  · rw [outer, inner]
  · rw [outer, inner]
  · rw [World.importTargets, outer, inner]
    rfl
  · rw [lent.overloads n, List.nil_append, filed.filter n, World.overloads, World.overloads, same]

theorem cloneScope_run {t : ScopeId} {w : World} (own : w.IsOwn t) (filed : w.Filed t)
    (r : StackRef) :
    ((∀ n x, (w.scope t).vars.get? n = some x → x.IsSet) →
      ∃ w', cloneScope t ⟨w, r⟩ = .done (.closure w.scopes.size) ⟨w', r⟩ ∧
        (∀ s, s ≠ w.scopes.size → w'.scope s = w.scope s) ∧
        (∀ n, (w'.scope w.scopes.size).vars.get? n = ((w.scope t).vars.get? n).map Variable.loosened) ∧
        w'.Mirrors w.scopes.size t) ∧
    ((∃ n x, (w.scope t).vars.get? n = some x ∧ ¬x.IsSet) →
      ∃ w', cloneScope t ⟨w, r⟩ = .failed (.internal "null variable value") ⟨w', r⟩) := by
  let c := w.scopes.size
  have apart : t ≠ c := Nat.ne_of_lt own.inside
  obtain ⟨w₁, name, made, size, others, new⟩ := newChild_run t ((w.scope t).name ++ " clone") w
  have original : w₁.scope t = w.scope t := others t apart
  have own₁ : w₁.IsOwn t := own.of_scope (by omega) original
  have frame : w₁.IsFrame c := by
    refine ⟨size ▸ Nat.lt_succ_self c, ?_, ?_⟩
    · rw [new]
    · rw [World.importTargets, new]
      rfl
  have start : w₁.Copied w₁ t c [] := by
    refine ⟨rfl, fun _ _ => rfl, rfl, fun n => ?_⟩
    rw [new]
    rfl
  obtain ⟨done, failed⟩ := copyVariables_run own₁ apart frame start (List.Subset.refl _) r
  rw [original] at done failed
  have opened : cloneScope t ⟨w, r⟩ =
      (Eval.located none .hostCall (copyVariables t c (w.scope t).vars.keys) >>= fun _ => do
        let methods ← Run.read fun w => (w.scope t).methods.values.flatten
        forEach methods fun m => Run.setMethod c m
        pure (.closure c)) ⟨w₁, r⟩ :=
    Eval.read_bind.trans (Eval.lift_bind_of_done made)
  rw [opened]
  constructor
  · intro set
    obtain ⟨w₂, copied, vars⟩ := done fun n _ x held => set n x held
    have same : w₂.scope t = w.scope t := (vars.others t apart).trans original
    have inner : w₂.scope c = { name, parent := some t, vars := (w₂.scope c).vars } := by rw [vars.scope, new]
    obtain ⟨w₃, given, kept, values, mirrors⟩ := lendMethods_run (vars.isFrame frame)
      (own₁.of_scope (Nat.le_of_eq vars.size.symm) (vars.others t apart)) (filed.of_scope (by rw [same])) own.inside inner r
    refine ⟨w₃, ?_, fun s hs => ?_, fun n => ?_, mirrors⟩
    · refine (Comp.bind_of_done (Eval.catching_of_done copied)).trans ?_
      exact Eval.read_bind.trans (Comp.bind_of_done given)
    · rw [kept s hs, vars.others s hs, others s hs]
    · rw [values, vars.vars n, original, List.append_nil]
      cases held : (w.scope t).vars.get? n with
      | none => exact ite_self none
      | some x =>
        have known : n ∈ (w.scope t).vars.keys := List.mem_map_of_mem (Table.mem_of_lookup held)
        rw [if_pos (List.mem_reverse.mpr known)]
  · rintro ⟨n, x, held, unset⟩
    have known : n ∈ (w.scope t).vars.keys := List.mem_map_of_mem (Table.mem_of_lookup held)
    obtain ⟨w', stopped⟩ := failed n known x held unset
    exact ⟨w', Comp.bind_of_failed (Eval.located_of_internal none .hostCall stopped)⟩

theorem findBinding_of_methodFrame {m : Method} {caller : Node} {w w' : World} {s : ScopeId} {x : String}
    (own : w.IsOwn m.home) (held : (w.scope m.home).vars.contains x) (made : (methodFrame m caller).run w = .done s w') :
    (Run.findBinding s x true).run w' = .done (some (.held m.home x)) w' := by
  obtain ⟨frame, empty, -⟩ := Run.isFrame_of_newScope ⟨rfl, rfl, rfl⟩ made
  obtain ⟨last, -, others, new⟩ := newScope_done made
  have older : m.home < s := last ▸ own.inside
  have same : w'.scope m.home = w.scope m.home := others m.home (Nat.ne_of_lt older)
  have ancestry : w'.ancestry s = [s] ++ w'.ancestry m.home := World.ancestry_of_parent (by rw [new]) older
  obtain ⟨outer, head⟩ := w'.head_ancestry m.home
  rw [head] at ancestry
  refine Run.findBinding_of_first ancestry (fun u hu => ?_) ?_
  · rw [List.mem_singleton.mp hu]
    exact Run.localBindingOf_unknown frame.imports (by rw [empty]; rfl)
  · refine Run.localBindingOf_own ?_ ?_
    · rw [World.importTargets, same]
      exact own.first
    · rw [same]
      exact held

/-- The clone of a scope has variables of its own with the values of those of the original, but
without their types and modifiers. Whatever calls are made on the clone, they are these calls on the
original. There is no clone of a scope with a final variable that waits for its value. -/
theorem clone_calls_run_on_original (ev : Evaluator) {t : ScopeId} {σ : EvalState} (own : σ.world.IsOwn t)
    (filed : σ.world.Filed t) (undefined : (Run.findMethod t "clone" []).run σ.world = .done none σ.world) (caller : Node)
    (origin : Option ScopeId) :
    ((∀ n x, (σ.world.scope t).vars.get? n = some x → x.IsSet) →
      ∃ c w', ev.invokeIn t "clone" [] caller false origin σ = .done (.closure c) ⟨w', σ.running⟩ ∧
        σ.world.scopes.size ≤ c ∧ (∀ s, s ≠ c → w'.scope s = σ.world.scope s) ∧
        (∀ n, (w'.scope c).vars.get? n = ((σ.world.scope t).vars.get? n).map fun x => { value := x.value }) ∧
        w'.Mirrors c t) ∧
    ((∃ n x, (σ.world.scope t).vars.get? n = some x ∧ ¬x.IsSet) →
      ∃ w', ev.invokeIn t "clone" [] caller false origin σ = .failed (.internal "null variable value") ⟨w', σ.running⟩) ∧
    (∀ c calls σ₁, ev.MirroredAlong c t calls σ₁ → ev.callAll c calls σ₁ = ev.callAll t calls σ₁) ∧
    ∀ m w₁ s w₂ x, m.home = t → w₁.IsOwn t → (w₁.scope t).vars.contains x → (methodFrame m caller).run w₁ = .done s w₂ →
      (Run.findBinding s x true).run w₂ = .done (some (.held t x)) w₂ := by
  have cloned : ev.invokeIn t "clone" [] caller false origin σ = cloneScope t σ := by
    have located : Eval.located (some ("Method " ++ "clone")) caller (Run.findMethod t "clone" (σ.world.typesOf [])) σ =
        .done none σ := Eval.catching_of_done (Eval.liftM_of_done undefined σ.running)
    unfold invokeIn
    refine (Eval.lift_bind_of_done (x := (Run.read _).run) rfl).trans ?_
    exact (Comp.bind_of_done located).trans rfl
  rw [cloned]
  obtain ⟨made, refused⟩ := cloneScope_run own filed σ.running
  refine ⟨fun set => ?_, refused, fun c calls σ₁ => callAll_of_mirroredAlong, fun m w₁ s w₂ x home => ?_⟩
  · obtain ⟨w', run, others, vars, mirrors⟩ := made set
    exact ⟨_, w', run, Nat.le_refl _, others, vars, mirrors⟩
  · subst home
    exact findBinding_of_methodFrame

/-- A closure with a typed variable and a method that counts it up. The clone has the value without
the type, it mirrors the closure, and counting up on the clone is counting up on the closure. -/
theorem clone_calls_run_on_original_counting :
    let body : Node := .unary {} .increment (.name {} "count") true
    let m : Method := { name := "increment", home := 1, body := .blockOf [body] }
    let w : World := { World.bare with
      scopes := #[{ registry := some 0 },
        { parent := some 0, methods := ⟨[("increment", [m])]⟩
          vars := ⟨[("count", { type := .prim .int, value := some (.boxed (.int 1) 0) })]⟩ }] }
    let call : NamedCall := { name := "increment", args := [], caller := .absent, origin := none }
    w.IsOwn 1 ∧ w.Filed 1 ∧ (Run.findMethod 1 "clone" []).run w = .done none w ∧
    ∃ c w', (ofFuel 5).invokeIn 1 "clone" [] .absent false none ⟨w, .own ⟨[0]⟩⟩ = .done (.closure c) ⟨w', .own ⟨[0]⟩⟩ ∧
      (w'.scope c).vars.get? "count" = some { value := some (.boxed (.int 1) 0) } ∧ w'.scope 1 = w.scope 1 ∧
      (ofFuel 5).callAll c [call] ⟨w', .own ⟨[0]⟩⟩ = (ofFuel 5).callAll 1 [call] ⟨w', .own ⟨[0]⟩⟩ := by
  intro body m w call
  have own : w.IsOwn 1 := ⟨by decide, .inl rfl⟩
  have filed : w.Filed 1 := by
    refine ⟨by decide, ?_, ?_⟩
    · intro e he x hx
      cases List.mem_singleton.mp he
      cases List.mem_singleton.mp hx
      rfl
    · intro e he
      cases List.mem_singleton.mp he
      decide
  have undefined : (Run.findMethod 1 "clone" []).run w = .done none w := rfl
  obtain ⟨made, -, calls, -⟩ :=
    clone_calls_run_on_original (ofFuel 5) (σ := ⟨w, .own ⟨[0]⟩⟩) own filed undefined .absent none
  have set : ∀ n x, (w.scope 1).vars.get? n = some x → x.IsSet := by
    intro n x held
    cases List.mem_singleton.mp (Table.mem_of_lookup held)
    intro unset
    cases unset
  obtain ⟨c, w', run, new, others, vars, mirrors⟩ := made set
  have apart : 1 ≠ c := Nat.ne_of_lt (Nat.lt_of_lt_of_le (by decide) new)
  have declared : w'.declared "increment" [] 1 = .ok (some m) := by
    have overloads : w'.overloads 1 "increment" = [m] := by
      rw [World.overloads, others 1 apart]
      rfl
    rw [World.declared, overloads]
    rfl
  refine ⟨own, filed, undefined, c, w', run, ?_, others 1 apart, calls c _ _ ⟨mirrors, .inl ?_, fun _ _ _ => trivial⟩⟩
  · rw [vars]
    rfl
  · intro w'' none
    have found : (Run.findMethod 1 "increment" []).run w' = .done (some m) w' := by
      rw [Run.findMethod_of_declared mirrors.own (by simp [declared]), declared]
      rfl
    cases found.symm.trans none

/-- A counter is cloned and the clone is counted up. It is the original that has been counted up,
and the variable of the clone has lost its type. -/
theorem call_on_clone_changes_original :
    let number (n : Int) : Node := .literal {} (.ofInt n)
    let count : Node := .varDecl {} (.typeRef {} (.named "int") 0) [.declarator {} "count" (number 0) 0] []
    let increment : Node := .methodDecl {} "increment" []
      (.blockOf [.unary {} .increment (.name {} "count") true]) .absent []
    let counter : Node := .methodDecl {} "counter" [] (.blockOf [count, increment, .return {} (.name {} "this")]) .absent []
    let start : Node := .exprList {} [counter, .assignment {} (.name {} "t") .plain (.invocation {} "counter" []),
      .assignment {} (.name {} "c") .plain (.invocation {} "t.clone" [])]
    let value (path : String) (σ : EvalState) : Option Int := endInteger? ((ofFuel 9).exec (.name {} path) σ)
    ∃ r₁ σ₁ r₂ σ₂, (ofFuel 9).exec start ⟨.bare, .own ⟨[0]⟩⟩ = .done r₁ σ₁ ∧
      (ofFuel 9).exec (.invocation {} "c.increment" []) σ₁ = .done r₂ σ₂ ∧
      value "t.count" σ₁ = some 0 ∧ value "c.count" σ₁ = some 0 ∧
      value "t.count" σ₂ = some 1 ∧ value "c.count" σ₂ = some 0 := by
  intro number count increment counter start value
  have run : ((ofFuel 9).exec start ⟨.bare, .own ⟨[0]⟩⟩).doneWith fun _ σ₁ =>
      ((ofFuel 9).exec (.invocation {} "c.increment" []) σ₁).doneWith fun _ σ₂ =>
        decide (value "t.count" σ₁ = some 0 ∧ value "c.count" σ₁ = some 0 ∧
          value "t.count" σ₂ = some 1 ∧ value "c.count" σ₂ = some 0) := by decide +kernel
  obtain ⟨r₁, σ₁, started, run⟩ := Outcome.exists_of_doneWith run
  obtain ⟨r₂, σ₂, called, run⟩ := Outcome.exists_of_doneWith run
  exact ⟨r₁, σ₁, r₂, σ₂, started, called, of_decide_eq_true run⟩

end Evaluator

end ScriptCore
