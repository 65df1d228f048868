import ScriptCore.Proofs.ClassSearch
import ScriptCore.Script.Invocation

namespace ScriptCore

def Outcome.result {σ α : Type} : Outcome σ α → Option (Except Failure α)
  | done a _ => some (.ok a)
  | failed e _ => some (.error e)
  | exhausted => none

@[simp] theorem Outcome.result_onState {σ α : Type} (f : σ → σ) (o : Outcome σ α) : (o.onState f).result = o.result := by
  cases o <;> rfl

theorem Outcome.onState_onState {σ α : Type} (f g : σ → σ) (o : Outcome σ α) :
    (o.onState f).onState g = o.onState fun s => g (f s) := by
  cases o <;> rfl

structure Memory.IsBlank (m : Memory) : Prop where
  resolvers : m.resolvers = {}
  classes : m.classes = {}

theorem Memory.isBlank_iff {m : Memory} : m.resolvers.isEmpty ∧ m.classes.isEmpty ↔ m.IsBlank := by
  obtain ⟨⟨resolvers⟩, ⟨classes⟩, listening⟩ := m
  constructor
  · rintro ⟨hr, hc⟩
    cases List.isEmpty_iff.mp hr
    cases List.isEmpty_iff.mp hc
    exact ⟨rfl, rfl⟩
  · rintro ⟨hr, hc⟩
    cases hr
    cases hc
    exact ⟨rfl, rfl⟩

instance (m : Memory) : Decidable m.IsBlank := decidable_of_iff _ Memory.isBlank_iff

theorem Memory.isBlank_forgotten (m : Memory) : m.forgotten.IsBlank := ⟨rfl, rfl⟩

namespace Path

theorem segments_ne_nil (s : String) : segments s ≠ [] := by
  have parts (l : List Char) : split l ≠ [] := by
    cases l with
    | nil => exact List.cons_ne_nil _ _
    | cons c rest =>
      unfold split
      split
      · exact List.cons_ne_nil _ _
      · split <;> exact List.cons_ne_nil _ _
  exact fun empty => parts s.toList (List.map_eq_nil_iff.mp empty)

def through (name : String) : List String := segments ((owner? name).getD "")

end Path

namespace World

variable {w w' : World} {s : ScopeId} {name : String} {c : Value} {m : Memory}

def Unbound (w : World) (s : ScopeId) (name : String) : Prop :=
  ∀ t ∈ w.ancestry s, w.importTargets t = [] ∧ (w.scope t).vars.contains name = false

/-- Calls by the dotted name go to a class that is found by its own name: no variable comes before
it, and no class that a part of the name stands for. -/
structure Means (w : World) (s : ScopeId) (name : String) (c : Value) : Prop where
  compound : Path.isCompound name
  unmentioned : View.mentions name = false
  named : Path.through name ≠ [""]
  start : (Path.through name).headD "" ∉ ["this", "super", "global"]
  unbound : w.Unbound s ((Path.through name).headD "")
  before : ∀ i, 0 < i → i < (Path.through name).length → w.recalled s (Path.join ((Path.through name).take i)) = some none
  found : w.recalled s (Path.join (Path.through name)) = some (some c)

/-- All that a scope remembers is what it would find. -/
structure Backs (w : World) (s : ScopeId) (m : Memory) : Prop where
  classes : ∀ name c, m.classes.get? name = some c → w.recalled s name = some (some c)
  resolved : ∀ name r c, m.resolvers.get? name = some r → r.asClass = some c →
    name ≠ "var" ∧ w.recalled s name = some (some c)
  called : ∀ name r c, m.resolvers.get? name = some r → r.staticClass = some c → w.Means s name c

/-- Every scope has a registry, and remembers only what it would find. -/
structure Settled (w : World) : Prop where
  registry : ∀ s, (w.scope s).registry.getD 0 < w.registries.size
  backs : ∀ s, w.Backs s (w.memory s)

theorem Settled.registryId_lt (hw : w.Settled) (s : ScopeId) : w.registryId s < w.registries.size := hw.registry (w.root s)

theorem Means.of_same (h : w.Means s name c) (around : w.SameAround w' s)
    (registry : (w.registryAt (w.registryId s)).Extends (w'.registryAt (w.registryId s)))
    (unbound : w'.Unbound s ((Path.through name).headD "")) : w'.Means s name c where
  compound := h.compound
  unmentioned := h.unmentioned
  named := h.named
  start := h.start
  unbound := unbound
  before i hi hl := recalled_of_same around registry (h.before i hi hl)
  found := recalled_of_same around registry h.found

theorem Unbound.of_scopes (h : w.Unbound s name) (hs : w'.scopes = w.scopes) : w'.Unbound s name := by
  have around : w.SameAround w' s := .of_scopes hs s
  intro t ht
  rw [around.ancestry] at ht
  rw [importTargets, scope, hs]
  exact h t ht

theorem Means.of_scopes (h : w.Means s name c) (hs : w'.scopes = w.scopes)
    (hr : w'.registries = w.registries) : w'.Means s name c := by
  refine h.of_same (.of_scopes hs s) ?_ (h.unbound.of_scopes hs)
  rw [registryAt, registryAt, hr]
  exact .refl _

theorem Means.remembering {k : Array Memory} {n : Nat} (h : w.Means s name c) : (w.remembering k n).Means s name c :=
  h.of_scopes rfl rfl

namespace Backs

theorem of_isBlank (h : m.IsBlank) : w.Backs s m := by
  refine ⟨fun name c hc => ?_, fun name r c hr => ?_, fun name r c hr => ?_⟩
  · rw [h.classes] at hc
    cases hc
  · rw [h.resolvers] at hr
    cases hr
  · rw [h.resolvers] at hr
    cases hr

/-- Names that stood for a class still do, if nothing around has changed. Calls ask for more: no
variable has come before the class. -/

theorem of_same (h : w.Backs s m) (around : w.SameAround w' s)
    (registry : (w.registryAt (w.registryId s)).Extends (w'.registryAt (w.registryId s)))
    (unbound : ∀ name r, m.resolvers.get? name = some r → r.staticClass.isSome →
      w.Unbound s ((Path.through name).headD "") → w'.Unbound s ((Path.through name).headD "")) : w'.Backs s m := by
  refine ⟨fun name c hc => ?_, fun name r c hr hc => ?_, fun name r c hr hc => ?_⟩
  · exact recalled_of_same around registry (h.classes name c hc)
  · exact ⟨(h.resolved name r c hr hc).1, recalled_of_same around registry (h.resolved name r c hr hc).2⟩
  · have means := h.called name r c hr hc
    exact means.of_same around registry (unbound name r hr (by rw [hc]; rfl) means.unbound)

theorem putClass (h : w.Backs s m) (hc : w.recalled s name = some (some c)) :
    w.Backs s { m with classes := m.classes.put name c } := by
  refine ⟨fun other d hd => ?_, h.resolved, h.called⟩
  by_cases same : name = other
  · subst same
    rw [Table.get?_put_self] at hd
    cases hd
    exact hc
  · rw [Table.get?_put_ne _ _ same] at hd
    exact h.classes other d hd

theorem putResolver {listening : Bool} (h : w.Backs s m) {r : Resolver}
    (hr : ∀ c, r.asClass = some c → name ≠ "var" ∧ w.recalled s name = some (some c))
    (hs : ∀ c, r.staticClass = some c → w.Means s name c) :
    w.Backs s { m with resolvers := m.resolvers.put name r, listening } := by
  refine ⟨h.classes, fun other q d hq hd => ?_, fun other q d hq hd => ?_⟩
  · by_cases same : name = other
    · subst same
      rw [Table.get?_put_self] at hq
      cases hq
      exact hr d hd
    · rw [Table.get?_put_ne _ _ same] at hq
      exact h.resolved other q d hq hd
  · by_cases same : name = other
    · subst same
      rw [Table.get?_put_self] at hq
      cases hq
      exact hs d hd
    · rw [Table.get?_put_ne _ _ same] at hq
      exact h.called other q d hq hd

end Backs

theorem backs_remembering {k : Array Memory} {n : Nat} (h : w.Backs s m) : (w.remembering k n).Backs s m :=
  h.of_same (.of_scopes rfl s) (.refl _) fun _ _ _ _ hu => hu.of_scopes rfl

namespace Settled

theorem remembering (hw : w.Settled) {k : Array Memory} {n : Nat}
    (h : ∀ s, w.Backs s ((w.remembering k n).memory s)) : (w.remembering k n).Settled :=
  ⟨hw.registry, fun s => backs_remembering (h s)⟩

theorem modifyMemory (hw : w.Settled) {f : Memory → Memory} (h : w.Backs s (f (w.memory s))) :
    (w.modifyMemory s f).Settled := by
  refine hw.remembering (k := (w.modifyMemory s f).memories) (n := w.resolverCount) fun t => ?_
  change w.Backs t ((w.modifyMemory s f).memory t)
  rw [memory_modifyMemory]
  split
  · next same => exact same ▸ h
  · exact hw.backs t

theorem learned (hw : w.Settled) (h : w.Learned w') : w'.Settled := by
  have around (s : ScopeId) : w.SameAround w' s := .of_scopes h.scopes s
  refine ⟨fun s => ?_, fun s => ?_⟩
  · rw [World.scope, h.scopes, h.size]
    exact hw.registry s
  · have memory : w'.memory s = w.memory s := by rw [memory, memory, h.memories]
    rw [memory]
    exact (hw.backs s).of_same (around s) (h.registry _) fun _ _ _ _ free => free.of_scopes h.scopes

end Settled

def forgetting (w : World) (s : ScopeId) : World := w.modifyMemory s Memory.forgotten

theorem forgetting_eq (w : World) (s : ScopeId) :
    w.forgetting s = w.remembering (w.forgetting s).memories w.resolverCount := rfl

theorem scope_forgetting (w : World) (s t : ScopeId) : (w.forgetting s).scope t = w.scope t := rfl

theorem Settled.forgetting (hw : w.Settled) (s : ScopeId) : (w.forgetting s).Settled :=
  hw.modifyMemory (.of_isBlank (Memory.isBlank_forgotten _))

theorem isBlank_forgetting (w : World) (s : ScopeId) : ((w.forgetting s).memory s).IsBlank := by
  unfold World.forgetting
  rw [memory_modifyMemory, if_pos rfl]
  exact Memory.isBlank_forgotten _

theorem memory_forgetting (w : World) (s t : ScopeId) :
    (w.forgetting s).memory t = w.memory t ∨ ((w.forgetting s).memory t).IsBlank := by
  unfold World.forgetting
  rw [memory_modifyMemory]
  split
  · exact .inr (Memory.isBlank_forgotten _)
  · exact .inl rfl

end World

namespace Run

variable {w : World} {s : ScopeId} {name : String} {may : May} {t : Tier} {α β : Type}

/-- In settled worlds the action runs the same way whatever is remembered, and they stay settled. It
changes no scope. -/
structure Agrees (x : Action may t α) : Prop where
  same : ∀ w m n, w.Settled → (w.remembering m n).Settled →
    ∃ m' n', x.run (w.remembering m n) = (x.run w).onState (·.remembering m' n')
  settled : ∀ w, w.Settled → x.run.Meets w (fun _ v => v.Settled) fun _ v => v.Settled
  keeps : ∀ w, x.run.Meets w (fun _ v => v.scopes = w.scopes) fun _ v => v.scopes = w.scopes

theorem result_of_agrees {x : Action may t α} (hx : Agrees x) {m : Array Memory} {n : Nat} (hw : w.Settled)
    (hm : (w.remembering m n).Settled) : (x.run (w.remembering m n)).result = (x.run w).result := by
  obtain ⟨m', n', same⟩ := hx.same w m n hw hm
  rw [same, Outcome.result_onState]

namespace Oblivious

theorem settled {x : Action may t α} (hx : Oblivious x) (hw : w.Settled) :
    x.run.Meets w (fun _ v => v.Settled) fun _ v => v.Settled := by
  have learned {v : World} (h : w.Untouched v ∧ v.memories = w.memories) : w.Learned v := by
    refine ⟨h.1.scopes, h.2, by rw [h.1.registries], fun r => ?_⟩
    rw [World.registryAt, World.registryAt, h.1.registries]
    exact .refl _
  refine ((hx.keeps w).and (hx.blind.memories w)).mono (fun _ v h => ?_) fun _ v h => ?_
  · exact hw.learned (learned h)
  · exact hw.learned (learned h)

theorem agrees {x : Action may t α} (hx : Oblivious x) : Agrees x :=
  ⟨fun w m n _ _ => ⟨m, n, hx.blind w m n⟩, fun _ hw => hx.settled hw,
    fun w => (hx.keeps w).mono (fun _ _ h => h.scopes) fun _ _ h => h.scopes⟩

end Oblivious

namespace Agrees

theorem pure (a : α) : Agrees (Pure.pure a : Action may t α) := (Oblivious.pure a).agrees

theorem lift {may' : May} {t' : Tier} [May.Within may may'] [Tier.Within t t'] {x : Action may t α}
    (hx : Agrees x) : Agrees (liftM x : Action may' t' α) := ⟨hx.same, hx.settled, hx.keeps⟩

theorem bind {x : Action may t α} {f : α → Action may t β} (hx : Agrees x) (hf : ∀ a, Agrees (f a)) : Agrees (x >>= f) := by
  refine ⟨fun w m n hw hm => ?_, fun w hw => ?_, fun w => ?_⟩
  · obtain ⟨m', n', same⟩ := hx.same w m n hw hm
    have here := hx.settled w hw
    have there := hx.settled _ hm
    change ∃ m' n', Comp.bind x.run (fun a => (f a).run) (w.remembering m n) =
      (Comp.bind x.run (fun a => (f a).run) w).onState _
    unfold Comp.bind
    unfold Comp.Meets at here there
    rw [same] at there ⊢
    cases run : x.run w with
    | done a v =>
      rw [run] at here there
      exact (hf a).same v m' n' here there
    | failed e v => exact ⟨m', n', rfl⟩
    | exhausted => exact ⟨m, n, rfl⟩
  · simp only [Action.meets_bind]
    exact (hx.settled w hw).imp fun a v hv => (hf a).settled v hv
  · simp only [Action.meets_bind]
    refine (hx.keeps w).imp fun a v h => ?_
    exact ((hf a).keeps v).mono (fun _ _ k => k.trans h) fun _ _ k => k.trans h

theorem catching {x : Action may t α} {handler : World → Failure → Option (Action may t α)}
    (hx : Agrees x) (same : ∀ w m n e, handler (w.remembering m n) e = handler w e)
    (hh : ∀ w e y, handler w e = some y → Agrees y) : Agrees (Action.catching x handler) := by
  refine ⟨fun w m n hw hm => ?_, fun w hw => ?_, fun w => ?_⟩
  · obtain ⟨m', n', equal⟩ := hx.same w m n hw hm
    have here := hx.settled w hw
    have there := hx.settled _ hm
    simp only [Action.catching, Action.converting, Comp.catching]
    unfold Comp.Meets at here there
    rw [equal] at there ⊢
    cases run : x.run w with
    | done a v => exact ⟨m', n', rfl⟩
    | exhausted => exact ⟨m, n, rfl⟩
    | failed e v =>
      rw [run] at here there
      simp only [Outcome.onState, same]
      cases hy : handler v e with
      | none => exact ⟨m', n', rfl⟩
      | some y => exact (hh v e y hy).same v m' n' here there
  · refine Action.meets_catching.mpr ((hx.settled w hw).mono (fun _ _ h => h) fun e v h => ?_)
    cases hy : handler v e with
    | none => exact h
    | some y => exact (hh v e y hy).settled v h
  · refine Action.meets_catching.mpr ((hx.keeps w).mono (fun _ _ h => h) fun e v h => ?_)
    cases hy : handler v e with
    | none => exact h
    | some y => exact ((hh v e y hy).keeps v).mono (fun _ _ k => k.trans h) fun _ _ k => k.trans h

theorem firstSome {xs : List α} {f : α → Action may t (Option β)} (hf : ∀ x, Agrees (f x)) :
    Agrees (ScriptCore.firstSome xs f) := by
  induction xs with
  | nil => exact .pure _
  | cons x rest ih =>
    refine .bind (hf x) fun r => ?_
    cases r with
    | none => exact ih
    | some y => exact .pure _

end Agrees

theorem getClass_of_hit {c : Value} (h : (w.memory s).classes.get? name = some c) :
    (getClass s name).run w = .done (some c) w := by
  unfold getClass
  rw [Action.run_bind_of_done (x := read _) rfl]
  simp only [h]
  rfl

theorem getClass_of_miss (h : (w.memory s).classes.get? name = none) :
    (getClass s name).run w = (do
      match ← searchClass s name with
      | none => pure none
      | some c => do
        updateMemory s (fun m => { m with classes := m.classes.put name c }) fun _ _ _ h => h
        pure (some c) : Plain (Option Value)).run w := by
  unfold getClass
  rw [Action.run_bind_of_done (x := read _) rfl]
  split
  · next c hit => cases h.symm.trans hit
  · rfl

theorem getClass_eq_of_miss (h : (w.memory s).classes.get? name = none) :
    ∃ m, (getClass s name).run w = ((searchClass s name).run w).onState (·.remembering m w.resolverCount) := by
  have self := Blind.searchClass s name w w.memories w.resolverCount
  rw [w.remembering_self] at self
  rw [getClass_of_miss h]
  change ∃ m, Comp.bind (searchClass s name).run _ w = _
  unfold Comp.bind
  cases run : (searchClass s name).run w with
  | exhausted => exact ⟨w.memories, rfl⟩
  | failed e v =>
    rw [run] at self
    exact ⟨w.memories, self⟩
  | done found v =>
    rw [run] at self
    cases found with
    | none => exact ⟨w.memories, self⟩
    | some c =>
      refine ⟨(v.modifyMemory s fun m => { m with classes := m.classes.put name c }).memories, ?_⟩
      have count : v.resolverCount = w.resolverCount := by
        simp only [Outcome.onState, Outcome.done.injEq, true_and] at self
        rw [self]
        rfl
      rw [← count]
      rfl

theorem getClass_eq (hw : w.Settled) (s : ScopeId) (name : String) :
    ∃ m n, (getClass s name).run w = ((searchClass s name).run w).onState (·.remembering m n) := by
  cases hit : (w.memory s).classes.get? name with
  | some c =>
    refine ⟨w.memories, w.resolverCount, ?_⟩
    rw [getClass_of_hit hit, searchClass_of_recalled ((hw.backs s).classes name c hit)]
    rfl
  | none =>
    obtain ⟨m, same⟩ := getClass_eq_of_miss hit
    exact ⟨m, w.resolverCount, same⟩

theorem scopes_getClass (s : ScopeId) (name : String) (w : World) :
    (getClass s name).run.Meets w (fun _ v => v.scopes = w.scopes) fun _ v => v.scopes = w.scopes := by
  unfold Comp.Meets
  cases hit : (w.memory s).classes.get? name with
  | some c => rw [getClass_of_hit hit]
  | none =>
    obtain ⟨m, same⟩ := getClass_eq_of_miss hit
    have search := scopes_searchClass s name w
    unfold Comp.Meets at search
    rw [same]
    cases run : (searchClass s name).run w with
    | done found v => rw [run] at search; exact search
    | failed e v => rw [run] at search; exact search
    | exhausted => trivial

theorem settled_getClass (hw : w.Settled) (s : ScopeId) (name : String) :
    (getClass s name).run.Meets w (fun found v => v.Settled ∧ v.recalled s name = some found) fun _ v => v.Settled := by
  unfold Comp.Meets
  cases hit : (w.memory s).classes.get? name with
  | some c =>
    rw [getClass_of_hit hit]
    exact ⟨hw, (hw.backs s).classes name c hit⟩
  | none =>
    rw [getClass_of_miss hit]
    change Comp.Meets _ w _ _
    simp only [Action.meets_bind]
    refine (learned_searchClass (hw.registryId_lt s) name).mono (fun found v h => ?_) fun _ _ h => hw.learned h
    have settled := hw.learned h.1
    cases found with
    | none => exact ⟨settled, h.2⟩
    | some c =>
      refine ⟨settled.modifyMemory ((settled.backs s).putClass h.2), ?_⟩
      exact (congrFun (congrFun (v.recalled_remembering _ _) s) name).trans h.2

namespace Agrees

theorem getClass (s : ScopeId) (name : String) : Agrees (Run.getClass s name) := by
  refine ⟨fun w m n hw hm => ?_, fun w hw => (settled_getClass hw s name).imp fun _ _ h => h.1,
    scopes_getClass s name⟩
  obtain ⟨m₁, n₁, here⟩ := getClass_eq hw s name
  obtain ⟨m₂, n₂, there⟩ := getClass_eq hm s name
  refine ⟨m₂, n₂, ?_⟩
  rw [here, there, Blind.searchClass s name w m n, Outcome.onState_onState, Outcome.onState_onState]
  rfl

theorem leadingClass (s : ScopeId) (segments : List String) : Agrees (Run.leadingClass s segments) := by
  refine .firstSome fun i => .bind (.getClass _ _) fun r => ?_
  cases r <;> exact .pure _

end Agrees

theorem Oblivious.fault (c : Cause) : Oblivious (Run.fault c : Faulty α) := .fail _

theorem Oblivious.stepTo (k : Walk) (name : String) (rest : List String) (v : Value) :
    Oblivious (Run.stepTo k name rest v) := by
  cases v with
  | none => exact ⟨fun _ _ _ => rfl, .refl⟩
  | _ => exact .pure _

theorem Oblivious.throwInto (e : HostError) (c : Cause) : Oblivious (Run.throwInto e c : Faulty α) :=
  .bind (.lift (.newHostError e)) fun _ => .fail _

namespace Agrees

theorem pure_bind {a : α} {f : α → Action may t β} (hf : Agrees (f a)) : Agrees (Pure.pure a >>= f) := hf

variable {field : Value → String → Action may .fault Value} [May.Within .retype may]

theorem stepFrom (s : ScopeId) (full : String) (k : Walk) (base : Value) (name : String) :
    Agrees (Run.stepFrom field s full true k base name) := by
  cases base with
  | null => exact .lift (Oblivious.throwInto _ _).agrees
  | void => exact .lift (Oblivious.fault _).agrees
  | boxed p mark => exact .lift (Oblivious.fault _).agrees
  | _ =>
    refine .bind (.lift (Oblivious.read fun _ _ _ => rfl).agrees) fun id => ?_
    cases id with
    | none => exact .lift (Oblivious.fault _).agrees
    | some target =>
      refine .bind (.lift (Oblivious.staticMember _ _ _).agrees) fun v => ?_
      exact .lift (Oblivious.stepTo _ _ _ _).agrees

theorem firstStep (view : View) (s : ScopeId) (k : Walk) (name : String) :
    Agrees (Run.firstStep view s true false k name) := by
  unfold Run.firstStep
  simp only [if_true]
  refine .pure_bind (.bind (.lift (.leadingClass _ _)) fun r => ?_)
  cases r with
  | some e => exact .bind (.lift (Oblivious.newClassId _).agrees) fun _ => .lift (Oblivious.stepTo _ _ _ _).agrees
  | none =>
    simp only [Bool.false_and, Bool.false_eq_true, if_false]
    split
    · exact .lift (Oblivious.stepTo _ _ _ _).agrees
    · exact .lift (Oblivious.fault _).agrees

theorem closureStep (view : View) (s b : ScopeId) (full : String) (k : Walk) (name : String) :
    Agrees (Run.closureStep view field s b full true false k name) := by
  unfold Run.closureStep
  simp only [if_true]
  refine .pure_bind ?_
  change Agrees (Run.stepFrom field s full true k (.closure b) name)
  exact .stepFrom _ _ _ _ _

theorem walk (view : View) (s : ScopeId) (full : String) (fuel : Nat) (k : Walk) :
    Agrees (Run.walk view field s full true fuel k) := by
  induction fuel generalizing k with
  | zero => exact Oblivious.exhausted.agrees
  | succ fuel ih =>
    have step : Agrees (Run.step view field s full true false k) := by
      unfold Run.step
      dsimp only
      split
      · exact .lift (.firstStep _ _ _ _)
      · exact .closureStep _ _ _ _ _ _
      · exact .stepFrom _ _ _ _ _
    refine .bind step fun ⟨v, k'⟩ => ?_
    dsimp only
    split
    · exact .pure _
    · exact ih _

theorem memberClass (s : ScopeId) (name : String) : Agrees (Run.memberClass s name) := by
  refine .bind (.catching (.walk _ _ _ _ _) (fun _ _ _ _ => rfl) fun w e y hy => ?_) fun v => ?_
  · split at hy
    · cases hy
      exact .pure _
    · cases hy
  · exact .lift (Oblivious.read fun _ _ _ => rfl).agrees

theorem findClass (s : ScopeId) (name : String) : Agrees (Run.findClass s name) := by
  refine .bind (.lift (.getClass s name)) fun r => ?_
  cases r with
  | none => exact .memberClass s name
  | some c => exact .pure _

end Agrees

/-- Whether names have to be looked up for it or not, a scope has a resolver for a name. One that is
new has found nothing yet. -/
theorem resolverFor_eq (w : World) (s : ScopeId) (name : String) :
    ∃ r m n, (resolverFor s name).run w = .done r (w.remembering m n) ∧
      ((w.memory s).resolvers.get? name = some r ∨
        (w.memory s).resolvers.get? name = none ∧ r.asClass = none ∧ r.staticClass = none) := by
  unfold resolverFor
  rw [Action.run_bind_of_done (x := get) rfl]
  cases held : (w.memory s).resolvers.get? name with
  | some r => exact ⟨r, w.memories, w.resolverCount, rfl, .inl rfl⟩
  | none => exact ⟨{ id := w.resolverCount }, _, _, rfl, .inr ⟨rfl, rfl, rfl⟩⟩

theorem settled_resolverFor (hw : w.Settled) (s : ScopeId) (name : String) :
    (resolverFor s name).run.Meets w (fun _ v => v.Settled) fun _ v => v.Settled := by
  unfold resolverFor
  simp only [Action.meets_bind, meets_get]
  split
  · exact hw
  · have counted : (w.remembering w.memories (w.resolverCount + 1)).Settled := hw.remembering hw.backs
    exact counted.modifyMemory ((counted.backs s).putResolver (fun _ h => by cases h) fun _ h => by cases h)

theorem findClass_of_getClass {found : Option Value} {v : World}
    (h : (getClass s name).run w = .done found v) :
    (findClass s name).run w =
      match found with
      | some c => .done (some c) v
      | none => (memberClass s name).run v := by
  unfold findClass
  rw [Action.run_liftM_bind_of_done h]
  cases found <;> rfl

theorem resolveClass_afresh {r : Resolver} {v : World} (h : (resolverFor s name).run w = .done r v)
    (hr : r.asClass = none) (hn : name ≠ "var") :
    (resolveClass s name).run w = (do
      match ← findClass s name with
      | none => fault (.classNotFound name)
      | some c => do
        rememberClass s name r c
        pure (some c) : Action .retype .fault (Option Value)).run v := by
  unfold resolveClass
  rw [Action.run_liftM_bind_of_done h]
  split
  · next c found => cases hr.symm.trans found
  · exact congrArg (Action.run · v) (if_neg hn)

theorem result_resolveClass {r r' : Resolver} {w w' v : World} {m : Array Memory} {n : Nat}
    (hv : v.Settled) (hm : (v.remembering m n).Settled) (h : (resolverFor s name).run w = .done r v)
    (h' : (resolverFor s name).run w' = .done r' (v.remembering m n)) (hr : r.asClass = none) (hr' : r'.asClass = none) :
    ((resolveClass s name).run w).result = ((resolveClass s name).run w').result := by
  by_cases hn : name = "var"
  · unfold resolveClass
    rw [Action.run_liftM_bind_of_done h, Action.run_liftM_bind_of_done h']
    simp only [hr, hr', hn, if_true]
    rfl
  · rw [resolveClass_afresh h hr hn, resolveClass_afresh h' hr' hn]
    obtain ⟨m', n', same⟩ := (Agrees.findClass s name).same v m n hv hm
    change Outcome.result (Comp.bind (findClass s name).run _ v) =
      Outcome.result (Comp.bind (findClass s name).run _ (v.remembering m n))
    unfold Comp.bind
    rw [same]
    cases (findClass s name).run v with
    | done found u => cases found <;> rfl
    | failed e u => rfl
    | exhausted => rfl

theorem result_resolveClass_of_recalled {r : Resolver} {v : World} {c : Value} (hv : v.Settled)
    (h : (resolverFor s name).run w = .done r v) (hr : r.asClass = none) (hn : name ≠ "var")
    (hc : v.recalled s name = some (some c)) : ((resolveClass s name).run w).result = some (.ok (some c)) := by
  obtain ⟨m, n, found⟩ := getClass_eq hv s name
  rw [searchClass_of_recalled hc] at found
  rw [resolveClass_afresh h hr hn, Action.run_bind_of_done (findClass_of_getClass found)]
  rfl

theorem resolveClass_forgetting (hw : w.Settled) (s : ScopeId) (name : String) :
    ((resolveClass s name).run w).result = ((resolveClass s name).run (w.forgetting s)).result := by
  obtain ⟨r, m, n, here, known⟩ := resolverFor_eq w s name
  obtain ⟨r', m', n', there, fresh⟩ := resolverFor_eq (w.forgetting s) s name
  have blank := w.isBlank_forgetting s
  have new : r'.asClass = none := by
    rcases fresh with held | ⟨-, none, -⟩
    · rw [blank.resolvers] at held
      cases held
    · exact none
  have settled := (settled_resolverFor hw s name).of_done here
  have settled' := (settled_resolverFor (hw.forgetting s) s name).of_done there
  cases memo : r.asClass with
  | none => exact result_resolveClass settled settled' here there memo new
  | some c =>
    have held : (w.memory s).resolvers.get? name = some r := by
      rcases known with held | ⟨-, none, -⟩
      · exact held
      · rw [memo] at none
        cases none
    obtain ⟨hn, recalled⟩ := (hw.backs s).resolved name r c held memo
    have first : (resolveClass s name).run w = .done (some c) (w.remembering m n) := by
      unfold resolveClass
      rw [Action.run_liftM_bind_of_done here]
      simp only [memo]
      rfl
    rw [first, result_resolveClass_of_recalled settled' there new hn ?_]
    · rfl
    · rw [World.recalled_remembering, w.forgetting_eq s, World.recalled_remembering]
      exact recalled

theorem getClass_forgetting_iff (w : World) (s : ScopeId) :
    (∀ name, ((getClass s name).run w).result = ((getClass s name).run (w.forgetting s)).result) ↔
      ∀ name c, (w.memory s).classes.get? name = some c → ((searchClass s name).run w).result = some (.ok (some c)) := by
  have again (name : String) : ((getClass s name).run (w.forgetting s)).result = ((searchClass s name).run w).result := by
    have blank : ((w.forgetting s).memory s).classes.get? name = none := by
      rw [(w.isBlank_forgetting s).classes]
      rfl
    obtain ⟨m, there⟩ := getClass_eq_of_miss blank
    rw [there, w.forgetting_eq s, Blind.searchClass]
    simp only [Outcome.result_onState]
  constructor
  · intro same name c hit
    rw [← again, ← same, getClass_of_hit hit]
    rfl
  · intro current name
    rw [again]
    cases hit : (w.memory s).classes.get? name with
    | some c =>
      rw [getClass_of_hit hit, current name c hit]
      rfl
    | none =>
      obtain ⟨m, here⟩ := getClass_eq_of_miss hit
      rw [here, Outcome.result_onState]

end Run

end ScriptCore
