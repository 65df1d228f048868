import ScriptCore.Proofs.NameChanges

namespace ScriptCore

/-- A world and one that calls lead to, each of them heard by all. What happens beside the scopes
may happen at any time. -/
inductive NameCalls : World → World → Prop
  | nil (w : World) : NameCalls w w
  | cons {w w' w'' : World} (c : NameCall) (h : c.Leads w w') (heard : c.Heard w) (rest :
      NameCalls w' w'') : NameCalls w w''
  | beside {w w' w'' : World} (h : w.Beside w') (rest : NameCalls w' w'') : NameCalls w w''

namespace World

variable {w w' : World} {s : ScopeId} {name : String} {c : Value}

theorem Settled.beside (hw : w.Settled) (h : w.Beside w') : w'.Settled := by
  have same : Stored 0 "" w w' := .of_beside h
  refine hw.stored_known same ?_
  obtain ⟨p, hp⟩ := h.scope 0
  rw [hp]
  exact id

def Aside (w w' : World) : Prop := ∃ m n more, w' = { w.remembering m n with objects := w.objects ++ more }

theorem classId?_remembering (w : World) (m : Array Memory) (n : Nat) (v : Value) :
    (w.remembering m n).classId? v = w.classId? v := rfl

theorem aside_remembering (w : World) (m : Array Memory) (n : Nat) : w.Aside (w.remembering m n) :=
  ⟨m, n, #[], by rw [Array.append_empty]; rfl⟩

theorem Aside.trans {w'' : World} (h : w.Aside w') (k : w'.Aside w'') : w.Aside w'' := by
  obtain ⟨m, n, more, rfl⟩ := h
  obtain ⟨m', n', more', rfl⟩ := k
  exact ⟨m', n', more ++ more', by rw [← Array.append_assoc]; rfl⟩

theorem Aside.remembering (h : w.Aside w') (m : Array Memory) (n : Nat) : w.Aside (w'.remembering m n) :=
  h.trans (w'.aside_remembering m n)

end World

theorem NameCalls.settled {w w' : World} (h : NameCalls w w') (hw : w.Settled) : w'.Settled := by
  induction h with
  | nil w => exact hw
  | cons c h heard _ ih => exact ih (c.settled hw h heard)
  | beside h _ ih => exact ih (hw.beside h)

namespace Run

variable {w : World} {s : ScopeId} {name : String} {c : Value}

theorem findBinding_of_unbound (outwards : Bool)
    (h : ∀ t ∈ if outwards then w.ancestry s else [s], w.importTargets t = [] ∧ (w.scope t).vars.contains name = false) :
    (findBinding s name outwards).run w = .done none w := by
  change (firstSome (if outwards then w.ancestry s else [s]) fun t => localBindingOf t name).run w = _
  generalize (if outwards then w.ancestry s else [s]) = scopes at h
  induction scopes with
  | nil => rfl
  | cons t rest ih =>
    have here := h t List.mem_cons_self
    unfold firstSome
    rw [Action.run_bind_of_done (localBindingOf_unknown here.1 here.2)]
    exact ih fun u hu => h u (List.mem_cons_of_mem _ hu)

theorem getVariable_of_unbound (h : w.Unbound s name) : (getVariable s name true).run w = .done .void w := by
  unfold getVariable
  rw [Action.run_liftM_bind_of_done (findBinding_of_unbound true h)]
  rfl

theorem firstSome_of_last {α β : Type} {f : α → Plain (Option β)} {P : World → Prop} {before : List α} {x : α} {b : β}
    (none : ∀ y ∈ before, ∀ v, P v → ∃ u, (f y).run v = .done Option.none u ∧ P u)
    (some : ∀ v, P v → ∃ u, (f x).run v = .done (Option.some b) u ∧ P u) (hw : P w) :
    ∃ u, (firstSome (before ++ [x]) f).run w = .done (Option.some b) u ∧ P u := by
  induction before generalizing w with
  | nil =>
    obtain ⟨u, found, hu⟩ := some w hw
    refine ⟨u, ?_, hu⟩
    change (firstSome [x] f).run w = _
    unfold firstSome
    rw [Action.run_bind_of_done found]
    rfl
  | cons y rest ih =>
    obtain ⟨v, first, hv⟩ := none y List.mem_cons_self w hw
    obtain ⟨u, found, hu⟩ := ih (fun z hz => none z (List.mem_cons_of_mem _ hz)) hv
    refine ⟨u, ?_, hu⟩
    change (firstSome (y :: (rest ++ [x])) f).run w = _
    unfold firstSome
    rw [Action.run_bind_of_done first]
    exact found

theorem getClass_of_recalled (hw : w.Settled) {hit : Option Value} (h : w.recalled s name = some hit) :
    ∃ m n, (getClass s name).run w = .done hit (w.remembering m n) ∧ (w.remembering m n).Settled := by
  obtain ⟨m, n, found⟩ := getClass_eq hw s name
  rw [searchClass_of_recalled h] at found
  exact ⟨m, n, found, ((settled_getClass hw s name).of_done found).1⟩

theorem leadingClass_of_means (hw : w.Settled) (h : w.Means s name c) :
    ∃ m n, (leadingClass s (Path.through name)).run w =
        .done (some ((Path.through name).length, c)) (w.remembering m n) ∧ (w.remembering m n).Settled := by
  obtain ⟨n, length⟩ : ∃ n, (Path.through name).length = n + 1 :=
    Nat.exists_eq_succ_of_ne_zero fun empty => Path.segments_ne_nil _ (List.length_eq_zero_iff.mp empty)
  have counts : (List.range (n + 1)).map (· + 1) = (List.range n).map (· + 1) ++ [n + 1] := by
    rw [List.range_succ, List.map_append]
    rfl
  have whole : (Path.through name).take (n + 1) = Path.through name := by
    rw [← length, List.take_length]
  -- Each group of segments is looked up in a world that differs from the first only in what is remembered.
  have step (i : Nat) {hit : Option Value} (found : w.recalled s (Path.join ((Path.through name).take i)) = some hit)
      (v : World) (hv : ∃ m k, v = w.remembering m k ∧ v.Settled) :
      ∃ u, (getClass s (Path.join ((Path.through name).take i))).run v = .done hit u ∧
        ∃ m k, u = w.remembering m k ∧ u.Settled := by
    obtain ⟨m, k, rfl, settled⟩ := hv
    rw [← w.recalled_remembering m k] at found
    obtain ⟨m', k', run, settled'⟩ := getClass_of_recalled settled found
    exact ⟨_, run, m', k', rfl, settled'⟩
  have before (i : Nat) (hi : i ∈ (List.range n).map (· + 1)) :
      w.recalled s (Path.join ((Path.through name).take i)) = some none := by
    obtain ⟨j, hj, rfl⟩ := List.mem_map.mp hi
    exact h.before _ (Nat.succ_pos j) (length ▸ Nat.succ_lt_succ (List.mem_range.mp hj))
  have search : ∃ u, (leadingClass s (Path.through name)).run w = .done (some (n + 1, c)) u ∧
      ∃ m k, u = w.remembering m k ∧ u.Settled := by
    unfold leadingClass
    simp only [h.named, if_false, length, counts]
    refine firstSome_of_last (fun i hi v hv => ?_) (fun v hv => ?_) ⟨w.memories, w.resolverCount, rfl, hw⟩
    · obtain ⟨u, run, remembered⟩ := step i (before i hi) v hv
      exact ⟨u, Action.run_bind_of_done run, remembered⟩
    · obtain ⟨u, run, remembered⟩ := step (n + 1) (whole.symm ▸ h.found) v hv
      exact ⟨u, Action.run_bind_of_done run, remembered⟩
  obtain ⟨u, found, m, k, rfl, settled⟩ := search
  exact ⟨m, k, length ▸ found, settled⟩

theorem segmentValue_of_variable (view : View) (k : Walk) {v : Value} {w' : World}
    (plain : name ∉ ["this", "super", "global"])
    (value : (getVariable s name true).run w = .done v w') :
    (segmentValue view k s name false).run w = .done (v, k.depth) w' := by
  unfold segmentValue
  rw [Action.run_get_bind]
  split
  · simp at plain
  · simp at plain
  · simp at plain
  · simp only [Bool.not_false, if_true]
    rw [Action.run_bind_of_done value]
    rfl

theorem segmentValue_of_unbound (view : View) (k : Walk) (h : w.Unbound s name)
    (plain : name ∉ ["this", "super", "global"]) :
    (segmentValue view k s name false).run w = .done (.void, k.depth) w :=
  segmentValue_of_variable view k plain (getVariable_of_unbound h)

theorem resolveName_of_means {may : May} [May.Within .retype may] (field : Value → String → Action may .fault Value)
    (hw : w.Settled) (h : w.Means s name c) (view : View) :
    ∃ m n, (resolveName view field s ((Path.owner? name).getD "") false).run w =
        (newClassId c).run (w.remembering m n) ∧ (w.remembering m n).Settled := by
  obtain ⟨m, n, leading, settled⟩ := leadingClass_of_means hw h
  refine ⟨m, n, ?_, settled⟩
  have value := segmentValue_of_unbound view { rest := Path.through name } h.unbound h.start
  let id : Value := .object w.objects.size
  let after : Walk := { rest := [], last := some (Path.join (Path.through name)), base := some id }
  have first : (firstStep view s false false { rest := Path.through name } ((Path.through name).headD "")).run w =
      .done (id, after)
        { w.remembering m n with objects := w.objects.push { cls := .core .classIdentifier, payload := .classId c } } := by
    unfold firstStep
    simp only [Bool.false_eq_true, if_false]
    rw [Action.run_liftM_bind_of_done value]
    simp only [Value.isVoid, Bool.not_true, Bool.false_eq_true, if_false]
    rw [Action.run_liftM_bind_of_done leading]
    simp only [List.take_length, List.drop_length]
    rfl
  change (walk view field s _ false (_ + 1) { rest := Path.through name }).run w = _
  unfold walk step
  dsimp only
  rw [Action.run_liftM_bind_of_done first]
  rfl

theorem newClassId_eq (c : Value) (w : World) :
    ∃ v, (newClassId c).run w = .done (.object w.objects.size) v ∧ v.classId? (.object w.objects.size) = some c ∧
      w.Aside v ∧ v.scopes = w.scopes ∧ v.registries = w.registries := by
  let id : Obj := { cls := .core .classIdentifier, payload := .classId c }
  have aside : w.Aside { w with objects := w.objects.push id } := by
    refine ⟨w.memories, w.resolverCount, #[id], ?_⟩
    rw [← Array.push_eq_append]
    rfl
  exact ⟨{ w with objects := w.objects.push id }, rfl, by simp [id, World.classId?, World.obj], aside, rfl, rfl⟩

theorem remember_eq (s : ScopeId) (name : String) (r : Resolver) (f : Resolver → Resolver) (w : World) :
    ∃ m, (remember s name r f).run w = .done () (w.remembering m w.resolverCount) := ⟨_, rfl⟩

end Run

namespace Evaluator

variable {w : World} {s : ScopeId} {name : String} {c : Value} (ev : Evaluator)

theorem invokeOn_of_classId {i : ObjectId} (h : w.classId? (.object i) = some c) (method : String)
    (args : List Value) (caller : Node) (k : StackRef) :
    ev.invokeOn s (.object i) method args caller ⟨w, k⟩ = ev.invokeStatic s c method args caller ⟨w, k⟩ := by
  unfold invokeOn
  refine Eval.get_bind.trans ?_
  simp only [h]

theorem invokeAfresh_of_means (hw : w.Settled) (h : w.Means s name c) (r : Resolver)
    (args : List Value) (caller : Node) (k : StackRef) :
    ∃ v, w.Aside v ∧ v.Settled ∧
      ev.invokeAfresh s name r args caller ⟨w, k⟩ = ev.invokeStatic s c (Path.last name) args caller ⟨v, k⟩ := by
  have notSuper : (Path.owner? name).getD "" ≠ "super" := by
    intro owner
    have start := h.start
    rw [Path.through, owner] at start
    exact absurd start (by decide)
  obtain ⟨q, m₁, n₁, held, -⟩ := Run.resolverFor_eq w s ((Path.owner? name).getD "")
  have settled₁ := (Run.settled_resolverFor hw s _).of_done held
  let view : View := { frames := EvalState.frames ⟨w.remembering m₁ n₁, k⟩ }
  obtain ⟨m₂, n₂, resolved, settled₂⟩ := Run.resolveName_of_means ev.hostField settled₁ h.remembering view
  obtain ⟨u, made, isClass, aside, scopes, registries⟩ := Run.newClassId_eq c ((w.remembering m₁ n₁).remembering m₂ n₂)
  have settled₃ : u.Settled := ((Run.Oblivious.newClassId c).settled settled₂).of_done made
  obtain ⟨m₃, noted⟩ := Run.remember_eq s name r (fun r => { r with staticClass := some c }) u
  have settled₄ : (u.remembering m₃ u.resolverCount).Settled := by
    refine (Run.settled_remember settled₃ (fun held d found hd => ?_) fun held d found hd => ?_).of_done noted
    · exact (settled₃.backs s).resolved _ held d found hd
    · cases hd
      exact h.of_scopes scopes registries
  have viewed : Eval.view name ⟨w.remembering m₁ n₁, k⟩ = .done view ⟨w.remembering m₁ n₁, k⟩ := by
    unfold Eval.view
    simp only [h.unmentioned, Bool.false_eq_true, if_false]
    rfl
  have first : w.Aside ((w.remembering m₁ n₁).remembering m₂ n₂) := w.aside_remembering m₂ n₂
  refine ⟨u.remembering m₃ u.resolverCount, (first.trans aside).remembering _ _, settled₄, ?_⟩
  unfold invokeAfresh
  simp only [h.compound, Bool.not_true, Bool.false_eq_true, if_false, notSuper]
  refine Eval.read_bind.trans ?_
  dsimp only
  refine (Eval.lift_bind_of_done held).trans ?_
  refine (Comp.bind_of_done viewed).trans ?_
  refine (Eval.lift_bind_of_done (resolved.trans made)).trans ?_
  dsimp only
  refine Eval.read_bind.trans ?_
  simp only [isClass]
  refine (Eval.lift_bind_of_done noted).trans ?_
  exact invokeOn_of_classId ev ((u.classId?_remembering m₃ u.resolverCount _).trans isClass) (Path.last name) args caller k

theorem invokeName_of_resolver {r : Resolver} {v : World} (h : (Run.resolverFor s name).run w = .done r v)
    (args : List Value) (caller : Node) (k : StackRef) :
    ev.invokeName s name args caller ⟨w, k⟩ =
      (match r.staticClass with
        | some target => ev.invokeStatic s target (Path.last name) args caller
        | none => ev.invokeAfresh s name r args caller : Eval Value) ⟨v, k⟩ :=
  Eval.lift_bind_of_done h

/-- Calls by a name come to the same in two worlds: both call the static methods of one class, or
both find out afresh what the name stands for. The worlds they begin in are settled, and differ from
the two at most in what is remembered and in new objects. -/
def CallsAlike (s : ScopeId) (name : String) (w w' : World) : Prop :=
  ∀ args caller k, ∃ v v', w.Aside v ∧ w'.Aside v' ∧ v.Settled ∧ v'.Settled ∧
    ((∃ c, ev.invokeName s name args caller ⟨w, k⟩ = ev.invokeStatic s c (Path.last name) args caller ⟨v, k⟩ ∧
        ev.invokeName s name args caller ⟨w', k⟩ = ev.invokeStatic s c (Path.last name) args caller ⟨v', k⟩) ∨
      ∃ r r', ev.invokeName s name args caller ⟨w, k⟩ = ev.invokeAfresh s name r args caller ⟨v, k⟩ ∧
        ev.invokeName s name args caller ⟨w', k⟩ = ev.invokeAfresh s name r' args caller ⟨v', k⟩)

theorem callsAlike_forgetting (hw : w.Settled) (s : ScopeId) (name : String) :
    ev.CallsAlike s name w (w.forgetting s) := by
  intro args caller k
  obtain ⟨r, m, n, here, known⟩ := Run.resolverFor_eq w s name
  obtain ⟨r', m', n', there, fresh⟩ := Run.resolverFor_eq (w.forgetting s) s name
  have settled : (w.remembering m n).Settled := (Run.settled_resolverFor hw s name).of_done here
  have settled' : ((w.forgetting s).remembering m' n').Settled :=
    (Run.settled_resolverFor (hw.forgetting s) s name).of_done there
  have new : r'.staticClass = none := by
    rcases fresh with held | ⟨-, -, none⟩
    · rw [(w.isBlank_forgetting s).resolvers] at held
      cases held
    · exact none
  have afresh : ev.invokeName s name args caller ⟨w.forgetting s, k⟩ =
      ev.invokeAfresh s name r' args caller ⟨(w.forgetting s).remembering m' n', k⟩ := by
    rw [invokeName_of_resolver ev there, new]
  cases memo : r.staticClass with
  | none =>
    refine ⟨_, _, w.aside_remembering m n, (w.forgetting s).aside_remembering m' n', settled,
      settled', .inr ⟨r, r', ?_, afresh⟩⟩
    rw [invokeName_of_resolver ev here, memo]
  | some c =>
    have held : (w.memory s).resolvers.get? name = some r := by
      rcases known with held | ⟨-, -, none⟩
      · exact held
      · rw [memo] at none
        cases none
    have means : ((w.forgetting s).remembering m' n').Means s name c :=
      ((hw.backs s).called name r c held memo).of_scopes rfl rfl
    obtain ⟨v, aside, settled'', static⟩ := invokeAfresh_of_means ev settled' means r' args caller k
    have reached : (w.forgetting s).Aside v := ((w.forgetting s).aside_remembering m' n').trans aside
    refine ⟨_, v, w.aside_remembering m n, reached, settled, settled'', .inl ⟨c, ?_, afresh.trans static⟩⟩
    rw [invokeName_of_resolver ev here, memo]

end Evaluator

/-- After calls that all hear of, it makes no difference to a lookup or to a call by name whether
the scope remembers anything. -/
theorem names_as_if_forgotten {w w' : World} (hw : w.Settled) (calls : NameCalls w w') (s : ScopeId) (name : String) :
    ((Run.getClass s name).run w').result = ((Run.getClass s name).run (w'.forgetting s)).result ∧
      ((Run.resolveClass s name).run w').result = ((Run.resolveClass s name).run (w'.forgetting s)).result ∧
      ∀ ev : Evaluator, ev.CallsAlike s name w' (w'.forgetting s) := by
  have settled := calls.settled hw
  refine ⟨?_, Run.resolveClass_forgetting settled s name, fun ev => ev.callsAlike_forgetting settled s name⟩
  refine (Run.getClass_forgetting_iff w' s).mpr (fun name c held => ?_) name
  rw [Run.searchClass_of_recalled ((settled.backs s).classes name c held)]
  rfl

def Outcome.findsClass (c : ClassRef) : Outcome World (Option Value) → Bool
  | .done (some (.cls d)) _ => decide (d = c)
  | _ => false

theorem Outcome.result_of_findsClass {c : ClassRef} {o : Outcome World (Option Value)}
    (h : o.findsClass c) : o.result = some (.ok (some (.cls c))) := by
  unfold findsClass at h
  split at h
  · cases of_decide_eq_true h
    rfl
  · cases h

/-- A block that has looked a class up by an imported name hears that the name stands for another
class from then on, and remembers that one. -/
theorem names_as_if_forgotten_redefined :
    ∃ w, NameCalls .bare w ∧ (w.memory 1).classes.contains "Point" ∧
      ((Run.getClass 1 "Point").run w).result = some (.ok (some (.cls (.core .int)))) ∧
      ((Run.getClass 1 "Point").run (w.forgetting 1)).result = some (.ok (some (.cls (.core .int)))) := by
  have bare : World.bare.Settled := by
    refine ⟨fun s => ?_, fun s => .of_isBlank (World.isBlank_of_size_le (Nat.zero_le s))⟩
    cases s with
    | zero => decide
    | succ n => simp [World.scope, World.bare]
  have run :
      (((Run.register 0 "p.Point" (.cls (.core .str))).run .bare).state?.bind fun w₁ =>
        ((Run.importPackage 0 "p").run w₁).state?.bind fun w₂ =>
        ((Run.newBlock 0 none).run w₂).state?.bind fun w₃ =>
        ((Run.resolveClass 1 "Point").run w₃).state?.bind fun w₄ =>
        ((Run.register 0 "p.Point" (.cls (.core .int))).run w₄).state?.bind fun w₅ =>
        ((Run.getClass 1 "Point").run w₅).state?.map fun w₆ =>
          (decide (w₁.HearImport (w₁.enclosing 0)) && decide (w₂.memory w₂.scopes.size).IsBlank &&
            ((Run.getClass 1 "Point").run w₃).findsClass (.core .str) && decide (w₄.HearRegistry 0) &&
            (w₆.memory 1).classes.contains "Point" && ((Run.getClass 1 "Point").run w₆).findsClass (.core .int))) =
      some true := by decide +kernel
  obtain ⟨w₁, step₁, run⟩ := Option.bind_eq_some_iff.mp run
  obtain ⟨w₂, step₂, run⟩ := Option.bind_eq_some_iff.mp run
  obtain ⟨w₃, step₃, run⟩ := Option.bind_eq_some_iff.mp run
  obtain ⟨w₄, step₄, run⟩ := Option.bind_eq_some_iff.mp run
  obtain ⟨w₅, step₅, run⟩ := Option.bind_eq_some_iff.mp run
  obtain ⟨w₆, step₆, run⟩ := Option.map_eq_some_iff.mp run
  simp only [Bool.and_eq_true, decide_eq_true_eq] at run
  obtain ⟨⟨⟨⟨⟨heard₂, heard₃⟩, found⟩, heard₅⟩, held⟩, found'⟩ := run
  have heard₁ : World.bare.HearRegistry 0 := by decide +kernel
  have heard₄ : (NameCall.resolveClass 1 "Point").Heard w₃ := by
    intro none
    rw [Outcome.result_of_findsClass found] at none
    cases none
  have calls : NameCalls .bare w₆ :=
    .cons (.define 0 "p.Point" (.cls (.core .str))) (Comp.leads_of_state? step₁) heard₁ <|
    .cons (.importPackage 0 "p") (Comp.leads_of_state? step₂) heard₂ <|
    .cons (.openBlock 0 none) (Comp.leads_of_state? step₃) heard₃ <|
    .cons (.resolveClass 1 "Point") (Comp.leads_of_state? step₄) heard₄ <|
    .cons (.define 0 "p.Point" (.cls (.core .int))) (Comp.leads_of_state? step₅) heard₅ <|
    .cons (.getClass 1 "Point") (Comp.leads_of_state? step₆) trivial (.nil w₆)
  have result := Outcome.result_of_findsClass found'
  exact ⟨w₆, calls, held, result, (names_as_if_forgotten bare calls 1 "Point").1.symm.trans result⟩

/-- A scope that has looked a class up without a resolver does not hear of another class of that
name. -/
theorem lookup_can_miss_definition :
    ∃ w₁ w₂ w₃, (NameCall.define 0 "Point" (.cls (.core .str))).Leads .bare w₁ ∧ (NameCall.getClass 0 "Point").Leads w₁ w₂ ∧
      (NameCall.define 0 "Point" (.cls (.core .int))).Leads w₂ w₃ ∧
      ((Run.getClass 0 "Point").run w₃).result = some (.ok (some (.cls (.core .str)))) ∧
      ((Run.getClass 0 "Point").run (w₃.forgetting 0)).result = some (.ok (some (.cls (.core .int)))) := by
  have run :
      (((Run.register 0 "Point" (.cls (.core .str))).run .bare).state?.bind fun w₁ =>
        ((Run.getClass 0 "Point").run w₁).state?.bind fun w₂ =>
        ((Run.register 0 "Point" (.cls (.core .int))).run w₂).state?.map fun w₃ =>
          (((Run.getClass 0 "Point").run w₃).findsClass (.core .str) &&
            ((Run.getClass 0 "Point").run (w₃.forgetting 0)).findsClass (.core .int))) = some true := by decide +kernel
  obtain ⟨w₁, step₁, run⟩ := Option.bind_eq_some_iff.mp run
  obtain ⟨w₂, step₂, run⟩ := Option.bind_eq_some_iff.mp run
  obtain ⟨w₃, step₃, run⟩ := Option.map_eq_some_iff.mp run
  simp only [Bool.and_eq_true] at run
  exact ⟨w₁, w₂, w₃, Comp.leads_of_state? step₁, Comp.leads_of_state? step₂, Comp.leads_of_state? step₃,
    Outcome.result_of_findsClass run.1, Outcome.result_of_findsClass run.2⟩

end ScriptCore
