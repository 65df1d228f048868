import ScriptCore.Interpreter
import ScriptCore.Proofs.TypedStorage

namespace ScriptCore

/-- A call that changes variables. A local assignment is one that does not look outwards. -/
inductive StorageCall where
  | assign (s : ScopeId) (name : String) (value : Value) (strict outwards : Bool)
  | assignInBlock (s : ScopeId) (name : String) (value : Value)
  | declare (s : ScopeId) (name : String) (type : Ty) (value : Option Value) (modifiers : Modifiers)
  | remove (s : ScopeId) (name : String)

namespace StorageCall

def run : StorageCall → Run Unit
  | assign s name value strict outwards => (Run.setVariable s name value strict outwards).run
  | assignInBlock s name value => (Run.setBlockVariable s name value).run
  | declare s name type value modifiers => (Run.setTypedVariable s name type value modifiers).run
  | remove s name => (Run.unsetVariable s name).run

def Retypes (w : World) : StorageCall → Prop
  | assign _ name .. | assignInBlock _ name _ => name = "component_type" ∧ w.ImportsArray
  | _ => False

/-- The call declares a variable again that still waits for its value, no longer as a final one, and
leaves it without a value. -/
def Abandons (w : World) : StorageCall → Prop
  | declare s name type value modifiers =>
    ∃ t x, (Run.findBinding s name false).run w = .done (some (.held t name)) w ∧
      (w.scope t).vars.get? name = some x ∧ x.type = type ∧ type ≠ .untyped ∧ x.value = none ∧
      modifiers.has "final" = false ∧
      (value = none ∨ ∀ w', (Run.setTypedVariable s name type value modifiers).run w ≠ .done () w')
  | _ => False

variable {w w' : World}

section Again

variable {s t : ScopeId} {name : String} {type : Ty} {value : Option Value} {modifiers : Modifiers} {x : Variable}

theorem not_typed_of_put {y : Variable} (ht : t < w.scopes.size) (hu : y.type ≠ .untyped) (hn : y.value = none)
    (hf : y.isFinal = false) (h : (w.setVars t fun vars => vars.put name y).Calm w') : ¬w'.Typed := by
  intro hw
  have hy : (w'.scope t).vars.get? name = some y := by
    rw [h.vars t, World.scope_setVars, if_pos ⟨rfl, ht⟩]
    exact Table.get?_put_self _ name y
  have := hw.fits_of_get? hy
  simp [World.fits, hn, hu, hf] at this

/-- Declaring a variable again that waits for its value, no longer as a final one: it has to be
given a value. -/
theorem typed_iff_of_waiting (hw : w.Typed) (h : (declare s name type value modifiers).run.Leads w w')
    (hb : (Run.findBinding s name false).run w = .done (some (.held t name)) w)
    (hx : (w.scope t).vars.get? name = some x) (ht : x.type = type) (hu : type ≠ .untyped) (hn : x.value = none)
    (hf : modifiers.has "final" = false) : w'.Typed ↔ ¬(declare s name type value modifiers).Abandons w := by
  have again := Run.run_setTypedVariable_again value modifiers hb hx ht hu
  have hs : t < w.scopes.size := Nat.lt_of_not_le fun hs => by
    rw [World.scope, Array.getElem?_eq_none hs] at hx
    cases hx
  have broken {u : World} (hu' : (w.setVars t fun vars => vars.put name { x with modifiers }).Calm u) : ¬u.Typed :=
    not_typed_of_put (y := { x with modifiers }) hs (ht ▸ hu) hn hf hu'
  have abandoned (hv : value = none ∨ ∀ u, (declare s name type value modifiers).run w ≠ .done () u) :
      (declare s name type value modifiers).Abandons w := ⟨t, x, hb, hx, ht, hu, hn, hf, hv⟩
  cases value with
  | none =>
    have : w' = w.setVars t fun vars => vars.put name { x with modifiers } := by
      cases h with
      | done a hd => rw [run, again] at hd; cases hd; rfl
      | failed e hd => rw [run, again] at hd; cases hd
    subst this
    exact iff_of_false (broken (.refl _)) fun h => h (abandoned (.inl rfl))
  | some v =>
    have assigned := Run.meets_assignVariable t name v true (w.setVars t fun vars => vars.put name { x with modifiers })
    have held : (((w.setVars t fun vars => vars.put name { x with modifiers }).scope t).vars.get? name) =
        some { x with modifiers } := by
      rw [World.scope_setVars, if_pos ⟨rfl, hs⟩]
      exact Table.get?_put_self _ name _
    cases h with
    | done a hd =>
      rw [run, again] at hd
      have wrote := assigned.of_done hd
      simp only [held] at wrote
      obtain ⟨r, wrote⟩ := wrote
      refine iff_of_true (wrote.typed_of_put hs hw) ?_
      rintro ⟨-, -, -, -, -, -, -, -, hv | hv⟩
      · cases hv
      · exact hv w' (again.trans hd)
    | failed e hd =>
      have failed := hd
      rw [run, again] at hd
      refine iff_of_false (broken (assigned.of_failed hd)) fun h => h (abandoned (.inr fun u hd => ?_))
      rw [failed] at hd
      cases hd

theorem typed_of_again (hw : w.Typed) (h : (declare s name type value modifiers).run.Leads w w')
    (hb : (Run.findBinding s name false).run w = .done (some (.held t name)) w)
    (hx : (w.scope t).vars.get? name = some x) (ht : x.type = type) (hu : type ≠ .untyped)
    (hn : x.value = none → modifiers.has "final") : w'.Typed := by
  have again := Run.run_setTypedVariable_again value modifiers hb hx ht hu
  have fits : w.fits { x with modifiers } := by
    have := hw.fits_of_get? hx
    unfold World.fits at this ⊢
    split
    · next hv => simp [Variable.isFinal, hn hv]
    · next v hv =>
      have hv : x.value = some v := hv
      simpa only [hv] using this
  have put : (w.setVars t fun vars => vars.put name { x with modifiers }).Typed := hw.put fits
  refine Comp.Meets.of_leads (x := (declare s name type value modifiers).run) (P := World.Typed) ?_ h
  unfold Comp.Meets
  rw [run, again]
  cases value with
  | none => exact put
  | some v => exact Run.typed_assignVariable t name v true put

end Again

theorem typed_iff {c : StorageCall} (h : c.run.Leads w w') (hw : w.Typed) (hc : ¬c.Retypes w) :
    w'.Typed ↔ ¬c.Abandons w := by
  cases c with
  | assign s name value strict outwards =>
    exact iff_of_true ((Run.typed_setVariable s value strict outwards hw fun hn hi => hc ⟨hn, hi⟩).of_leads h) id
  | assignInBlock s name value =>
    exact iff_of_true ((Run.typed_bindIn s value false false hw fun hn hi => hc ⟨hn, hi⟩).of_leads h) id
  | remove s name => exact iff_of_true ((Run.typed_unsetVariable s name hw).of_leads h) id
  | declare s name type value modifiers =>
    by_cases found : ∃ t x, (Run.findBinding s name false).run w = .done (some (.held t name)) w ∧
        (w.scope t).vars.get? name = some x ∧ x.type = type ∧ type ≠ .untyped
    · obtain ⟨t, x, hb, hx, ht, hu⟩ := found
      by_cases waits : x.value = none ∧ modifiers.has "final" = false
      · exact typed_iff_of_waiting hw h hb hx ht hu waits.1 waits.2
      · refine iff_of_true (typed_of_again hw h hb hx ht hu fun hn => ?_) ?_
        · exact Bool.not_eq_false _ ▸ fun hf => waits ⟨hn, hf⟩
        · rintro ⟨t', x', hb', hx', -, -, hn, hf, -⟩
          cases hb.symm.trans hb'
          cases hx.symm.trans hx'
          exact waits ⟨hn, hf⟩
    · refine iff_of_true ((Run.typed_setTypedVariable_new value modifiers hw fun t x hb hx ht => ?_).of_leads h) ?_
      · exact Decidable.byContradiction fun hu => found ⟨t, x, hb, hx, ht, hu⟩
      · rintro ⟨t, x, hb, hx, ht, hu, -⟩
        exact found ⟨t, x, hb, hx, ht, hu⟩

end StorageCall

/-- One world leads to another by calls, of which none retypes an array or abandons a variable. -/
inductive StorageCalls : World → World → Prop
  | nil (w : World) : StorageCalls w w
  | cons {w w' w'' : World} (c : StorageCall) (h : c.run.Leads w w') (hr : ¬c.Retypes w) (ha : ¬c.Abandons w)
      (rest : StorageCalls w' w'') : StorageCalls w w''

theorem StorageCalls.typed {w w' : World} (h : StorageCalls w w') (hw : w.Typed) : w'.Typed := by
  induction h with
  | nil w => exact hw
  | cons c h hr ha _ ih => exact ih ((StorageCall.typed_iff h hw hr).mpr ha)

namespace Evaluator

theorem meets_convertReturned {m : Method} (result : Ending) (value : Value)
    (hm : m.returnType ≠ .prim .void) (σ : EvalState) :
    (convertReturned m result value).Meets σ (fun v σ' => σ'.world.conforms v m.returnType) fun _ _ => True := by
  unfold convertReturned
  split
  · next h => exact absurd h hm
  · next h => rw [h]; rfl
  · exact Eval.meets_located (Eval.meets_lift.mpr (Run.meets_cast value m.returnType .assignment σ.world))

theorem meets_runBody (ev : Evaluator) {m : Method} (args : List Value) (caller : Node)
    (hm : m.returnType ≠ .prim .void) (σ : EvalState) :
    (ev.runBody m args caller).Meets σ (fun v σ' => σ'.world.conforms v m.returnType) fun _ _ => True := by
  unfold runBody
  simp only [Comp.meets_bind]
  refine Comp.meets_of_forall (fun s σ => ?_) fun _ _ => trivial
  refine Comp.meets_of_forall (fun r σ => ?_) fun _ _ => trivial
  obtain ⟨result, stack⟩ := r
  exact Comp.meets_of_forall (fun value σ => meets_convertReturned result value hm σ) fun _ _ => trivial

end Evaluator

def World.bare : World where
  scopes := #[{ name := "global", registry := some 0 }]
  registries := #[{}]

/-- From a world whose variables all hold what they should, calls lead to others of this kind,
whether they fail or not. Of those that retype no array, exactly the ones do not that abandon a
variable. What a method returns conforms to its declared type. -/
theorem storage_conforms {w w' : World} (hw : w.Typed) :
    (StorageCalls w w' → w'.Typed) ∧
    (∀ c : StorageCall, c.run.Leads w w' → ¬c.Retypes w → (w'.Typed ↔ ¬c.Abandons w)) ∧
    ∀ (n : Nat) (m : Method) (args : List Value) (caller : Node) (σ σ' : EvalState) (v : Value),
      m.member = none → m.returnType ≠ .prim .void → (Evaluator.ofFuel n).invoke m args caller σ = .done v σ' →
      σ'.world.conforms v m.returnType := by
  refine ⟨fun h => h.typed hw, fun _ h hr => StorageCall.typed_iff h hw hr, ?_⟩
  intro n m args caller σ σ' v hm ht hv
  rw [Evaluator.invoke, hm] at hv
  exact (Evaluator.meets_runBody _ args caller ht σ).of_done hv

/-- An assignment to a typed variable that fails, and a method that returns an integer as a long
one. -/
theorem storage_conforms_converting :
    let declared : StorageCall := .declare 0 "x" (.prim .byte) none {}
    let assigned : StorageCall := .assign 0 "x" (.ofInt 300) false true
    let m : Method := { name := "f", home := 0, returnType := .prim .long
                        body := .blockOf [.return {} (.literal {} (.ofInt 5))] }
    (∃ w w', declared.run.Leads .bare w ∧ assigned.run.Leads w w' ∧ (assigned.run w).isFailed ∧ StorageCalls .bare w' ∧
        w'.Typed) ∧
      ∃ v σ', (Evaluator.ofFuel 5).invoke m [] .absent ⟨.bare, .own ⟨[0]⟩⟩ = .done v σ' ∧
        σ'.world.conforms v (.prim .long) := by
  intro declared assigned m
  have bare : World.bare.Typed := by decide +kernel
  constructor
  · have run : ((declared.run .bare).state?.bind fun w =>
        (assigned.run w).state?.map fun w' => (decide w.Typed, (assigned.run w).isFailed)) = some (true, true) := by
      decide +kernel
    obtain ⟨w, hw, run⟩ := Option.bind_eq_some_iff.mp run
    obtain ⟨w', hw', run⟩ := Option.map_eq_some_iff.mp run
    simp only [Prod.mk.injEq, decide_eq_true_eq] at run
    have first := Comp.leads_of_state? hw
    have second := Comp.leads_of_state? hw'
    have kept := ((storage_conforms bare).2.1 declared first id).mp run.1
    have calls : StorageCalls .bare w' :=
      .cons declared first id kept (.cons assigned second (fun h => absurd h.1 (by decide)) id (.nil w'))
    exact ⟨w, w', first, second, run.2, calls, (storage_conforms bare).1 calls⟩
  · have returned : ((Evaluator.ofFuel 5).invoke m [] .absent ⟨.bare, .own ⟨[0]⟩⟩).isDone := by decide +kernel
    obtain ⟨v, σ', hv⟩ := Outcome.exists_of_isDone returned
    exact ⟨v, σ', hv, (@storage_conforms .bare .bare bare).2.2 5 m [] .absent _ σ' v rfl nofun hv⟩

/-- A variable is abandoned by two declarations in a scope without imports: `final int x`, and `int
x`. -/
theorem declaring_again_can_abandon :
    ∃ (c : StorageCall) (w w' : World), StorageCalls .bare w ∧ c.run.Leads w w' ∧ ¬c.Retypes w ∧ ¬w'.Typed := by
  let declared : StorageCall := .declare 0 "x" (.prim .int) none ⟨["final"]⟩
  let again : StorageCall := .declare 0 "x" (.prim .int) none {}
  have run : ((declared.run .bare).state?.bind fun w =>
      (again.run w).state?.map fun w' => (decide w.Typed, decide w'.Typed)) = some (true, false) := by
    decide +kernel
  obtain ⟨w, hw, run⟩ := Option.bind_eq_some_iff.mp run
  obtain ⟨w', hw', typed⟩ := Option.map_eq_some_iff.mp run
  simp only [Prod.mk.injEq, decide_eq_true_eq, decide_eq_false_iff_not] at typed
  have first := Comp.leads_of_state? hw
  have bare : World.bare.Typed := by decide +kernel
  refine ⟨again, w, w', ?_, Comp.leads_of_state? hw', id, typed.2⟩
  exact .cons declared first id ((StorageCall.typed_iff first bare id).mp typed.1) (.nil w)

end ScriptCore
