import ScriptCore.Proofs.InstanceMethods
import Mathlib.Logic.Relation

namespace ScriptCore

namespace World

def rescoped (w : World) (scopes : Array Scope) (memories : Array Memory) : World := { w with scopes, memories }

section Rescoped

variable (w : World) (a : Array Scope) (m : Array Memory)

theorem distance_rescoped (source target : Ty) : (w.rescoped a m).distance source target = w.distance source target := by
  induction target generalizing source with
  | array d ih =>
    cases source with
    | array c => cases c <;> cases d <;> first | rfl | exact ih _
    | prim p => cases p <;> rfl
    | _ => rfl
  | prim q =>
    cases source with
    | prim p => cases p <;> cases q <;> rfl
    | _ => cases q <;> rfl
  | untyped => cases source <;> rfl
  | _ =>
    cases source with
    | prim p => cases p <;> rfl
    | _ => rfl

theorem totalDistance_rescoped (sources targets : List Ty) :
    (w.rescoped a m).totalDistance sources targets = w.totalDistance sources targets := by
  induction sources generalizing targets with
  | nil => cases targets <;> rfl
  | cons s rest ih =>
    cases targets with
    | nil => rfl
    | cons t more => simp only [totalDistance, ih, distance_rescoped]

theorem mostSpecific_rescoped (types : List Ty) (candidates : List (List Ty)) :
    (w.rescoped a m).mostSpecific types candidates = w.mostSpecific types candidates := by
  have more (l k : List Ty) : (w.rescoped a m).moreSpecific l k = w.moreSpecific l k := by
    simp only [moreSpecific, isAssignable, distance_rescoped]
  have names : (w.rescoped a m).typeName = w.typeName := by
    funext t
    induction t with
    | array c ih => exact congrArg (· ++ "[]") ih
    | _ => rfl
  simp only [mostSpecific, scored, totalDistance_rescoped, more, names]

end Rescoped

variable {w w' : World} {s t : ScopeId} {name : String} {types : List Ty} {own : List ScopeId}

theorem mostSpecific_ne_none {candidates : List (List Ty)} {signature : List Ty} (mem : signature ∈ candidates)
    (takes : w.signatureAssignable types signature) : w.mostSpecific types candidates ≠ .ok none := by
  obtain ⟨i, there⟩ := List.mem_iff_getElem?.mp mem
  have near : nearest (w.scored types candidates) ≠ [] := by
    rw [← isSome_totalDistance] at takes
    obtain ⟨d, total⟩ := Option.isSome_iff_exists.mp takes
    have scored : (d, i) ∈ w.scored types candidates :=
      List.mem_filterMap.mpr ⟨(signature, i), by simpa [List.mem_zipIdx_iff_getElem?] using there, by simp [total]⟩
    unfold nearest
    cases least : ((w.scored types candidates).map Prod.fst).min? with
    | none =>
      rw [List.min?_eq_none_iff, List.map_eq_nil_iff] at least
      rw [least] at scored
      cases scored
    | some best =>
      obtain ⟨e, he, first⟩ := List.mem_map.mp (List.min?_mem least)
      exact List.ne_nil_of_mem (List.mem_map_of_mem (List.mem_filter.mpr ⟨he, by simp [first]⟩))
  unfold mostSpecific
  split
  · next none => exact absurd none near
  · simp
  · dsimp only
    split <;> simp

def declared (w : World) (name : String) (types : List Ty) (s : ScopeId) : Except Cause (Option Method) :=
  (w.mostSpecific types ((w.overloads s name).map Method.paramTypes)).map fun best => best.bind ((w.overloads s name)[·]?)

def firstDeclared (w : World) (name : String) (types : List Ty) : List ScopeId → Except Cause (Option Method)
  | [] => .ok none
  | s :: rest =>
    match w.declared name types s with
    | .ok none => w.firstDeclared name types rest
    | r => r

theorem declared_ne_none {m : Method} (mem : m ∈ w.overloads s name)
    (takes : w.signatureAssignable types m.paramTypes) : w.declared name types s ≠ .ok none := by
  have chosen := mostSpecific_ne_none (List.mem_map_of_mem mem) takes
  unfold declared
  cases best : w.mostSpecific types ((w.overloads s name).map Method.paramTypes) with
  | error c => simp [Except.map]
  | ok r =>
    cases r with
    | none => exact absurd best chosen
    | some i =>
      obtain ⟨signature, there, -⟩ := signatureAssignable_of_mostSpecific best
      rw [List.getElem?_map, Option.map_eq_some_iff] at there
      obtain ⟨x, there, -⟩ := there
      simp [Except.map, there]

theorem mem_of_declared {m : Method} (h : w.declared name types s = .ok (some m)) : m ∈ w.overloads s name := by
  unfold declared at h
  cases best : w.mostSpecific types ((w.overloads s name).map Method.paramTypes) with
  | error c => rw [best] at h; cases h
  | ok r =>
    rw [best] at h
    cases r with
    | none => cases h
    | some i =>
      simp only [Except.map, Option.bind_some, Except.ok.injEq] at h
      exact List.mem_of_getElem? h

theorem firstDeclared_ne_none (h : w.declared name types s ≠ .ok none) (rest : List ScopeId) :
    w.firstDeclared name types (s :: rest) ≠ .ok none := by
  unfold firstDeclared
  split
  · next none => exact absurd none h
  · exact h

theorem mem_of_firstDeclared {m : Method} (h : w.firstDeclared name types own = .ok (some m)) :
    ∃ s ∈ own, m ∈ w.overloads s name := by
  induction own with
  | nil => cases h
  | cons s rest ih =>
    unfold firstDeclared at h
    split at h
    · obtain ⟨t, ht, hm⟩ := ih h
      exact ⟨t, List.mem_cons_of_mem s ht, hm⟩
    · exact ⟨s, List.mem_cons_self, mem_of_declared h⟩

/-- Outside of the given scopes, functions may have been declared and removed. Nothing else has
changed but what scopes remember. -/
structure FunctionsElsewhere (own : List ScopeId) (w w' : World) : Prop where
  rest : w' = w.rescoped w'.scopes w'.memories
  scope : ∀ t, ∃ methods, w'.scope t = { w.scope t with methods }
  kept : ∀ t ∈ own, w'.scope t = w.scope t

namespace FunctionsElsewhere

theorem refl (own : List ScopeId) (w : World) : FunctionsElsewhere own w w := ⟨rfl, fun _ => ⟨_, rfl⟩, fun _ _ => rfl⟩

theorem trans {w'' : World} (h : FunctionsElsewhere own w w') (k : FunctionsElsewhere own w' w'') :
    FunctionsElsewhere own w w'' where
  rest := by rw [k.rest, h.rest]; rfl
  scope t := by
    obtain ⟨methods, first⟩ := h.scope t
    obtain ⟨methods', second⟩ := k.scope t
    exact ⟨methods', by rw [second, first]⟩
  kept t ht := (k.kept t ht).trans (h.kept t ht)

theorem modifyScope {f : Table (List Method) → Table (List Method)} (apart : t ∉ own) (w : World) :
    FunctionsElsewhere own w ((w.modifyScope t fun x => { x with methods := f x.methods }).forgetting t) where
  rest := rfl
  scope u := by
    rw [scope_forgetting, scope_modifyScope]
    split
    · exact ⟨_, rfl⟩
    · exact ⟨_, rfl⟩
  kept u hu := by
    rw [scope_forgetting, scope_modifyScope, if_neg]
    rintro ⟨rfl, -⟩
    exact apart hu

variable (h : FunctionsElsewhere own w w')
include h

theorem ancestry (s : ScopeId) : w'.ancestry s = w.ancestry s := by
  refine ancestry_eq fun t _ => ?_
  obtain ⟨methods, same⟩ := h.scope t
  rw [same]

theorem typesOf (vs : List Value) : w'.typesOf vs = w.typesOf vs := by
  refine List.map_congr_left fun v _ => ?_
  cases v with
  | scope s =>
    -- The type of a scope tells whether it is a block.
    obtain ⟨methods, same⟩ := h.scope s
    have type (u : World) : u.typeOf (.scope s) = .cls (.core (if (u.scope s).isBlock then .blockScope else .scope)) := rfl
    rw [type, type, same]
  | _ => rw [h.rest]; rfl

theorem classId? (v : Value) : w'.classId? v = w.classId? v := by
  rw [h.rest]
  rfl

theorem instanceScope? (v : Value) : w'.instanceScope? v = w.instanceScope? v := by
  rw [h.rest]
  rfl

theorem firstDeclared (name : String) (types : List Ty) :
    w'.firstDeclared name types own = w.firstDeclared name types own := by
  have declared {s : ScopeId} (hs : s ∈ own) : w'.declared name types s = w.declared name types s := by
    have same : w'.overloads s name = w.overloads s name := by rw [overloads, overloads, h.kept s hs]
    rw [World.declared, World.declared, same, h.rest, mostSpecific_rescoped]
  suffices part : ∀ l ⊆ own, w'.firstDeclared name types l = w.firstDeclared name types l from part
    own (List.Subset.refl own)
  intro l inside
  induction l with
  | nil => rfl
  | cons s rest ih =>
    obtain ⟨first, others⟩ := List.cons_subset.mp inside
    rw [World.firstDeclared, World.firstDeclared, declared first, ih others]

end FunctionsElsewhere

/-- A function is declared in a scope, or the functions of a name are removed from one. The scope is
none of the given ones. -/
inductive FunctionChange (own : List ScopeId) (w w' : World) : Prop
  | declare (s : ScopeId) (m : Method) (apart : w.enclosing s ∉ own) (h : Run.setMethod s m w = .done () w')
  | remove (s : ScopeId) (name : String) (apart : s ∉ own) (h : (Run.unsetMethod s name).run w = .done () w')

theorem FunctionChange.elsewhere (h : FunctionChange own w w') : FunctionsElsewhere own w w' := by
  cases h with
  | declare s m apart h =>
    rw [Run.run_setMethod] at h
    cases h
    exact .modifyScope (f := fun ms => ms.put m.name (Run.addOverload ((ms.get? m.name).getD []) m)) apart w
  | remove s name apart h =>
    unfold Run.unsetMethod at h
    rw [Action.run_bind_of_done (x := Run.read _) rfl] at h
    split at h
    · cases h
      exact .modifyScope (f := fun ms => ms.erase name) apart w
    · cases h
      exact .refl own w

abbrev FunctionChanges (own : List ScopeId) : World → World → Prop := Relation.ReflTransGen (FunctionChange own)

theorem FunctionChanges.elsewhere (h : FunctionChanges own w w') : FunctionsElsewhere own w w' := by
  induction h with
  | refl => exact .refl own w
  | tail _ step ih => exact ih.trans step.elsewhere

end World

namespace Run

variable {w : World} {s outside : ScopeId} {name : String} {types : List Ty} {own : List ScopeId}

theorem run_declaredMethod (s : ScopeId) (name : String) (types : List Ty) (w : World) :
    (declaredMethod s name types).run w = (ofCause (w.declared name types s)).run w := by
  unfold declaredMethod World.declared World.overloads
  rw [Action.run_liftM_bind_of_done (x := read _) rfl, Action.run_liftM_bind_of_done (x := read _) rfl]
  dsimp only
  cases w.mostSpecific types ((((w.scope s).methods.get? name).getD []).map Method.paramTypes) with
  | error c => rfl
  | ok best => cases best <;> rfl

/-- The search from a scope goes through what the nearest scopes declare, if their imports offer
nothing, before it goes on outside of them. -/
theorem findMethod_of_own (split : w.ancestry s = own ++ w.ancestry outside)
    (imports : ∀ u ∈ own, (importedMethod u name types).run w = .done none w) :
    (w.firstDeclared name types own ≠ .ok none →
      (findMethod s name types).run w = (ofCause (w.firstDeclared name types own)).run w) ∧
    (w.firstDeclared name types own = .ok none →
      (findMethod s name types).run w = (findMethod outside name types).run w) := by
  change (_ → (firstSome (w.ancestry s) fun u => localMethod u name types).run w = _) ∧
    (_ → (firstSome (w.ancestry s) fun u => localMethod u name types).run w = _)
  rw [split]
  clear split
  induction own with
  | nil => exact ⟨fun h => absurd rfl h, fun _ => rfl⟩
  | cons u rest ih =>
    have first : (localMethod u name types).run w = (ofCause (w.declared name types u)).run w := by
      rw [localMethod_of_imported (imports u List.mem_cons_self), run_declaredMethod]
    rw [List.cons_append, firstSome, World.firstDeclared]
    cases here : w.declared name types u with
    | error c =>
      rw [here] at first
      exact ⟨fun _ => Comp.bind_of_failed first, fun h => by cases h⟩
    | ok r =>
      rw [here] at first
      rw [Action.run_bind_of_done first]
      cases r with
      | none => exact ih fun v hv => imports v (List.mem_cons_of_mem u hv)
      | some m => exact ⟨fun _ => rfl, fun h => by cases h⟩

end Run

namespace Evaluator

variable {ev : Evaluator} {σ : EvalState} {s inst : ScopeId} {i : ObjectId} {name : String} {args :
  List Value} {caller : Node}

theorem invokeOn_of_host {w : World} {member : Member} (object : σ.world.classId? (.object i) = none)
    (scope : σ.world.instanceScope? (.object i) = some inst)
    (unknown : (Run.findMethod inst name (σ.world.typesOf args)).run σ.world = .done none σ.world)
    (found : (ev.resolveMember (σ.world.bridge s) (.object i) name).run σ.world = .done (some member) w) :
    ev.invokeOn s (.object i) name args caller σ =
      ev.callHost (σ.world.bridge s) (.object i) name args caller { σ with world := w } := by
  unfold invokeOn
  refine Eval.get_bind.trans ?_
  simp only [object, scope]
  unfold invokeOnInstance
  refine Eval.get_bind.trans ?_
  refine (Eval.lift_bind_of_done unknown).trans ?_
  exact Eval.lift_bind_of_done found

theorem invokeOn_of_failed {e : Failure} (object : σ.world.classId? (.object i) = none)
    (scope : σ.world.instanceScope? (.object i) = some inst)
    (failed : (Run.findMethod inst name (σ.world.typesOf args)).run σ.world = .failed e σ.world) :
    ev.invokeOn s (.object i) name args caller σ = .failed e σ := by
  unfold invokeOn
  refine Eval.get_bind.trans ?_
  simp only [object, scope]
  unfold invokeOnInstance
  refine Eval.get_bind.trans ?_
  refine Comp.bind_of_failed ?_
  change Eval.lift _ σ = _
  rw [Eval.lift, failed]

def Call.Runs (ev : Evaluator) (call : Call) (σ τ : EvalState) (s : ScopeId) (m : Method) (given : List Value) : Prop :=
  call.eval ev σ =
    if hidden τ.world s m then .failed (refusal m call.node τ) τ else call.located (ev.invoke m given call.node) τ

theorem Call.runs_of_comesUpon {call : Call} {τ : EvalState} {c : Callee} {m : Method}
    {values given : List Value} (prepared : call.prepare ev σ = .done (values, s, c) τ)
    (h : c.ComesUpon τ.world s call.path call.method values m given) : call.Runs ev σ τ s m given := by
  have made : c.call ev s call.path call.method values call.node τ = _ := Callee.call_of_comesUpon h
  unfold Call.Runs
  rw [call.eval_of_prepare prepared]
  split
  · next hid =>
    rw [if_pos hid] at made
    exact call.located_of_report made
  · next hid =>
    rw [if_neg hid] at made
    exact Call.located_congr _ made

/-- A call on an instance runs the method that the nearest scopes declare, and fails if that is
ambiguous. If they declare none, it runs the function that is found outside of them, and turns to
the host side if there is none either. -/
theorem Call.eval_on_instance {call : Call} {w : World} {r : StackRef} {values : List Value} {own : List ScopeId}
    {outside : ScopeId} (prepared : call.prepare ev σ = .done (values, s, .value (.object i)) ⟨w, r⟩)
    (object : w.classId? (.object i) = none) (scope : w.instanceScope? (.object i) = some inst)
    (split : w.ancestry inst = own ++ w.ancestry outside)
    (imports : ∀ u ∈ own, ∀ args ∈ [values, values.map hideNone],
      (Run.importedMethod u call.method (w.typesOf args)).run w = .done none w) :
    let found (args : List Value) := w.firstDeclared call.method (w.typesOf args) own
    (∀ m' m, found values = .ok (some m') → found (values.map hideNone) = .ok (some m) →
      call.Runs ev σ ⟨w, r⟩ s m (values.map hideNone)) ∧
    (∀ cause, found values = .error cause → call.eval ev σ = call.located (Comp.fail (.fault cause none)) ⟨w, r⟩) ∧
    (found values = .ok none →
      (∀ m' m, found (values.map hideNone) = .ok none → Finds w outside call.method values m' →
        Finds w outside call.method (values.map hideNone) m → call.Runs ev σ ⟨w, r⟩ s m (values.map hideNone)) ∧
      ∀ v member, (Run.findMethod outside call.method (w.typesOf values)).run w = .done none w →
        (ev.resolveMember (w.bridge s) (.object i) call.method).run w = .done (some member) v →
        call.eval ev σ = call.located (ev.callHost (w.bridge s) (.object i) call.method values call.node) ⟨v, r⟩) := by
  intro found
  have search {args : List Value} (h : args ∈ [values, values.map hideNone]) :
      let sought := (Run.findMethod inst call.method (w.typesOf args)).run w
      (found args ≠ .ok none → sought = (Run.ofCause (found args)).run w) ∧
        (found args = .ok none → sought = (Run.findMethod outside call.method (w.typesOf args)).run w) :=
    Run.findMethod_of_own split fun u hu => imports u hu args h
  have given : values ∈ [values, values.map hideNone] := List.mem_cons_self
  have shown : values.map hideNone ∈ [values, values.map hideNone] := List.mem_cons_of_mem _ List.mem_cons_self
  have runs {m' m : Method} (some : Finds w inst call.method values m')
      (found : Finds w inst call.method (values.map hideNone) m) : call.Runs ev σ ⟨w, r⟩ s m (values.map hideNone) :=
    Call.runs_of_comesUpon prepared ⟨.instance object scope ⟨m', some⟩ found, rfl⟩
  have finds {args : List Value} {m : Method} (ha : args ∈ [values, values.map hideNone])
      (h : found args = .ok (some m)) : Finds w inst call.method args m := by
    refine ⟨w, ((search ha).1 ?_).trans ?_⟩
    · rw [h]
      simp
    · rw [h]
      rfl
  refine ⟨fun m' m first second => runs (finds given first) (finds shown second), fun cause ambiguous => ?_,
    fun none => ⟨?_, ?_⟩⟩
  · rw [call.eval_of_prepare prepared]
    refine call.located_congr (invokeOn_of_failed object scope (((search given).1 ?_).trans ?_))
    · rw [ambiguous]
      simp
    · rw [ambiguous]
      rfl
  · rintro m' m none' ⟨v, first⟩ ⟨v', second⟩
    exact runs ⟨v, ((search given).2 none).trans first⟩ ⟨v', ((search shown).2 none').trans second⟩
  · intro v member unknown found
    rw [call.eval_of_prepare prepared]
    exact call.located_congr (invokeOn_of_host object scope (((search given).2 none).trans unknown) found)

/-- If one of the scripted classes of its hierarchy declares a method for the arguments, a call on
an instance finds a method of the hierarchy, or the choice is ambiguous. Whatever is declared and
removed in other scopes, the call runs the method that the scope of the instance or else the static
scope of its class declares for the arguments, as long as their imports offer none. Only if they
declare none, it runs the function that the scopes around the class have, and only if those have
none, what the host side of the instance has. -/
theorem scripted_methods_precede_enclosing_functions (ev : Evaluator) {w₀ w₁ w : World} {c : ClassRef} {part : ScriptPart}
    {i : ObjectId} {inst outside : ScopeId} (script : w₀.inheritedScript? c = some part)
    (known : part.staticScope < w₀.scopes.size) (setUp : SetUp c i inst w₀ w₁) (since : w₁.Anchored w)
    (methods : (w.scope inst).methods = (w₁.scope inst).methods) (around : w.StandsIn part.staticScope outside)
    (object : w.classId? (.object i) = none) (scope : w.instanceScope? (.object i) = some inst) :
    (∀ args caller σ σ', ev.setUpScripted (.object i) c args caller σ = .done () σ' →
      ∃ inst w', SetUp c i inst σ.world w') ∧
    (∀ e ∈ methodParts (scriptedChain w₀ c), ∃ m, BuiltFor inst e.1 e.2 m ∧
      ∀ types, w.signatureAssignable types m.paramTypes →
        w.firstDeclared m.name types [inst, part.staticScope] ≠ .ok none) ∧
    (∀ name types m, w.firstDeclared name types [inst, part.staticScope] = .ok (some m) →
      (∃ e ∈ methodParts (scriptedChain w₀ c), BuiltFor inst e.1 e.2 m) ∨ m ∈ w.overloads part.staticScope name) ∧
    ∀ w', World.FunctionChanges [inst, part.staticScope] w w' → ∀ (call : Call) (σ : EvalState) (r : StackRef) (s : ScopeId)
      (values : List Value), call.prepare ev σ = .done (values, s, .value (.object i)) ⟨w', r⟩ →
      (∀ u ∈ [inst, part.staticScope], ∀ args ∈ [values, values.map hideNone],
        (Run.importedMethod u call.method (w'.typesOf args)).run w' = .done none w') →
      let own (args : List Value) := w.firstDeclared call.method (w.typesOf args) [inst, part.staticScope]
      (∀ m' m, own values = .ok (some m') → own (values.map hideNone) = .ok (some m) →
        call.Runs ev σ ⟨w', r⟩ s m (values.map hideNone)) ∧
      (∀ cause, own values = .error cause → call.eval ev σ = call.located (Comp.fail (.fault cause none)) ⟨w', r⟩) ∧
      (own values = .ok none →
        (∀ m' m, own (values.map hideNone) = .ok none → Finds w' outside call.method values m' →
          Finds w' outside call.method (values.map hideNone) m → call.Runs ev σ ⟨w', r⟩ s m (values.map hideNone)) ∧
        ∀ v member, (Run.findMethod outside call.method (w'.typesOf values)).run w' = .done none w' →
          (ev.resolveMember (w'.bridge s) (.object i) call.method).run w' = .done (some member) v →
          call.eval ev σ =
            call.located (ev.callHost (w'.bridge s) (.object i) call.method values call.node) ⟨v, r⟩) := by
  have equipped := setUp.equipped script known
  have same (name : String) : w.overloads inst name = w₁.overloads inst name := by
    rw [World.overloads, World.overloads, methods]
  refine ⟨fun args caller σ σ' done => (setUp_of_setUpScripted ev c i args caller σ).of_done done, fun e he => ?_,
    fun name types m found => ?_, fun w' changes call σ r s values prepared imports => ?_⟩
  · obtain ⟨m, built, m', held, signature⟩ := equipped.provided e he
    rw [← same] at held
    refine ⟨m, built, fun types takes => World.firstDeclared_ne_none (World.declared_ne_none held ?_) _⟩
    rw [signature]
    exact takes
  · obtain ⟨u, hu, held⟩ := World.mem_of_firstDeclared found
    simp only [List.mem_cons, List.not_mem_nil, or_false] at hu
    rcases hu with rfl | rfl
    · rw [same] at held
      exact .inl (equipped.member name m held)
    · exact .inr held
  · intro own
    have elsewhere := changes.elsewhere
    have placed : w.StandsIn inst part.staticScope := equipped.placed.of_anchored since
    have split : w'.ancestry inst = [inst, part.staticScope] ++ w'.ancestry outside := by
      rw [elsewhere.ancestry, elsewhere.ancestry, World.ancestry_of_parent placed.parent placed.older,
        World.ancestry_of_parent around.parent around.older]
      rfl
    -- What the two nearest scopes declare is the same before and after the changes.
    have kept (args : List Value) :
        w'.firstDeclared call.method (w'.typesOf args) [inst, part.staticScope] = own args := by
      rw [elsewhere.firstDeclared, elsewhere.typesOf]
    have calls := Call.eval_on_instance prepared ((elsewhere.classId? _).trans object)
      ((elsewhere.instanceScope? _).trans scope) split imports
    simp only [kept] at calls
    exact calls

def givingMethod (name : String) (n : Int) : Node :=
  .methodDecl {} name [] (.blockOf [.return {} (.literal {} (.ofInt n))]) .absent []

/-- A class that declares a method `rank`, and an object of it that is not set up yet. The static
scope of the class is 1. -/
def rankedWorld : World where
  scopes := #[{ registry := some 0 }, { parent := some 0, isClass := true }]
  objects := #[{ cls := .made 0 }]
  classes := #[{ (default : MadeClass) with
    name := "A", script := some { (default : ScriptPart) with staticScope := 1, body :=
      { methods := [givingMethod "rank" 1] } } }]
  registries := #[{}]

theorem scripted_methods_precede_enclosing_functions_ranked :
    let rank : Method := { name := "rank", home := 0, body := .blockOf [.return {} (.literal {} (.ofInt 2))] }
    let call : Call := .suffix {} "rank" [] (.object 0)
    ∃ w w' m, SetUp (.made 0) 0 2 rankedWorld w ∧ Run.setMethod 0 rank w = .done () w' ∧
      BuiltFor 2 (.made 0) (givingMethod "rank" 1) m ∧
      call.Runs (ofFuel 9) ⟨w', .own ⟨[0]⟩⟩ ⟨w', .own ⟨[0]⟩⟩ 0 m [] := by
  intro rank call
  let own : Method := { name := "rank", home := 2, body := .blockOf [.return {} (.literal {} (.ofInt 1))]
                        node := givingMethod "rank" 1, declaringClass := some (.made 0) }
  obtain ⟨w₁, w₂, τ, w', made, linked, equipped, declared, inside, parent, object, scope, found, outermost, plain⟩ :
      ∃ w₁ w₂ τ w', (instanceScope (.made 0)).run rankedWorld = .done 2 w₁ ∧
      (Run.setClassInstance 2 (.object 0)).run w₁ = .done () w₂ ∧
      (forEach (scriptedChain rankedWorld (.made 0)) fun e => declareMethods 0 2 e.1 e.2.body)
        ⟨w₂.modifyObj 0 fun o => { o with scope := some 2 }, .own ⟨[2, 0]⟩⟩ = .done () τ ∧
      Run.setMethod 0 rank τ.world = .done () w' ∧ 1 < τ.world.scopes.size ∧ (τ.world.scope 1).parent = some 0 ∧
      τ.world.classId? (.object 0) = none ∧ τ.world.instanceScope? (.object 0) = some 2 ∧
      τ.world.firstDeclared "rank" [] [2, 1] = .ok (some own) ∧ τ.world.enclosing 0 = 0 ∧
      ∀ u ∈ [2, 1], w'.importTargets u = [] :=
    ⟨_, _, _, _, rfl, rfl, rfl, rfl, by decide, rfl, rfl, rfl, rfl, by decide, by simp; exact ⟨rfl, rfl⟩⟩
  have setUp : SetUp (.made 0) 0 2 rankedWorld τ.world := .mk made linked rfl equipped
  have script : rankedWorld.inheritedScript? (.made 0) =
      some { (default : ScriptPart) with staticScope := 1, body := { methods := [givingMethod "rank" 1] } } := rfl
  have built : BuiltFor 2 (.made 0) (givingMethod "rank" 1) own := ⟨_, ⟨rankedWorld, .own ⟨[0]⟩⟩, _, rfl, rfl⟩
  have change : World.FunctionChanges [2, 1] τ.world w' := .single (.declare 0 rank (by simp [outermost]) declared)
  have calls := (scripted_methods_precede_enclosing_functions (ofFuel 9) script (by decide) setUp (.refl _) rfl
    ⟨inside, parent, by decide⟩ object scope).2.2.2 w' change call ⟨w', .own ⟨[0]⟩⟩ (.own ⟨[0]⟩) 0 [] rfl fun u hu args _ =>
      Run.importedMethod_plain (plain u hu) _
  exact ⟨τ.world, w', own, setUp, declared, built, calls.1 own own found found⟩

def givesText (text : String) : Outcome EvalState Ending → Bool
  | .done (.value (.str t _)) _ => decide (t = text)
  | _ => false

theorem givesText_iff {text : String} {o : Outcome EvalState Ending} :
    givesText text o ↔ ∃ mark σ, o = .done (.value (.str text mark)) σ := by
  constructor
  · intro h
    unfold givesText at h
    split at h
    · next t mark σ =>
      cases of_decide_eq_true h
      exact ⟨mark, σ, rfl⟩
    · cases h
  · rintro ⟨mark, σ, rfl⟩
    exact decide_eq_true rfl

/-- A class extends a host class that has a method `label`. A call on an instance runs that method,
until a function of the same name is declared outside of the class; then it runs the function. -/
theorem enclosing_function_hides_host_method :
    let text (t : String) : Node := .literal {} (.ofString t)
    let init : Node := .methodDecl {} "C" [] (.blockOf [.invocation {} "super" [text "q"]]) .absent []
    let c : Node := .classDecl {} "C" (.blockOf [init]) (.typeRef {} (.named "hostlib.Base") 0) [] [] false
    let make : Node := .assignment {} (.name {} "o") .plain (.allocation {} (.typeRef {} (.named "C") 0) [] .absent)
    let label : Node := .methodDecl {} "label" [] (.blockOf [.return {} (text "mine")]) .absent []
    let asked : Node := .invocation {} "o.label" []
    ∃ r σ r' σ', (ofFuel 9).exec (.exprList {} [c, make]) ⟨.bare, .own ⟨[0]⟩⟩ = .done r σ ∧
      (ofFuel 9).exec label σ = .done r' σ' ∧
      (∃ mark τ, (ofFuel 9).exec asked σ = .done (.value (.str "base:q" mark)) τ) ∧
      ∃ mark τ, (ofFuel 9).exec asked σ' = .done (.value (.str "mine" mark)) τ := by
  intro text init c make label asked
  have run : ((ofFuel 9).exec (.exprList {} [c, make]) ⟨.bare, .own ⟨[0]⟩⟩).doneWith fun _ σ =>
      ((ofFuel 9).exec label σ).doneWith fun _ σ' =>
        givesText "base:q" ((ofFuel 9).exec asked σ) && givesText "mine" ((ofFuel 9).exec asked σ') := by decide +kernel
  obtain ⟨r, σ, made, run⟩ := Outcome.exists_of_doneWith run
  obtain ⟨r', σ', declared, run⟩ := Outcome.exists_of_doneWith run
  rw [Bool.and_eq_true] at run
  exact ⟨r, σ, r', σ', made, declared, givesText_iff.mp run.1, givesText_iff.mp run.2⟩

end Evaluator

end ScriptCore
