import ScriptCore.Proofs.FieldEffects
import ScriptCore.Proofs.TypedStorage

namespace ScriptCore

/-- A relation between worlds that allows for what happens beside the scopes. -/
class WorldRelation (R : World → World → Prop) : Prop where
  refl (w : World) : R w w
  trans {w w' w'' : World} : R w w' → R w' w'' → R w w''
  beside {w w' : World} : w.Beside w' → R w w'

/-- A relation between worlds that allows for all that an assignment to a variable or to a field may
do, but for changing the package of a scope. -/
class StoreRelation (R : World → World → Prop) : Prop extends WorldRelation R where
  objects {w w' : World} : w'.scopes = w.scopes → w'.registries = w.registries → w'.memories = w.memories → R w w'
  description (w : World) (u : ScopeId) {f : Scope → Scope} :
    (∀ y, ∃ n c m, f y = { y with name := n, isClass := c, isMethod := m }) → R w (w.modifyScope u f)
  assigned (s : ScopeId) (x : String) (value : Value) (declaring : Bool) (w : World) :
    (Run.assignVariable s x value declaring).run.Meets w (fun _ w' => R w w') fun _ w' => R w w'

def AllowsPackage (R : World → World → Prop) (u : ScopeId) : Prop :=
  ∀ w p, R w (w.modifyScope u fun y => { y with package := p })

namespace Run

variable {R : World → World → Prop} {may : May} {tier : Tier} {α β : Type}

def Relates (R : World → World → Prop) (x : Action may tier α) : Prop :=
  ∀ w, x.run.Meets w (fun _ w' => R w w') fun _ w' => R w w'

namespace Relates

theorem lift {may' : May} {tier' : Tier} [May.Within may may'] [Tier.Within tier tier']
    {x : Action may tier α} (hx : Relates R x) : Relates R (liftM x : Action may' tier' α) := hx

section World

variable [WorldRelation R]

theorem pure (a : α) : Relates R (Pure.pure a : Action may tier α) := WorldRelation.refl

theorem bind {x : Action may tier α} {f : α → Action may tier β} (hx : Relates R x)
    (hf : ∀ a, Relates R (f a)) : Relates R (x >>= f) := by
  intro w
  simp only [Action.meets_bind]
  refine (hx w).imp fun a w' h => ?_
  exact (hf a w').mono (fun _ _ k => WorldRelation.trans h k) fun _ _ k => WorldRelation.trans h k

theorem read (f : World → α) : Relates R (Run.read f) := WorldRelation.refl

theorem fail {e : Failure} (he : tier.Makes e) : Relates R (Action.fail e he : Action may tier α) := WorldRelation.refl

theorem of_adds {x : Action .nothing tier α} (hx : OnlyAdds x) : Relates R x := fun w =>
  (hx w).mono (fun _ _ h => WorldRelation.beside h.toBeside) fun _ _ h => WorldRelation.beside h.toBeside

theorem raise (e : HostError) : Relates R (Run.raise e : Plain α) := of_adds (.raise e)

theorem converting {other : Tier} {x : Action may other α} {handler : World → Failure → Option (Action may tier α)}
    {rest : ∀ w e, other.Allows e → handler w e = none → tier.Allows e} (hx : Relates R x)
    (hh : ∀ w e y, handler w e = some y → Relates R y) : Relates R (Action.converting x handler rest) := by
  intro w
  refine Action.meets_converting.mpr ((hx w).mono (fun _ _ h => h) fun e v h => ?_)
  cases hy : handler v e with
  | none => exact h
  | some y =>
    exact (hh v e y hy v).mono (fun _ _ k => WorldRelation.trans h k) fun _ _ k => WorldRelation.trans h k

theorem catching {x : Action may tier α} {handler : World → Failure → Option (Action may tier α)} (hx : Relates R x)
    (hh : ∀ w e y, handler w e = some y → Relates R y) : Relates R (Action.catching x handler) :=
  converting hx hh

end World

variable [StoreRelation R]

theorem assignVariable (s : ScopeId) (x : String) (value : Value) (declaring : Bool) :
    Relates R (Run.assignVariable s x value declaring) := StoreRelation.assigned s x value declaring

theorem of_setsField {target : Value} {field : String} {x : Value} {act : Action may tier α}
    (h : SetsField target field x act)
    (package : field = "package" → ∀ u, target = .scope u → AllowsPackage R u) : Relates R act := by
  refine fun w => (h w).mono (fun _ w' set => ?_) fun _ _ h => WorldRelation.beside h.toBeside
  cases set with
  | beside h => exact WorldRelation.beside h
  | configured h run =>
    cases run
    exact WorldRelation.trans (WorldRelation.beside h) (StoreRelation.objects rfl rfl rfl)
  | described u only h => exact h ▸ StoreRelation.description w u only
  | packaged u p named scope h => exact h ▸ package named u scope w p
  | assigned t given run => exact (assignVariable t field given false w).of_done run

end Relates

variable [StoreRelation R] {w : World} {s : ScopeId} {name : String}

theorem relates_findBinding (s : ScopeId) (name : String) (outwards : Bool) (w : World) :
    (findBinding s name outwards).run.Meets w
      (fun r w' => (findBinding s name outwards).run w = .done r w ∧ w' = w ∧ ∀ b ∈ r,
      b.Found w name) fun _ w' => R w w' := by
  refine ((Comp.meets_self _ w).and ((meets_findBinding s name outwards w).and
    (OnlyAdds.findBinding s name outwards w))).mono
    ?_ fun _ _ h => WorldRelation.beside h.2.2.toBeside
  rintro r w' ⟨run, ⟨rfl, found⟩, -⟩
  exact ⟨run, rfl, found⟩

theorem relates_bindIn (value : Value) (strict outwards : Bool)
    (package : name = "package" → ∀ t u, .scope u ∈ w.importTargets t → AllowsPackage R u)
    (declared : strict = false → (findBinding s name outwards).run w = .done none w →
      (declareVariable s name .untyped (some value) {}).run.Meets w (fun _ w' => R w w') fun _ w' => R w w') :
    (bindIn s name value strict outwards).run.Meets w (fun _ w' => R w w') fun _ w' => R w w' := by
  unfold bindIn
  split
  · exact WorldRelation.refl w
  simp only [Action.meets_bind, Action.run_lift]
  refine (relates_findBinding s name outwards w).imp ?_
  rintro r _ ⟨run, rfl, found⟩
  cases r with
  | none =>
    dsimp only
    split
    · exact WorldRelation.refl _
    · next loose => exact declared (Bool.eq_false_iff.mpr loose) run
  | some b =>
    cases found b rfl with
    | held => exact (Relates.lift (Relates.assignVariable _ name _ false)) _
    | field hm => exact Relates.of_setsField (.writeField _ _ _) (fun hp u hu => package hp _ u (hu ▸ hm)) _

/-- A declaration makes a new variable, unless it comes upon a typed one. Of that it first exchanges
the modifiers. -/
theorem relates_setTypedVariable (type : Ty) (value : Option Value) (modifiers : Modifiers)
    (declared : ∀ r, (findBinding s name false).run w = .done r w →
      (∀ t x, r = some (.held t name) → (w.scope t).vars.get? name = some x → x.type = .untyped) →
      (declareVariable s name type value modifiers).run.Meets w (fun _ w' => R w w') fun _ w' => R w w')
    (again : ∀ t x, (findBinding s name false).run w = .done (some (.held t name)) w →
      (w.scope t).vars.get? name = some x → x.type = type → type ≠ .untyped →
      R w (w.setVars t fun vars => vars.put name { x with modifiers })) :
    (setTypedVariable s name type value modifiers).run.Meets w (fun _ w' => R w w') fun _ w' => R w w' := by
  refine meets_setTypedVariable (fun _ _ h => (relates_findBinding s name false w).of_failed h)
    (fun _ => WorldRelation.refl w) declared fun t x found held same typed => ?_
  have put := again t x found held same typed
  exact ⟨fun _ => put, fun v _ => (Relates.assignVariable t name v true _).mono (fun _ _ k => WorldRelation.trans put k)
    fun _ _ k => WorldRelation.trans put k⟩

end Run

end ScriptCore
