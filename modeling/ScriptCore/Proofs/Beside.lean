import ScriptCore.Proofs.Lasting
import ScriptCore.Proofs.Meets
import ScriptCore.Scope.Variable

namespace ScriptCore

namespace World

variable {w w' w'' : World}

/-- The change from one world to another leaves settings, registries and memories alone, and the
scopes but for their proxies. -/
structure Beside (w w' : World) : Prop where
  settings : w'.settings = w.settings
  registries : w'.registries = w.registries
  memories : w'.memories = w.memories
  size : w'.scopes.size = w.scopes.size
  scope : ∀ s, ∃ proxies, w'.scope s = { w.scope s with proxies }

namespace Beside

theorem of_eq (hs : w'.scopes = w.scopes) (hc : w'.settings = w.settings)
    (hr : w'.registries = w.registries) (hm : w'.memories = w.memories) : w.Beside w' where
  settings := hc
  registries := hr
  memories := hm
  size := congrArg Array.size hs
  scope s := ⟨(w.scope s).proxies, by rw [World.scope, hs]; rfl⟩

theorem refl (w : World) : w.Beside w := .of_eq rfl rfl rfl rfl

theorem trans (h : w.Beside w') (k : w'.Beside w'') : w.Beside w'' where
  settings := k.settings.trans h.settings
  registries := k.registries.trans h.registries
  memories := k.memories.trans h.memories
  size := k.size.trans h.size
  scope s := by
    obtain ⟨p, hp⟩ := h.scope s
    obtain ⟨q, hq⟩ := k.scope s
    exact ⟨q, by rw [hq, hp]⟩

end Beside

/-- The change from one world to another touches no object that was there. -/
structure Spares (w w' : World) : Prop where
  count : w.objects.size ≤ w'.objects.size
  kept : ∀ i < w.objects.size, w'.obj i = w.obj i

/-- The change from one world to another happens beside the scopes and touches no object that was
there. An array that is made is empty and holds a list of its own, the object right before it. -/
structure Adds (w w' : World) : Prop extends w.Beside w', w.Spares w' where
  empty : ∀ i c e, w.objects.size ≤ i → (w'.obj i).payload = .array c e →
    ∃ k, i = k + 1 ∧ e = .object k ∧ w.objects.size ≤ k ∧ (w'.obj k).payload = .list []

theorem obj_of_size_le {i : ObjectId} (outside : w.objects.size ≤ i) : w.obj i = default := by
  rw [obj, Array.getElem?_eq_none outside]
  rfl

theorem obj_push (w : World) (o : Obj) (i : ObjectId) :
    ({ w with objects := w.objects.push o } : World).obj i = if i = w.objects.size then o else w.obj i := by
  simp only [obj, Array.getElem?_push]
  split <;> rfl

namespace Spares

theorem of_eq (ho : w'.objects = w.objects) : w.Spares w' where
  count := Nat.le_of_eq (congrArg Array.size ho).symm
  kept i _ := by rw [obj, ho]; rfl

theorem trans (h : w.Spares w') (k : w'.Spares w'') : w.Spares w'' where
  count := Nat.le_trans h.count k.count
  kept i hi := (k.kept i (Nat.lt_of_lt_of_le hi h.count)).trans (h.kept i hi)

theorem push (w : World) (o : Obj) : w.Spares { w with objects := w.objects.push o } where
  count := by simp
  kept i hi := by rw [obj_push, if_neg (Nat.ne_of_lt hi)]

end Spares

namespace Adds

theorem of_eq (hs : w'.scopes = w.scopes) (hc : w'.settings = w.settings) (hr : w'.registries = w.registries)
    (hm : w'.memories = w.memories) (ho : w'.objects = w.objects) : w.Adds w' where
  toBeside := .of_eq hs hc hr hm
  toSpares := .of_eq ho
  empty i c e new array := by
    rw [obj_of_size_le (ho ▸ new)] at array
    cases array

theorem refl (w : World) : w.Adds w := .of_eq rfl rfl rfl rfl rfl

theorem trans (h : w.Adds w') (k : w'.Adds w'') : w.Adds w'' where
  toBeside := h.toBeside.trans k.toBeside
  toSpares := h.toSpares.trans k.toSpares
  empty i c e new array := by
    by_cases early : i < w'.objects.size
    · rw [k.kept i early] at array
      obtain ⟨j, rfl, he, hj, list⟩ := h.empty i c e new array
      exact ⟨j, rfl, he, hj, by rw [k.kept j (Nat.lt_of_succ_lt early)]; exact list⟩
    · obtain ⟨j, rfl, he, hj, list⟩ := k.empty i c e (Nat.le_of_not_lt early) array
      exact ⟨j, rfl, he, Nat.le_trans h.count hj, list⟩

theorem push (w : World) {o : Obj} (plain : o.payload.component? = none) :
    w.Adds { w with objects := w.objects.push o } where
  toBeside := .of_eq rfl rfl rfl rfl
  toSpares := .push w o
  empty i c e new array := by
    rw [obj_push] at array
    split at array
    · rw [array] at plain
      cases plain
    · rw [obj_of_size_le new] at array
      cases array

theorem modifyObj {i : ObjectId} (h : w.Adds w') (new : w.objects.size ≤ i) {f : Obj → Obj}
    (same : ∀ o, (f o).payload = o.payload) : w.Adds (w'.modifyObj i f) := by
  have payload (j : ObjectId) : ((w'.modifyObj i f).obj j).payload = (w'.obj j).payload := by
    rw [obj_modifyObj]
    split
    · exact same _
    · rfl
  refine ⟨h.toBeside.trans (.of_eq rfl rfl rfl rfl), ⟨?_, fun j hj => ?_⟩, fun j c e newer array => ?_⟩
  · simpa [World.modifyObj] using h.count
  · have apart : i ≠ j := Nat.ne_of_gt (Nat.lt_of_lt_of_le hj new)
    rw [obj_modifyObj, if_neg fun same => apart same.1, h.kept j hj]
  · rw [payload] at array
    obtain ⟨k, hk, he, inside, list⟩ := h.empty j c e newer array
    exact ⟨k, hk, he, inside, by rw [payload]; exact list⟩

end Adds

end World

namespace Run

variable {α β : Type} {t : Tier}

def OnlyAdds (x : Action .nothing t α) : Prop :=
  ∀ w, x.run.Meets w (fun _ w' => w.Adds w') fun _ w' => w.Adds w'

namespace OnlyAdds

theorem pure (a : α) : OnlyAdds (Pure.pure a : Action .nothing t α) := World.Adds.refl

theorem bind {x : Action .nothing t α} {f : α → Action .nothing t β} (hx : OnlyAdds x)
    (hf : ∀ a, OnlyAdds (f a)) : OnlyAdds (x >>= f) := by
  intro w
  simp only [Action.meets_bind]
  refine (hx w).imp fun a w' h => ?_
  exact (hf a w').mono (fun _ _ k => h.trans k) fun _ _ k => h.trans k

theorem read (f : World → α) : OnlyAdds (Run.read f) := World.Adds.refl

theorem lift {t' : Tier} [Tier.Within t t'] {x : Action .nothing t α} (hx : OnlyAdds x) :
    OnlyAdds (liftM x : Action .nothing t' α) := hx

theorem fail {e : Failure} (he : t.Makes e) : OnlyAdds (Action.fail e he : Action .nothing t α) := World.Adds.refl

theorem alloc {o : Obj} (plain : o.payload.component? = none) : OnlyAdds (Run.alloc o) := fun w => .push w plain

theorem newTuple (items : List Value) : OnlyAdds (Run.newTuple items) := by
  unfold Run.newTuple
  split
  · exact .pure _
  · exact .alloc rfl

theorem raise (e : HostError) : OnlyAdds (Run.raise e : Plain α) :=
  .bind (.newTuple _) fun _ w => .push w rfl

theorem ofHost (x : Except HostError α) : OnlyAdds (Run.ofHost x) := by
  cases x with
  | ok a => exact .pure a
  | error e => exact .raise e

theorem throwInto (e : HostError) (c : Cause) : OnlyAdds (Run.throwInto e c : Faulty α) :=
  .bind (.lift (.bind (.newTuple _) fun _ => .alloc rfl)) fun _ => .fail _

theorem newList (items : List Value) : OnlyAdds (Run.newList items) := alloc rfl

theorem addMember (members : Table Value) (name : String) (g : Generated) : OnlyAdds (Run.addMember members name g) :=
  .bind (fun _ => .of_eq rfl rfl rfl rfl rfl) fun _ => .pure _

theorem addAnswers (members : Table Value) (answered : List (String × Option Value)) :
    OnlyAdds (Run.addAnswers members answered) := by
  induction answered generalizing members with
  | nil => exact .pure _
  | cons e rest ih =>
    unfold Run.addAnswers
    split
    · exact ih members
    · exact .bind (.addMember _ _ _) fun more => ih more

theorem make (spec : ClassSpec) : OnlyAdds spec.make := by
  refine .bind (.read _) fun built => ?_
  split
  · exact .pure _
  · exact .bind (fun _ => .of_eq rfl rfl rfl rfl rfl) fun _ => .pure _

theorem proxyClass (classes : List ClassRef) : OnlyAdds (Run.proxyClass classes) := by
  refine .bind (.read _) fun known => ?_
  split
  · exact .pure _
  · refine .bind (.read _) fun _ => .bind (.addAnswers _ _) fun _ => .bind (.addMember _ _ _) fun _ =>
      .bind (.addMember _ _ _) fun _ => .bind (.addMember _ _ _) fun _ => .bind (.addMember _ _ _) fun _ =>
      .bind (.read _) fun _ => .bind (.make _) fun made => ?_
    split
    · exact .raise _
    · exact .pure _

variable (c : ClassRef)

theorem checkInstance (given : Nat) : OnlyAdds (Run.checkInstance c given) := by
  refine .bind (.read _) fun w => ?_
  split
  · split <;> exact .raise _
  · exact .raise _
  · refine .bind (.read _) fun _ => ?_
    split
    · exact .pure _
    · exact .raise _

theorem emptyPayload_array (w : World) :
    (Run.emptyPayload c).run.Meets w (fun p w' => ∀ d e, p = .array d e →
      ∃ k, e = .object k ∧ w'.objects.size = k + 1 ∧ w.objects.size ≤ k ∧ (w'.obj k).payload =
        .list []) fun _ _ => True := by
  unfold Run.emptyPayload
  simp only [Action.meets_bind, meets_read]
  repeat' split
  all_goals rintro d e ⟨⟩
  -- All kinds of objects but arrays are gone.
  exact ⟨w.objects.size, rfl, Array.size_push _, Nat.le_refl _, congrArg Obj.payload ((w.obj_push _ _).trans (if_pos rfl))⟩

theorem emptyPayload : OnlyAdds (Run.emptyPayload c) := by
  refine .bind (.read _) fun chain => ?_
  dsimp only
  repeat' split
  all_goals first
    | exact .pure _
    | exact .bind (.newTuple _) fun _ => .pure _
    | exact .bind (.newList _) fun _ => .pure _

/-- An instance that is made was not there before. If it is an array, the list that it holds has
just been made for it. -/
theorem newInstance (w : World) :
    (Run.newInstance c).run.Meets w
    (fun v w' => w.Adds w' ∧ ∀ i, v = .object i → w.objects.size ≤ i) fun _ w' => w.Adds w' := by
  unfold Run.newInstance
  simp only [Action.meets_bind, meets_alloc]
  refine (checkInstance c 0 w).imp fun _ w₁ first => ?_
  refine ((emptyPayload c w₁).and (emptyPayload_array c w₁)).mono ?_ fun _ _ h => first.trans h.1
  rintro p w₂ ⟨second, list⟩
  have before : w.objects.size ≤ w₂.objects.size := Nat.le_trans first.count second.count
  have added := first.trans second
  refine ⟨⟨added.toBeside.trans (.of_eq rfl rfl rfl rfl), added.toSpares.trans (.push w₂ _), fun i d e new array => ?_⟩, ?_⟩
  · have older (k : ObjectId) (hk : k < w₂.objects.size) (list : (w₂.obj k).payload = .list []) :
        (({ w₂ with objects := w₂.objects.push { cls := c, payload := p } } : World).obj k).payload = .list [] := by
      rw [World.obj_push, if_neg (Nat.ne_of_lt hk)]
      exact list
    rw [World.obj_push] at array
    split at array
    · next last =>
      obtain ⟨k, he, size, hk, list⟩ := list d e array
      exact ⟨k, last.trans size, he, Nat.le_trans first.count hk, older k (size ▸ Nat.lt_succ_self k) list⟩
    · obtain ⟨k, rfl, he, hk, list⟩ := added.empty i d e new array
      have inside : k + 1 < w₂.objects.size := by
        refine Nat.lt_of_not_le fun outside => ?_
        rw [World.obj_of_size_le outside] at array
        cases array
      exact ⟨k, rfl, he, hk, older k (Nat.lt_of_succ_lt inside) list⟩
  · rintro i ⟨⟩
    exact before

theorem proxyOf (s : ScopeId) (classes : List ClassRef) : OnlyAdds (Run.proxyOf s classes) := by
  unfold Run.proxyOf
  split
  · exact .raise _
  refine .bind (.proxyClass classes) fun c => .bind (.read _) fun known => ?_
  split
  · exact .pure _
  · intro w
    simp only [Action.meets_bind]
    refine (newInstance c w).imp ?_
    rintro v w₁ ⟨added, new⟩
    split
    · next i =>
      simp only [Action.meets_bind, meets_updateObj, meets_updateScope]
      have targeted : w.Adds (w₁.modifyObj i fun o => { o with target := some s }) :=
        added.modifyObj (new i rfl) fun _ => rfl
      refine targeted.trans ⟨⟨rfl, rfl, rfl, by simp [World.modifyScope], fun t => ?_⟩,
        .of_eq rfl, (World.Adds.refl _).empty⟩
      rw [World.scope_modifyScope]
      split
      · exact ⟨_, rfl⟩
      · exact ⟨_, rfl⟩
    · exact added

theorem castFailure (target source : Ty) (mode : Conversion) :
    OnlyAdds (Run.castFailure target source mode : Faulty α) := by
  refine .bind (.lift (.read _)) fun _ => .bind (.lift (.read _)) fun _ => ?_
  cases mode with
  | assignment => exact .fail _
  | cast => exact .throwInto _ _

theorem castPrimitive (p : Primitive) (mark : Nat) (t : PrimType) (mode : Conversion) :
    OnlyAdds (Run.castPrimitive p mark t mode) := by
  unfold Run.castPrimitive
  split
  · exact .pure _
  split
  · exact .castFailure _ _ _
  split
  · exact .castFailure _ _ _
  · exact .bind (.lift (.ofHost _)) fun _ => .pure _

theorem castToPrimitive (v : Value) (t : PrimType) (mode : Conversion) : OnlyAdds (Run.castToPrimitive v t mode) := by
  refine .bind (.lift (.read _)) fun w => ?_
  split
  · exact .castPrimitive _ _ _ _
  · split
    · exact .castFailure _ _ _
    · exact .bind (.lift (.read _)) fun _ => .castFailure _ _ _
  · exact .bind (.lift (.read _)) fun _ => .castFailure _ _ _

theorem castReference (v : Value) (t : Ty) (mode : Conversion) : OnlyAdds (Run.castReference v t mode) := by
  refine .bind (.lift (.read _)) fun source => ?_
  cases t with
  | untyped => exact .pure _
  | prim p => exact .castToPrimitive _ _ _
  | array c =>
    refine .bind (.lift (.read _)) fun fits => ?_
    split
    · exact .pure _
    · exact .castFailure _ _ _
  | cls c =>
    refine .bind (.lift (.read _)) fun fits => ?_
    split
    · exact .pure _
    · refine .bind (.lift (.read _)) fun interface => ?_
      split
      · split
        · exact .lift (.proxyOf _ _)
        · exact .castFailure _ _ _
      · exact .castFailure _ _ _
  | module m => exact .fail _

theorem cast (v : Value) (t : Ty) (mode : Conversion) : OnlyAdds (Run.cast v t mode) := by
  unfold Run.cast
  split
  · exact .pure _
  · exact .fail _
  · exact .fail _
  · exact .castToPrimitive _ _ _
  · exact .pure _
  · refine .bind (.lift (.read _)) fun fits => ?_
    split
    · exact .pure _
    · exact .castFailure _ _ _
  · exact .castReference _ _ _

theorem declaredValue (type : Ty) (value : Option Value) (modifiers : Modifiers) :
    OnlyAdds (Run.declaredValue type value modifiers) := by
  unfold Run.declaredValue
  split
  · exact .pure _
  · exact .bind (.cast _ _ _) fun _ => .pure _

end OnlyAdds

variable {w : World} {s : ScopeId} {name : String} {x : Variable}

theorem run_assignVariable (held : (w.scope s).vars.get? name = some x) (value : Value)
    (declaring : Bool) :
    (assignVariable s name value declaring).run w =
      if x.isFinal && x.value.isSome then .failed (.fault (.finalReassigned name) none) w
      else ((cast value x.type (if declaring then .cast else .assignment)).run >>= fun stored =>
        (putVariable s name { x with value := some stored }).run) w := by
  have found : (read fun w => (w.scope s).vars.get? name).run w = .done (some x) w := by
    rw [← held]
    rfl
  unfold assignVariable
  refine (Comp.bind_of_done found).trans ?_
  dsimp only
  split <;> rfl

theorem assignVariable_beside (s : ScopeId) (name : String) (value : Value) (declaring : Bool)
    (w : World) :
    (assignVariable s name value declaring).run.Meets w
      (fun _ w' => w' = w ∨ ∃ x stored v, (w.scope s).vars.get? name = some x ∧ (x.isFinal && x.value.isSome) = false ∧
        w.Beside v ∧ w' = v.setVars s fun vars => vars.put name { x with value := some stored })
      fun _ w' => w.Beside w' := by
  cases held : (w.scope s).vars.get? name with
  | none =>
    have found : (read fun w => (w.scope s).vars.get? name).run w = .done none w := by
      rw [← held]
      rfl
    have nothing : (assignVariable s name value declaring).run w = .done () w := Comp.bind_of_done found
    unfold Comp.Meets
    rw [nothing]
    exact .inl rfl
  | some x =>
    unfold Comp.Meets
    rw [run_assignVariable held]
    by_cases free : x.isFinal && x.value.isSome
    · rw [if_pos free]
      exact .refl w
    · rw [if_neg free]
      refine Comp.meets_bind.mpr ((OnlyAdds.cast value x.type _ w).mono (fun stored v added => ?_) fun _ _ h => h.toBeside)
      exact .inr ⟨x, stored, v, rfl, Bool.eq_false_iff.mpr free, added.toBeside, rfl⟩

end Run

end ScriptCore
