import ScriptCore.Change
import ScriptCore.Host.Assignability

namespace ScriptCore.World

/-- Classes keep what they extend and hold, and values what they are instances of. What was not
there yet counts as an object of no particular class, or as a class that extends nothing else. -/
structure Lasting (w w' : World) : Prop where
  block {s : ScopeId} : (w.scope s).isBlock → (w'.scope s).isBlock
  cls (i : ObjectId) : (w'.obj i).cls = (w.obj i).cls ∨ (w.obj i).cls = .core .object
  component {i : ObjectId} {t : Ty} :
    (w.obj i).payload.component? = some t → (w'.obj i).payload.component? = some t
  ancestors (n : Nat) : (w.made n).ancestors ⊆ (w'.made n).ancestors
  metaclass (n : Nat) : (w'.made n).metaclass = (w.made n).metaclass ∨ (w.made n).metaclass = .core .object
  abstracts {n : Nat} : !(w.made n).abstracts.isEmpty → !(w'.made n).abstracts.isEmpty
  members {n : Nat} {name : String} : (w.made n).members.contains name → (w'.made n).members.contains name
  assigned (o : AttributeOwner) (name : String) : (w.assigned? o name).isSome → (w'.assigned? o name).isSome

namespace Calm

variable {w w' : World}

theorem scope (h : w.Calm w') (s : ScopeId) : (w.scope s).Calm (w'.scope s) ∨ (w.scope s = {} ∧ (w'.scope s).Fresh) := by
  unfold World.scope
  cases hs : w'.scopes[s]? with
  | none =>
    have hn : w.scopes[s]? = none := by
      have := h.scopes.size
      simp only [Array.getElem?_eq_none_iff] at hs ⊢
      omega
    exact .inl (by simpa [hn] using Scope.Calm.refl _)
  | some y =>
    rcases h.scopes.entry s y hs with ⟨x, hx, r⟩ | ⟨hn, hy⟩
    · exact .inl (by simpa [hx] using r)
    · exact .inr ⟨by simp [hn], by simpa using hy⟩

theorem vars (h : w.Calm w') (s : ScopeId) : (w'.scope s).vars = (w.scope s).vars := by
  rcases h.scope s with r | ⟨hx, hy⟩
  · exact r.vars
  · rw [hx, hy.vars]

theorem obj (h : w.Calm w') (i : ObjectId) : (w.obj i).Calm (w'.obj i) ∨ w.obj i = default := by
  unfold World.obj
  cases hi : w.objects[i]? with
  | none => exact .inr rfl
  | some x =>
    obtain ⟨y, hy, r⟩ := h.objects.kept hi
    exact .inl (by simpa [hy] using r)

theorem made (h : w.Calm w') (n : Nat) : (w.made n).Calm (w'.made n) ∨ w.made n = default := by
  unfold World.made
  cases hn : w.classes[n]? with
  | none => exact .inr rfl
  | some x =>
    obtain ⟨y, hy, r⟩ := h.classes.kept hn
    exact .inl (by simpa [hy] using r)

theorem lasting (h : w.Calm w') : w.Lasting w' where
  block {s} hs := by
    rcases h.scope s with r | ⟨hx, -⟩
    · exact r.frame.isBlock.trans hs
    · rw [hx] at hs; cases hs
  cls i := (h.obj i).imp (fun r => r.cls) fun hd => by rw [hd]; rfl
  component {i t} ht := by
    rcases h.obj i with r | hd
    · rw [r.component, ht]
    · rw [hd] at ht; cases ht
  ancestors n := by
    rcases h.made n with r | hd
    · rw [r.ancestors]
      exact List.Subset.refl _
    · rw [hd]
      exact List.cons_subset.mpr ⟨(w'.made n).object_mem, List.nil_subset _⟩
  metaclass n := (h.made n).imp (fun r => r.metaclass) fun hd => by rw [hd]; rfl
  abstracts {n} ha := by
    rcases h.made n with r | hd
    · rwa [r.abstracts]
    · rw [hd] at ha; cases ha
  members {n name} hm := by
    rcases h.made n with r | hd
    · exact r.members name hm
    · rw [hd] at hm; cases hm
  assigned o name := by
    simpa only [assigned?, Option.isSome_map, List.find?_isSome, List.any_eq_true] using h.assigned o name

end Calm

theorem scope_modifyScope (w : World) (s t : ScopeId) (f : Scope → Scope) :
    (w.modifyScope s f).scope t = if s = t ∧ s < w.scopes.size then f (w.scope t) else w.scope t := by
  simp only [World.scope, modifyScope, Array.getElem?_modify]
  by_cases hs : s = t
  · subst hs
    by_cases hl : s < w.scopes.size <;> simp [hl]
  · simp [hs]

theorem scope_setVars (w : World) (s t : ScopeId) (f : Table Variable → Table Variable) :
    (w.setVars s f).scope t =
      if s = t ∧ s < w.scopes.size then { w.scope t with vars := f (w.scope t).vars } else w.scope t :=
  w.scope_modifyScope s t _

theorem lasting_setVars (w : World) (s : ScopeId) (f : Table Variable → Table Variable) : w.Lasting (w.setVars s f) where
  block {t} ht := by
    rw [scope_setVars]
    split <;> exact ht
  cls _ := .inl rfl
  component h := h
  ancestors _ := List.Subset.refl _
  metaclass _ := .inl rfl
  abstracts h := h
  members h := h
  assigned _ _ h := h

theorem obj_modifyObj (w : World) (i j : ObjectId) (f : Obj → Obj) :
    (w.modifyObj i f).obj j = if i = j ∧ i < w.objects.size then f (w.obj j) else w.obj j := by
  simp only [World.obj, modifyObj, Array.getElem?_modify]
  by_cases hi : i = j
  · subst hi
    by_cases hl : i < w.objects.size <;> simp [hl]
  · simp [hi]

theorem lasting_setPayload {w : World} {i : ObjectId} {p : Payload}
    (h : ∀ t, (w.obj i).payload.component? = some t → p.component? = some t) :
    w.Lasting (w.modifyObj i fun o => { o with payload := p }) where
  block ht := ht
  cls j := by
    rw [obj_modifyObj]
    split <;> exact .inl rfl
  component {j t} ht := by
    rw [obj_modifyObj]
    split
    · next hj => exact h t (hj.1 ▸ ht)
    · exact ht
  ancestors _ := List.Subset.refl _
  metaclass _ := .inl rfl
  abstracts h := h
  members h := h
  assigned _ _ h := h

theorem isSubclass_self (w : World) (c : ClassRef) : w.isSubclass c c := by
  simp [isSubclass, w.self_mem_mro c]

theorem isSubclass_object (w : World) (c : ClassRef) : w.isSubclass c (.core .object) := by
  simp [isSubclass, w.object_mem_mro c]

theorem eq_object_of_isSubclass {w : World} {d : ClassRef} (h : w.isSubclass (.core .object) d) : d = .core .object := by
  have hm : w.mro (.core .object) = [.core .object] := rfl
  have hi : w.iterates (.core .object) = false := rfl
  simpa [isSubclass, hm, hi] using h

theorem isSubclass_blockScope {w : World} {d : ClassRef} (h : w.isSubclass (.core .scope) d) :
    w.isSubclass (.core .blockScope) d := by
  have hs : w.mro (.core .scope) = [.core .scope, .core .object] := rfl
  have hb : w.mro (.core .blockScope) = [.core .blockScope, .core .scope, .core .object] := rfl
  simp only [isSubclass, hs, hb, List.contains_cons, List.any_cons] at h ⊢
  grind

namespace Lasting

variable {w w' w'' : World}

theorem refl (w : World) : w.Lasting w :=
  ⟨id, fun _ => .inl rfl, id, fun _ => List.Subset.refl _, fun _ => .inl rfl, id, id, fun _ _ => id⟩

theorem trans (h : w.Lasting w') (k : w'.Lasting w'') : w.Lasting w'' where
  block := k.block ∘ h.block
  cls i := by
    rcases h.cls i with hi | hi
    · rw [← hi]
      exact k.cls i
    · exact .inr hi
  component := k.component ∘ h.component
  ancestors n := List.Subset.trans (h.ancestors n) (k.ancestors n)
  metaclass n := by
    rcases h.metaclass n with hn | hn
    · rw [← hn]
      exact k.metaclass n
    · exact .inr hn
  abstracts := k.abstracts ∘ h.abstracts
  members := k.members ∘ h.members
  assigned o name := k.assigned o name ∘ h.assigned o name

variable (h : w.Lasting w')
include h

theorem mro_subset (c : ClassRef) : w.mro c ⊆ w'.mro c := by
  cases c with
  | core k => exact List.Subset.refl _
  | library k => exact List.Subset.refl _
  | made n => exact List.cons_subset_cons _ (h.ancestors n)

theorem ownMember {c : ClassRef} {name : String} (hm : (w.ownMember c name).isSome) : (w'.ownMember c name).isSome := by
  cases c with
  | core k => exact hm
  | library k =>
    simp only [World.ownMember] at hm ⊢
    split at hm
    · next v hv =>
      obtain ⟨x, hx⟩ := Option.isSome_iff_exists.mp (h.assigned (.cls k) name (by rw [hv]; rfl))
      rw [hx]
      rfl
    · split
      · rfl
      · exact hm
  | made n => exact h.members hm

theorem iterates {c : ClassRef} (hc : w.iterates c) : w'.iterates c := by
  cases c with
  | core k => exact hc
  | library k => exact h.ownMember hc
  | made n => exact h.ownMember hc

theorem isSubclass {c d : ClassRef} (hc : w.isSubclass c d) : w'.isSubclass c d := by
  simp only [World.isSubclass, Bool.or_eq_true, List.contains_iff_mem, Bool.and_eq_true, List.any_eq_true] at hc ⊢
  rcases hc with hd | ⟨hd, k, hk, hi⟩
  · exact .inl (h.mro_subset c hd)
  · exact .inr ⟨hd, k, h.mro_subset c hk, h.iterates hi⟩

theorem classOf (v : Value) : w'.classOf v = w.classOf v ∨ w.classOf v = .core .object ∨
      (w.classOf v = .core .scope ∧ w'.classOf v = .core .blockScope) := by
  cases v with
  | object i => exact (h.cls i).imp_right .inl
  | cls c =>
    cases c with
    | core k => cases k <;> exact .inl rfl
    | library k => cases k <;> exact .inl rfl
    | made n => exact (h.metaclass n).imp_right .inl
  | scope s =>
    simp only [World.classOf]
    cases hs : (w.scope s).isBlock with
    | true => exact .inl (by simp [h.block hs])
    | false =>
      cases (w'.scope s).isBlock with
      | true => exact .inr (.inr ⟨by simp, by simp⟩)
      | false => exact .inl rfl
  | _ => exact .inl rfl

theorem isInstance {v : Value} {c : ClassRef} (hv : w.isInstance v c) : w'.isInstance v c := by
  unfold World.isInstance at hv ⊢
  rcases h.classOf v with same | object | ⟨scope, block⟩
  · rw [same]
    exact h.isSubclass hv
  · rw [object] at hv
    rw [eq_object_of_isSubclass hv]
    exact w'.isSubclass_object _
  · rw [scope] at hv
    rw [block]
    exact isSubclass_blockScope (h.isSubclass hv)

theorem isInterface {c : ClassRef} (hc : w.isInterface c) : w'.isInterface c := by
  cases c with
  | core k => cases k <;> exact hc
  | library k => exact hc
  | made n => exact h.abstracts hc

theorem boxAssignable {p : PrimType} {t : Ty} (hp : w.boxAssignable p t) : w'.boxAssignable p t := by
  cases t with
  | cls c =>
    have mono (b : CoreClass) := h.isSubclass (c := .core b) (d := c)
    simp only [World.boxAssignable] at hp ⊢
    grind
  | _ => exact hp

end Lasting

section Assignability

variable {w w' : World}

theorem isSome_classDistance (w : World) (c d : ClassRef) : (w.classDistance c d).isSome = w.isSubclass c d := by
  unfold classDistance
  split
  · next h => subst h; exact (w.isSubclass_self c).symm
  · split
    · next h => subst h; exact (w.isSubclass_object c).symm
    · split <;> simp_all

theorem isAssignable_cls_cls (w : World) (c d : ClassRef) :
    w.isAssignable (.cls c) (.cls d) = (w.isSubclass c d || decide (c = .core .closure) && w.isInterface d) := by
  have near : (w.referenceDistance (.cls c) (.cls d)).isSome = w.isSubclass c d := by
    unfold referenceDistance
    split
    · next h => cases h; exact (w.isSubclass_self c).symm
    · exact w.isSome_classDistance c d
  unfold isAssignable distance
  split
  · next n hn =>
    rw [← near, hn]
    rfl
  · next hn =>
    rw [← near, hn]
    by_cases hc : c = .core .closure
    · subst hc
      cases hi : w.isInterface d <;> simp [hi]
    · simp [hc]

theorem isAssignable_array_cls (w : World) (c : Ty) (d : ClassRef) :
    w.isAssignable (.array c) (.cls d) = w.isSubclass (.core .array) d := by
  unfold isAssignable distance
  split
  · next h => subst h; exact (w.isSubclass_object _).symm
  · exact w.isSome_classDistance _ d

theorem isAssignable_prim_cls {p : PrimType} (hp : p ≠ .void) (w : World) (d : ClassRef) :
    w.isAssignable (.prim p) (.cls d) = w.boxAssignable p (.cls d) := by
  cases p with
  | void => exact absurd rfl hp
  | _ =>
    unfold isAssignable distance
    dsimp only
    cases w.boxAssignable _ (.cls d) <;> simp

/-- Arrays of primitives fit only those of the same type; all others go by their component types. -/
theorem isAssignable_array_array (w : World) (c d : Ty) :
    w.isAssignable (.array c) (.array d) =
      match c, d with
      | .prim p, .prim q => decide (p = q)
      | .prim _, _ | _, .prim _ => false
      | c, d => w.isAssignable c d := by
  cases c with
  | prim p =>
    cases d with
    | prim q => by_cases h : p = q <;> simp [isAssignable, distance, h]
    | _ => rfl
  | _ => cases d <;> rfl

theorem isAssignable_cls_prim (w : World) (c : ClassRef) {p : PrimType} (hp : p ≠ .void) :
    w.isAssignable (.cls c) (.prim p) = (w.unboxDistance (.cls c) p).isSome := by
  cases p with
  | void => exact absurd rfl hp
  | _ => rfl

theorem Lasting.isSome_unboxDistance (h : w.Lasting w') {c : ClassRef} {p : PrimType}
    (hc : (w.unboxDistance (.cls c) p).isSome) : (w'.unboxDistance (.cls c) p).isSome := by
  have int := h.isSubclass (c := c) (d := .core .int)
  have float := h.isSubclass (c := c) (d := .core .float)
  have wide : (PrimType.int.widening? .double).isSome := rfl
  simp only [unboxDistance] at hc ⊢
  grind

theorem Lasting.isAssignable (h : w.Lasting w') {source target : Ty}
    (ha : w.isAssignable source target) : w'.isAssignable source target := by
  induction target generalizing source with
  | untyped => cases source <;> rfl
  | prim q =>
    cases source with
    | cls c =>
      by_cases hq : q = .void
      · subst hq; cases ha
      · rw [isAssignable_cls_prim _ _ hq] at ha ⊢
        exact h.isSome_unboxDistance ha
    | prim p => cases p <;> cases q <;> exact ha
    | _ => cases q <;> exact ha
  | array d ih =>
    cases source with
    | array c =>
      rw [isAssignable_array_array] at ha ⊢
      split at ha
      · exact ha
      · cases ha
      · cases ha
      · exact ih ha
    | prim p => cases p <;> exact ha
    | _ => exact ha
  | cls d =>
    cases source with
    | cls c =>
      simp only [isAssignable_cls_cls, Bool.or_eq_true, Bool.and_eq_true] at ha ⊢
      exact ha.imp h.isSubclass (And.imp_right h.isInterface)
    | array c =>
      rw [isAssignable_array_cls] at ha ⊢
      exact h.isSubclass ha
    | prim p =>
      by_cases hp : p = .void
      · subst hp; cases ha
      · rw [isAssignable_prim_cls hp] at ha ⊢
        exact h.boxAssignable ha
    | _ => exact ha
  | module m =>
    cases source with
    | prim p => cases p <;> exact ha
    | cls c => simp [World.isAssignable, distance, referenceDistance] at ha
    | _ => exact ha

end Assignability

end ScriptCore.World
