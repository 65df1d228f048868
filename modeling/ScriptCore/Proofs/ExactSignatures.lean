import ScriptCore.Proofs.DispatchTable
import ScriptCore.Proofs.OverloadOrder

namespace ScriptCore

def Ty.isDefinite : Ty → Bool
  | .untyped | .prim .void => false
  | .array (.prim _) => true
  | .array c => c.isDefinite
  | _ => true

namespace World

variable {w : World}

theorem mro_eq_cons (w : World) (c : ClassRef) : ∃ rest, w.mro c = c :: rest := by
  cases c with
  | core k => cases k <;> exact ⟨_, rfl⟩
  | library k => exact ⟨_, rfl⟩
  | made n => exact ⟨_, rfl⟩

theorem eq_of_classDistance {c d : ClassRef} (near : w.classDistance c d = some 0) : c = d := by
  obtain ⟨rest, first⟩ := w.mro_eq_cons c
  unfold classDistance at near
  split at near
  · next same => exact same
  split at near
  · simp [first] at near
  split at near
  · cases near
  · next apart _ _ => simp [first, apart] at near

theorem unboxDistance_ne_zero (w : World) (t : Ty) (p : PrimType) : w.unboxDistance t p ≠ some 0 := by
  unfold unboxDistance
  repeat' split
  all_goals simp [boxingDistance]

theorem distance_self {t : Ty} (definite : t.isDefinite) : w.distance t t = some 0 := by
  induction t with
  | untyped => cases definite
  | prim p => cases p <;> first | rfl | cases definite
  | cls c => simp [distance, referenceDistance]
  | module m => simp [distance, referenceDistance]
  | array c ih =>
    cases c with
    | prim p => simp [distance]
    | _ => exact ih definite

theorem eq_of_referenceDistance {s t : Ty} (near : w.referenceDistance s t = some 0) : t = s := by
  unfold referenceDistance at near
  split at near
  · next same => exact same.symm
  split at near
  · rw [eq_of_classDistance near]
  · cases near

/-- What is at no distance is the type itself; a proxy would be at one. -/
theorem eq_of_distance_cls {c d : ClassRef} (near : w.distance (.cls c) (.cls d) = some 0) : d = c := by
  simp only [distance] at near
  split at near
  · next reached =>
    cases near
    exact Ty.cls.inj (eq_of_referenceDistance reached)
  split at near
  · split at near <;> cases near
  · cases near

theorem eq_of_distance {s t : Ty} (near : w.distance s t = some 0) (back : w.isAssignable t s) : t = s := by
  induction t generalizing s with
  | untyped => cases s <;> cases near
  | prim q =>
    cases s with
    | prim p => cases p <;> cases q <;> first | rfl | cases near
    | cls c => cases q <;> first | cases near | exact absurd near (w.unboxDistance_ne_zero _ _)
    | _ => cases q <;> cases near
  | cls d =>
    cases s with
    | cls c => rw [eq_of_distance_cls near]
    | prim p => cases p <;> simp [distance, boxingDistance] at near
    | array c =>
      -- Arrays are objects of their class, but not the other way round.
      cases back
    | _ => cases near
  | module m =>
    cases s with
    | prim p => cases p <;> cases near
    | cls c => simp [distance, referenceDistance] at near
    | module n =>
      simp only [distance] at near
      split at near
      · next reached =>
        cases near
        exact eq_of_referenceDistance reached
      · cases near
    | _ => cases near
  | array d ih =>
    cases s with
    | prim p => cases p <;> cases near
    | array c =>
      cases c with
      | prim p =>
        cases d with
        | prim q =>
          simp only [distance] at near
          split at near
          · next same => rw [same]
          · cases near
        | _ => cases near
      | _ =>
        cases d with
        | prim q => cases near
        | _ => exact congrArg Ty.array (ih near back)
    | _ => cases near

section Lists

variable {types signature : List Ty} {candidates : List (List Ty)}

theorem totalDistance_cons_eq_zero {a p : Ty} {as ps : List Ty} (near : w.totalDistance (a :: as) (p :: ps) = some 0) :
    w.distance a p = some 0 ∧ w.totalDistance as ps = some 0 := by
  unfold totalDistance at near
  split at near
  · next d n hd hn =>
    have sum : d + n = 0 := Option.some.inj near
    rw [hd, hn, (Nat.add_eq_zero_iff.mp sum).1, (Nat.add_eq_zero_iff.mp sum).2]
    exact ⟨rfl, rfl⟩
  · cases near

variable (definite : types.all Ty.isDefinite)
include definite

theorem totalDistance_self : w.totalDistance types types = some 0 := by
  induction types with
  | nil => rfl
  | cons t rest ih =>
    simp only [List.all_cons, Bool.and_eq_true] at definite
    simp [totalDistance, distance_self definite.1, ih definite.2]

theorem moreSpecific_of_near (near : w.totalDistance types signature = some 0)
    (other : signature ≠ types) : w.moreSpecific types signature := by
  have each : (types.zip signature).all fun e => decide (e.1 ≠ .untyped) && w.isAssignable e.1 e.2 := by
    clear other
    induction types generalizing signature with
    | nil => rfl
    | cons t rest ih =>
      cases signature with
      | nil => rfl
      | cons p ps =>
        simp only [List.all_cons, Bool.and_eq_true] at definite
        obtain ⟨here, later⟩ := totalDistance_cons_eq_zero near
        have typed : t ≠ .untyped := by
          rintro rfl
          cases definite.1
        simpa [isAssignable, here, typed] using ih definite.2 later
  simp only [moreSpecific, Bool.and_eq_true, decide_eq_true_eq, List.all_eq_true, Bool.or_eq_true] at each ⊢
  exact ⟨other.symm, fun e he => .inr (each e he)⟩

theorem not_moreSpecific_of_near (near : w.totalDistance types signature = some 0) :
    ¬w.moreSpecific signature types := by
  intro more
  simp only [moreSpecific, Bool.and_eq_true, decide_eq_true_eq] at more
  obtain ⟨other, each⟩ := more
  refine other ?_
  clear other
  induction types generalizing signature with
  | nil =>
    cases signature with
    | nil => rfl
    | cons p ps => cases near
  | cons t rest ih =>
    cases signature with
    | nil => cases near
    | cons p ps =>
      simp only [List.all_cons, Bool.and_eq_true, List.zip_cons_cons, Bool.or_eq_true, decide_eq_true_eq] at definite each
      obtain ⟨here, later⟩ := totalDistance_cons_eq_zero near
      have typed : t ≠ .untyped := by
        rintro rfl
        cases definite.1
      rw [eq_of_distance here (each.1.resolve_left typed).2, ih definite.2 later each.2]

theorem prevails_exact (mem : types ∈ candidates) : w.prevails types candidates signature ↔ signature = types := by
  have itself : w.isNearest types candidates types :=
    isNearest_iff.mpr ⟨0, totalDistance_self definite, fun _ _ e _ => Nat.zero_le e⟩
  have nearest {c : List Ty} (near : w.isNearest types candidates c) : w.totalDistance types c = some 0 := by
    obtain ⟨d, hd, least⟩ := isNearest_iff.mp near
    rw [hd, Nat.le_zero.mp (least types mem 0 (totalDistance_self definite))]
  constructor
  · intro prevailing
    obtain ⟨near, beats⟩ := prevails_iff.mp prevailing
    exact Decidable.byContradiction fun other =>
      not_moreSpecific_of_near definite (nearest near) (beats types mem (Ne.symm other) itself)
  · rintro rfl
    exact prevails_iff.mpr ⟨itself, fun c _ other near => moreSpecific_of_near definite (nearest near) other⟩

theorem choice_exact (mem : types ∈ candidates) (different : candidates.Nodup) :
    w.choice types candidates = .taken types := by
  have first : candidates.find? (w.prevails types candidates) = some types := by
    cases found : candidates.find? (w.prevails types candidates) with
    | none => exact absurd ((prevails_exact definite mem).mpr rfl) (List.find?_eq_none.mp found types mem)
    | some c => rw [(prevails_exact definite mem).mp (List.find?_some found)]
  rw [choice_eq different, first]
  rfl

end Lists

variable {s t : ScopeId} {name : String} {types : List Ty} {m : Method}

def overload? (w : World) (t : ScopeId) (name : String) (types : List Ty) : Option Method :=
  (w.overloads t name).find? fun m => m.paramTypes = types

/-- The overloads of each name are told apart by their parameter types. -/
def Distinct (w : World) (t : ScopeId) : Prop := ∀ name, ((w.overloads t name).map Method.paramTypes).Nodup

theorem declared_exact (distinct : w.Distinct t) (definite : types.all Ty.isDefinite)
    (held : w.overload? t name types = some m) : w.declared name types t = .ok (some m) := by
  have mem : m ∈ w.overloads t name := List.mem_of_find?_eq_some held
  have exact : m.paramTypes = types := by simpa using List.find?_some held
  have taken : w.choice types ((w.overloads t name).map Method.paramTypes) = .taken types :=
    choice_exact definite (exact ▸ List.mem_map_of_mem mem) (distinct name)
  unfold declared
  cases best : w.mostSpecific types ((w.overloads t name).map Method.paramTypes) with
  | error c => simp [choice, best] at taken
  | ok r =>
    cases r with
    | none => simp [choice, best] at taken
    | some i =>
      obtain ⟨signature, there, -⟩ := signatureAssignable_of_mostSpecific best
      obtain rfl : signature = types := by simpa [choice, best, there] using taken
      obtain ⟨j, here⟩ := List.mem_iff_getElem?.mp mem
      have same : ((w.overloads t name).map Method.paramTypes)[i]? = ((w.overloads t name).map Method.paramTypes)[j]? := by
        rw [there, List.getElem?_map, here, Option.map_some, exact]
      have inside : i < ((w.overloads t name).map Method.paramTypes).length := (List.getElem?_eq_some_iff.mp there).1
      obtain rfl : i = j := (List.getElem?_inj inside (distinct name)).mp same
      simp [Except.map, here]

/-- A world that differs from another one in the methods that scopes declare, and in what they
remember. -/
structure Redeclared (w w' : World) : Prop where
  size : w'.scopes.size = w.scopes.size
  scope : ∀ s, ∃ methods, w'.scope s = { w.scope s with methods }

namespace Redeclared

variable {w' w'' : World}

theorem refl (w : World) : w.Redeclared w := ⟨rfl, fun s => ⟨(w.scope s).methods, rfl⟩⟩

theorem trans (h : w.Redeclared w') (k : w'.Redeclared w'') : w.Redeclared w'' := by
  refine ⟨k.size.trans h.size, fun s => ?_⟩
  obtain ⟨before, first⟩ := h.scope s
  obtain ⟨after, second⟩ := k.scope s
  exact ⟨after, by rw [second, first]⟩

theorem withMethod (w : World) (s : ScopeId) (m : Method) : w.Redeclared ((w.withMethod s m).forgetting s) := by
  refine ⟨Array.size_modify, fun t => ?_⟩
  rw [scope_forgetting, World.withMethod, scope_modifyScope]
  split
  · exact ⟨_, rfl⟩
  · exact ⟨_, rfl⟩

theorem ancestry (h : w.Redeclared w') (s : ScopeId) : w'.ancestry s = w.ancestry s := by
  refine ancestry_eq fun t _ => ?_
  obtain ⟨methods, same⟩ := h.scope t
  rw [same]

theorem enclosing (h : w.Redeclared w') (s : ScopeId) : w'.enclosing s = w.enclosing s := by
  have blocks : (fun t => !(w'.scope t).isBlock) = fun t => !(w.scope t).isBlock := by
    funext t
    obtain ⟨methods, same⟩ := h.scope t
    rw [same]
  unfold World.enclosing
  rw [h.ancestry, blocks]

end Redeclared

theorem overloads_withMethod (inside : t < w.scopes.size) (s : ScopeId) (m : Method)
    (name : String) :
    ((w.withMethod s m).forgetting s).overloads t name =
      if s = t ∧ m.name = name then Run.addOverload (w.overloads t name) m else w.overloads t name := by
  unfold overloads
  rw [scope_forgetting, World.withMethod, scope_modifyScope]
  by_cases here : s = t
  · subst here
    rw [if_pos ⟨rfl, inside⟩]
    by_cases named : m.name = name
    · subst named
      simp
    · simp [named, Table.get?_put_ne _ _ named]
  · simp [here]

theorem Distinct.withMethod (h : w.Distinct t) (inside : t < w.scopes.size) (s : ScopeId)
    (m : Method) : ((w.withMethod s m).forgetting s).Distinct t := by
  intro name
  rw [overloads_withMethod inside]
  split
  · exact Run.nodup_addOverload (h name) m
  · exact h name

theorem overload?_withMethod (h : w.Distinct t) (inside : t < w.scopes.size) (s : ScopeId)
    (m : Method) (name : String) (types : List Ty) :
    ((w.withMethod s m).forgetting s).overload? t name types =
      if s = t ∧ m.hasSignature name types then some m else w.overload? t name types := by
  unfold overload?
  rw [overloads_withMethod inside, ← List.head?_filter, ← List.head?_filter]
  by_cases here : s = t ∧ m.name = name
  · rw [if_pos here]
    by_cases same : m.paramTypes = types
    · subst same
      rw [Run.filter_addOverload_self (h name), if_pos ⟨here.1, by simp [Method.hasSignature, here.2]⟩]
      rfl
    · rw [Run.filter_addOverload_ne same, if_neg fun both => same (by simpa [Method.hasSignature, here.2] using both.2)]
  · rw [if_neg here, if_neg fun both => here ⟨both.1, ?_⟩]
    simp only [Method.hasSignature, Bool.and_eq_true, decide_eq_true_eq] at both
    exact both.2.1

/-- The methods that calls declare in a scope, from the first to the last. Blocks leave them to the
scope that they stand in. -/
def declaredIn (w : World) (t : ScopeId) (calls : List (ScopeId × Method)) : List Method :=
  (calls.filter fun c => w.enclosing c.1 = t).map Prod.snd

theorem declaring_run (distinct : w.Distinct t) (inside : t < w.scopes.size) (calls : List (ScopeId × Method)) :
    ∃ w', (forEach calls fun c => Run.setMethod c.1 c.2) w = .done () w' ∧ w.Redeclared w' ∧ w'.Distinct t ∧
      ∀ name types, w'.overload? t name types =
        ((w.declaredIn t calls).findRev? (Method.hasSignature name types)).or (w.overload? t name types) := by
  induction calls generalizing w with
  | nil => exact ⟨w, rfl, .refl w, distinct, fun _ _ => rfl⟩
  | cons c rest ih =>
    obtain ⟨s, m⟩ := c
    have step := Redeclared.withMethod w (w.enclosing s) m
    obtain ⟨w', run, later, distinct', table⟩ := ih (distinct.withMethod inside (w.enclosing s) m) (step.size ▸ inside)
    refine ⟨w', run, step.trans later, distinct', fun name types => ?_⟩
    have same : ((w.withMethod (w.enclosing s) m).forgetting (w.enclosing s)).declaredIn t rest = w.declaredIn t rest := by
      simp only [declaredIn, step.enclosing]
    rw [table, same, overload?_withMethod distinct inside]
    by_cases here : w.enclosing s = t
    · have first : w.declaredIn t ((s, m) :: rest) = m :: w.declaredIn t rest := by simp [declaredIn, here]
      rw [first, List.findRev?_eq_find?_reverse, List.findRev?_eq_find?_reverse, List.reverse_cons, List.find?_append,
        Option.or_assoc]
      congr 1
      cases fits : m.hasSignature name types <;> simp [here, fits]
    · have none : w.declaredIn t ((s, m) :: rest) = w.declaredIn t rest := by simp [declaredIn, here]
      rw [none, if_neg fun both => here both.1]

end World

namespace Run

variable {w : World} {s t : ScopeId} {name : String} {types : List Ty} {m : Method}

theorem findMethod_inside {inner : List ScopeId} (split : w.ancestry s = inner ++ w.ancestry t)
    (found : (findMethod t name types).run w = .done (some m) w) :
    (findMethod s name types).run w =
      (do let r ← firstSome inner fun u => localMethod u name types
          pure (some (r.getD m))).run w := by
  change (firstSome (w.ancestry s) fun u => localMethod u name types).run w = _
  rw [split]
  clear split
  induction inner with
  | nil => exact found
  | cons u rest ih =>
    rw [List.cons_append, firstSome, firstSome]
    simp only [Action.run_bind] at ih ⊢
    cases here : (localMethod u name types).run w with
    | done r v =>
      obtain rfl : v = w := (steady_localMethod u name types w).of_done here
      rw [Comp.bind_assoc, Comp.bind_of_done here, Comp.bind_of_done here]
      cases r with
      | none => exact ih
      | some x => rfl
    | failed e v => exact (Comp.bind_of_failed here).trans (Comp.bind_of_failed (Comp.bind_of_failed here)).symm
    | exhausted => exact (Comp.bind_of_exhausted here).trans (Comp.bind_of_exhausted (Comp.bind_of_exhausted here)).symm

end Run

/-- No scope gets two overloads of a name with the same parameter types. In a scope that is not that
of a class, the method that was declared last with a name and definite parameter types is the one
that is found by these types, there and from the scopes inside, unless one of those knows a method
itself. -/
theorem exact_signature_finds_latest {w : World} {t : ScopeId} (inside : t < w.scopes.size)
    (distinct : w.Distinct t) (calls : List (ScopeId × Method)) :
    ∃ w', (forEach calls fun c => Run.setMethod c.1 c.2) w = .done () w' ∧ w'.Distinct t ∧
      ∀ name types m, types.all Ty.isDefinite → (w.scope t).isClass = false →
        ((w.declaredIn t calls).findRev? (Method.hasSignature name types)).or (w.overload? t name types) = some m →
        (Run.findMethod t name types).run w' = .done (some m) w' ∧
          ∀ s inner, w.ancestry s = inner ++ w.ancestry t →
            (Run.findMethod s name types).run w' =
              (do let r ← firstSome inner fun u => Run.localMethod u name types
                  pure (some (r.getD m))).run w' := by
  obtain ⟨w', run, moved, distinct', table⟩ := World.declaring_run distinct inside calls
  refine ⟨w', run, distinct', fun name types m definite plain latest => ?_⟩
  have own : w'.IsOwn t := by
    obtain ⟨methods, same⟩ := moved.scope t
    exact ⟨moved.size ▸ inside, .inl (by rw [same]; exact plain)⟩
  have declared : w'.declared name types t = .ok (some m) :=
    World.declared_exact distinct' definite ((table name types).trans latest)
  have found : (Run.findMethod t name types).run w' = .done (some m) w' := by
    rw [Run.findMethod_of_declared own (by rw [declared]; simp), declared]
    rfl
  refine ⟨found, fun s inner split => Run.findMethod_inside ?_ found⟩
  rw [moved.ancestry, moved.ancestry, split]

def Method.taking (name : String) (types : List Ty) (returnType : Ty) : Method where
  name
  home := 0
  returnType
  params := types.map fun type => { name := "a", type }

theorem exact_signature_finds_latest_array :
    let ints : Ty := .array (.prim .int)
    let calls : List (ScopeId × Method) :=
      [(0, .taking "f" [.cls (.core .array)] .untyped), (0, .taking "f" [ints] .untyped), (0, .taking "f" [ints] ints)]
    ∃ w', (forEach calls fun c => Run.setMethod c.1 c.2) World.bare = .done () w' ∧ w'.Distinct 0 ∧
      (Run.findMethod 0 "f" [ints]).run w' = .done (some (.taking "f" [ints] ints)) w' := by
  intro ints calls
  have distinct : World.bare.Distinct 0 := fun _ => List.nodup_nil
  obtain ⟨w', run, distinct', finds⟩ := exact_signature_finds_latest (by decide) distinct calls
  exact ⟨w', run, distinct', (finds "f" [ints] _ (by decide) rfl rfl).1⟩

def World.importingBlock : World where
  scopes := #[{ name := "global" }, { name := "block", parent := some 0, isBlock := true, importedObjects := [.closure 2] },
    { name := "other", methods := ⟨[("f", [.taking "f" [] (.prim .int)])]⟩ }]

/-- A method that was just declared may not be found by its types: not in a block that has imports
of its own, and not by the type of an array without component type, which is nearer to other types
than to itself. -/
theorem exact_signature_can_be_missed :
    (¬∀ (w w' : World) (s : ScopeId) (m : Method), (w.scope s).isClass = false → w.Distinct (w.enclosing s) →
      m.paramTypes.all Ty.isDefinite → Run.setMethod s m w = .done () w' →
        (Run.findMethod s m.name m.paramTypes).run w' = .done (some m) w') ∧
    ¬∀ (m x : Method) (w' : World), (∀ t ∈ m.paramTypes, t ≠ .untyped ∧ t ≠ .prim .void) → m.paramTypes ≠ x.paramTypes →
      (forEach [(0, m), (0, x)] fun c => Run.setMethod c.1 c.2) World.bare = .done () w' →
        (Run.findMethod 0 m.name m.paramTypes).run w' = .done (some m) w' := by
  constructor
  · intro always
    have found := always .importingBlock _ 1 (.taking "f" [] .untyped) rfl (fun _ => List.nodup_nil) rfl rfl
    have type := congrArg (Outcome.doneWith fun r _ => r.map Method.returnType == some .untyped) found
    cases type
  · intro always
    have found := always (.taking "f" [.array .untyped] .untyped) (.taking "f" [.cls (.core .object)] (.prim .int)) _
      (by decide) (by decide) rfl
    have type := congrArg (Outcome.doneWith fun r _ => r.map Method.returnType == some .untyped) found
    cases type

end ScriptCore
