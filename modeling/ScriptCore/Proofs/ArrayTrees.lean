import ScriptCore.Proofs.ArrayStores
import ScriptCore.Proofs.StorageCalls
import ScriptCore.Session

namespace ScriptCore

namespace World

variable {w w' w'' : World} {i : ObjectId} {c : Ty} {v : Value} {lengths : List (Option Int)} {made more : List ObjectId}

/-- A value is the full tree of arrays of the lengths. At its leaves is what a variable of the type
starts with, and null where no length is given. The arrays of the tree are listed. -/
inductive Filled (w : World) : Ty → List (Option Int) → Value → List ObjectId → Prop
  | leaves {c : Ty} {l : Nat} {i : ObjectId} (array : w.array? (.object i) = some (c, List.replicate l (Value.default c))) :
      Filled w c [some l] (.object i) [i]
  | unsized {c : Ty} {l : Nat} {rest : List (Option Int)} {i : ObjectId}
      (array : w.array? (.object i) = some (c, List.replicate l .null)) :
        Filled w c (some l :: none :: rest) (.object i) [i]
  | rows {c : Ty} {m : Int} {rest : List (Option Int)} {i : ObjectId} {rows : List (Value × List ObjectId)}
      (array : w.array? (.object i) = some (.array c, rows.map Prod.fst))
      (full : ∀ r ∈ rows, Filled w c (some m :: rest) r.1 r.2) :
      Filled w (.array c) (some rows.length :: some m :: rest) (.object i) (rows.flatMap Prod.snd ++ [i])

/-- From one world to the other the listed arrays were made, all new and all different. What was
there is as it was, and all arrays are intact. -/
structure Grown (w w' : World) (made : List ObjectId) : Prop where
  spares : w.Spares w'
  lasting : w.Lasting w'
  intact : w'.ArraysIntact
  fresh : ∀ i ∈ made, w.objects.size ≤ i ∧ i < w'.objects.size
  nodup : made.Nodup

namespace Grown

theorem of_adds (all : w.ArraysIntact) (added : w.Adds w') (lasting : w.Lasting w') : w.Grown w' [] where
  spares := added.toSpares
  lasting := lasting
  intact := all.of_adds added lasting
  fresh _ hi := absurd hi List.not_mem_nil
  nodup := .nil

theorem refl (all : w.ArraysIntact) : w.Grown w [] := .of_adds all (.refl w) (.refl w)

theorem append (h : w.Grown w' made) (k : w'.Grown w'' more) : w.Grown w'' (made ++ more) where
  spares := h.spares.trans k.spares
  lasting := h.lasting.trans k.lasting
  intact := k.intact
  fresh i hi := by
    rcases List.mem_append.mp hi with early | late
    · exact ⟨(h.fresh i early).1, Nat.lt_of_lt_of_le (h.fresh i early).2 k.spares.count⟩
    · exact ⟨Nat.le_trans h.spares.count (k.fresh i late).1, (k.fresh i late).2⟩
  nodup := by
    -- What was made later has a later identity.
    refine List.nodup_append.mpr ⟨h.nodup, k.nodup, fun i early j late => ?_⟩
    have before : i < w'.objects.size := (h.fresh i early).2
    have after : w'.objects.size ≤ j := (k.fresh j late).1
    exact Nat.ne_of_lt (Nat.lt_of_lt_of_le before after)

theorem unlisted (h : w.Grown w' made) : w.Grown w' [] :=
  { h with fresh := fun _ hi => absurd hi List.not_mem_nil, nodup := .nil }

end Grown

theorem typeOf_of_array? {items : List Value} (array : w.array? (.object i) = some (c, items)) :
    w.typeOf (.object i) = .array c := by
  simp only [typeOf, array]

namespace Filled

theorem typeOf (h : w.Filled c lengths v made) : w.typeOf v = .array c := by
  cases h with
  | leaves array | unsized array | rows array _ => exact typeOf_of_array? array

theorem later (h : w.Filled c lengths v made) (all : w.ArraysIntact) (grown : w.Grown w' more) :
    w'.Filled c lengths v made := by
  induction h with
  | leaves array => exact .leaves (grown.spares.array? all grown.lasting array)
  | unsized array => exact .unsized (grown.spares.array? all grown.lasting array)
  | rows array _ ih => exact .rows (grown.spares.array? all grown.lasting array) ih

end Filled

theorem isAssignable_array_self (w : World) (c : Ty) : w.isAssignable (.array c) (.array c) := by
  unfold isAssignable
  induction c with
  | array c ih => simpa only [distance] using ih
  | untyped => rfl
  | prim p => simp [distance]
  | cls k => simp [distance, referenceDistance]
  | module m => simp [distance, referenceDistance]

theorem conforms_of_typeOf (h : w.typeOf v = .array c) : w.conforms v (.array c) := by
  have array : w.isArray v := isArray_iff.mpr ⟨c, h⟩
  simp only [conforms, array, h, isAssignable_array_self, Bool.and_self, Bool.or_true]

theorem conforms_default (w : World) (given : c ≠ .prim .void) : w.conforms (Value.default c) c := by
  cases c with
  | prim p => cases p <;> first | rfl | exact absurd rfl given
  | _ => rfl

theorem ArraysIntact.unheld {j k : ObjectId} (all : w.ArraysIntact) (outside : w.objects.size ≤ k) :
    (w.obj j).payload ≠ .array c (.object k) := by
  intro array
  obtain ⟨k', items, same, list, -⟩ := all.held j c _ array
  cases same
  have inside : k < w.objects.size := inside_of_payload (by simp [list])
  exact absurd inside (Nat.not_lt_of_le outside)

theorem isArray_of_size_le (outside : w.objects.size ≤ i) : w.isArray (.object i) = false := by
  simp only [isArray, array?, payload?, obj_of_size_le outside]
  rfl

def Conserves (w w' : World) : Prop := ∀ v t, w.conforms v t → w'.conforms v t

namespace Conserves

theorem refl (w : World) : w.Conserves w := fun _ _ h => h

theorem trans (h : w.Conserves w') (k : w'.Conserves w'') : w.Conserves w'' := fun v t hv => k v t (h v t hv)

theorem of_lasting (h : w.Lasting w') : w.Conserves w' := fun _ _ hv => h.conforms hv

theorem isArray (h : w.Conserves w') (array : w.isArray v) : w'.isArray v := by
  -- An array conforms to its own type, and apart from null nothing but an array does.
  obtain ⟨c, type⟩ := isArray_iff.mp array
  obtain ⟨i, rfl, -⟩ := typeOf_eq_array_iff.mp type
  have conform : w'.conforms (.object i) (.array c) := h _ _ (conforms_of_typeOf type)
  simp only [World.conforms, Value.isNull, Bool.false_or, Bool.and_eq_true] at conform
  exact conform.1

theorem notArray (h : w.Conserves w') (new : w'.isArray v = false) : w.isArray v = false :=
  Bool.eq_false_iff.mpr fun array => Bool.eq_false_iff.mp new (h.isArray array)

end Conserves

theorem ArraysIntact.push {k : ObjectId} {items : List Value} {o : Obj} (all : w.ArraysIntact)
    (array : o.payload = .array c (.object k)) (list : (w.obj k).payload = .list items)
    (free : ∀ j d, (w.obj j).payload ≠ .array d (.object k)) (conform : ∀ v ∈ items, w.conforms v c)
    (lasting : w.Lasting { w with objects := w.objects.push o }) :
    ({ w with objects := w.objects.push o } : World).ArraysIntact := by
  have listed {j : ObjectId} {l : List Value} (held : (w.obj j).payload = .list l) :
      (({ w with objects := w.objects.push o } : World).obj j).payload = .list l := by
    have inside : j < w.objects.size := inside_of_payload (by simp [held])
    rw [obj_push, if_neg (Nat.ne_of_lt inside), held]
  constructor
  · intro i d e hi
    rw [obj_push] at hi
    split at hi
    · cases array.symm.trans hi
      exact ⟨k, items, rfl, listed list, fun v hv => lasting.conforms (conform v hv)⟩
    · obtain ⟨k', items', rfl, held, conform'⟩ := all.held i d e hi
      exact ⟨k', items', rfl, listed held, fun v hv => lasting.conforms (conform' v hv)⟩
  · intro i j d e k' hi hj
    rw [obj_push] at hi hj
    split at hi <;> split at hj
    · next hi' hj' => rw [hi', hj']
    · cases array.symm.trans hi
      exact absurd hj (free j e)
    · cases array.symm.trans hj
      exact absurd hi (free i d)
    · exact all.apart i j d e k' hi hj

end World

namespace Run

variable {w : World} {c : Ty} {items : List Value}

theorem meets_newArray {F : Failure → World → Prop} (all : w.ArraysIntact)
    (conform : ∀ v ∈ items, w.conforms v c) :
    (newArray c items).run.Meets w
      (fun v w' => ∃ i, v = .object i ∧ w'.array? (.object i) = some (c, items) ∧ w.Grown w' [i]) F := by
  let k : ObjectId := w.objects.size
  let list : Obj := { cls := .core .list, payload := .list items }
  let array : Obj := { cls := .core .array, payload := .array c (.object k) }
  let w₁ : World := { w with objects := w.objects.push list }
  let i : ObjectId := w₁.objects.size
  let w₂ : World := { w₁ with objects := w₁.objects.push array }
  have added : w.Adds w₁ := .push w rfl
  have early : w.Lasting w₁ := World.Calm.lasting (World.calm_pushObject rfl)
  have late : w₁.Lasting w₂ := World.Calm.lasting (World.calm_pushObject rfl)
  have held : (w₁.obj k).payload = .list items := by rw [World.obj_push, if_pos rfl]
  have inside : k < i := World.inside_of_payload (by simp [held])
  have free (j : ObjectId) (d : Ty) : (w₁.obj j).payload ≠ .array d (.object k) := by
    rw [World.obj_push]
    split
    · exact Payload.noConfusion
    · exact all.unheld (Nat.le_refl _)
  have made : w₂.obj i = array := by rw [World.obj_push, if_pos rfl]
  have core : w₂.isInstance (.object i) (.core .array) := by
    simp only [World.isInstance, World.classOf, made]
    rfl
  have holds : w₂.array? (.object i) = some (c, items) := by
    refine World.array?_of_payload (k := k) (by rw [made]) ?_ core
    rw [World.obj_push, if_neg (Nat.ne_of_lt inside), held]
  refine (?_ : ∃ j, Value.object i = .object j ∧ w₂.array? (.object j) = some (c, items) ∧ w.Grown w₂ [j])
  refine ⟨i, rfl, holds, ?_⟩
  constructor
  · exact added.toSpares.trans (.push w₁ array)
  · exact early.trans late
  · exact (all.of_adds added early).push rfl held free (fun v hv => early.conforms (conform v hv)) late
  · intro j hj
    obtain rfl := List.mem_singleton.mp hj
    exact ⟨added.count, by simp [w₂, i]⟩
  · simp

end Run

/-- The action makes the full tree of the lengths. If it fails, what it has made so far is left
behind intact. -/
def Allocates (x : Plain Value) (c : Ty) (lengths : List (Option Int)) : Prop :=
  ∀ w : World, w.ArraysIntact →
    x.run.Meets w (fun v w' => ∃ made, w'.Filled c lengths v made ∧ w.Grown w' made) fun _ w' => w.Grown w' []

namespace Allocates

variable {c : Ty} {l : Nat} {m : Int} {lengths rest : List (Option Int)}

theorem raise (e : HostError) : Allocates (Run.raise e) c lengths := by
  intro w all
  exact (Run.meets_raise_adds e w).mono (fun _ _ h => h.elim) fun _ _ h => .of_adds all h.1 h.2

theorem leaves (given : c ≠ .prim .void) :
    Allocates (Run.newArray c (List.replicate l (Value.default c))) c [some l] := by
  intro w all
  have conform : ∀ v ∈ List.replicate l (Value.default c), w.conforms v c := by
    intro v hv
    rw [List.eq_of_mem_replicate hv]
    exact w.conforms_default given
  refine (Run.meets_newArray all conform).imp ?_
  rintro _ w' ⟨i, rfl, array, grown⟩
  exact ⟨[i], .leaves array, grown⟩

theorem unsized : Allocates (Run.newArray (.array c) (List.replicate l .null)) (.array c) (some l :: none :: rest) := by
  intro w all
  have conform : ∀ v ∈ List.replicate l Value.null, w.conforms v (.array c) := by
    intro v hv
    rw [List.eq_of_mem_replicate hv]
    rfl
  refine (Run.meets_newArray all conform).imp ?_
  rintro _ w' ⟨i, rfl, array, grown⟩
  exact ⟨[i], .unsized array, grown⟩

theorem collect {f : Nat → Plain Value} (row : ∀ n, Allocates (f n) c lengths) (ns : List Nat)
    {w : World} (all : w.ArraysIntact) :
    (ScriptCore.collect ns f).run.Meets w
      (fun vs w' => ∃ rows : List (Value × List ObjectId), vs = rows.map Prod.fst ∧ rows.length = ns.length ∧
        (∀ r ∈ rows, w'.Filled c lengths r.1 r.2) ∧ w.Grown w' (rows.flatMap Prod.snd))
      fun _ w' => w.Grown w' [] := by
  induction ns generalizing w with
  | nil => exact ⟨[], rfl, rfl, fun _ hr => absurd hr List.not_mem_nil, .refl all⟩
  | cons n rest ih =>
    unfold ScriptCore.collect
    simp only [Action.meets_bind]
    refine (row n w all).imp fun v w₁ h => ?_
    obtain ⟨made, filled, first⟩ := h
    refine (ih first.intact).mono ?_ fun _ _ second => (first.append second).unlisted
    rintro _ w₂ ⟨rows, rfl, count, full, second⟩
    refine ⟨(v, made) :: rows, rfl, by simp [count], fun r hr => ?_, first.append second⟩
    rcases List.mem_cons.mp hr with rfl | later
    · exact filled.later first.intact second
    · exact full r later

theorem rows {f : Nat → Plain Value} (row : ∀ n, Allocates (f n) c (some m :: rest)) :
    Allocates (do let items ← ScriptCore.collect (List.range l) f; Run.newArray (.array c) items)
      (.array c) (some l :: some m :: rest) := by
  intro w all
  simp only [Action.meets_bind]
  refine (collect row (List.range l) all).imp ?_
  rintro _ w₁ ⟨rows, rfl, count, full, first⟩
  obtain rfl : rows.length = l := count.trans List.length_range
  have conform : ∀ v ∈ rows.map Prod.fst, w₁.conforms v (.array c) := by
    intro v hv
    obtain ⟨r, hr, rfl⟩ := List.mem_map.mp hv
    exact World.conforms_of_typeOf (full r hr).typeOf
  refine (Run.meets_newArray first.intact conform).imp ?_
  rintro _ w₂ ⟨i, rfl, array, second⟩
  exact ⟨_, .rows array fun r hr => (full r hr).later first.intact second, first.append second⟩

end Allocates

namespace Evaluator

variable {w : World} {c : Ty} {lengths : List (Option Int)}

theorem allocates_allocate (deep : lengths.length ≤ c.dimensions + 1)
    (base : c.baseType ≠ .prim .void) : Allocates (allocate c lengths) c lengths := by
  induction lengths generalizing c with
  | nil => exact .raise _
  | cons length rest ih =>
    cases length with
    | none => exact .raise _
    | some size =>
      unfold allocate
      split
      · exact .raise _
      · next given =>
        obtain ⟨l, rfl⟩ := Int.eq_ofNat_of_zero_le (Int.not_lt.mp given)
        rw [Int.toNat_natCast]
        cases rest with
        | nil => exact .leaves fun same => base (by rw [same]; rfl)
        | cons below rest =>
          have deep := Nat.le_of_succ_le_succ deep
          -- A length below the first one is only given if the component type is an array type.
          obtain ⟨d, rfl⟩ : ∃ d, c = .array d := by
            cases c with
            | array d => exact ⟨d, rfl⟩
            | _ => cases deep
          cases below with
          | none => exact .unsized
          | some m => exact .rows fun _ => ih deep base

theorem exists_collect {f : Nat → Plain Value} (each : ∀ n w, ∃ v w', (f n).run w = .done v w')
    (ns : List Nat) (w : World) : ∃ vs w', (collect ns f).run w = .done vs w' := by
  induction ns generalizing w with
  | nil => exact ⟨[], w, rfl⟩
  | cons n rest ih =>
    obtain ⟨v, w₁, first⟩ := each n w
    obtain ⟨vs, w₂, others⟩ := ih w₁
    refine ⟨v :: vs, w₂, ?_⟩
    unfold collect
    rw [Action.run_bind_of_done first, Action.run_bind_of_done others]
    rfl

theorem exists_allocate {l : Int} {rest : List (Option Int)} (sizes : ∀ n, some n ∈ some l :: rest → 0 ≤ n) (c : Ty)
    (w : World) : ∃ v w', (allocate c (some l :: rest)).run w = .done v w' := by
  induction rest generalizing c l w with
  | nil =>
    unfold allocate
    rw [if_neg (Int.not_lt.mpr (sizes l List.mem_cons_self))]
    exact ⟨_, _, rfl⟩
  | cons m rest ih =>
    unfold allocate
    rw [if_neg (Int.not_lt.mpr (sizes l List.mem_cons_self))]
    cases m with
    | none => exact ⟨_, _, rfl⟩
    | some m =>
      have row (c : Ty) (w : World) := ih (fun n hn => sizes n (List.mem_cons_of_mem _ hn)) c w
      obtain ⟨vs, w₁, rows⟩ := exists_collect (fun _ => row _) (List.range l.toNat) w
      dsimp only
      rw [Action.run_bind_of_done rows]
      exact ⟨_, _, rfl⟩

/-- While the elements of an initializer are evaluated, one that is no initializer itself comes to
be evaluated in a state. -/
inductive Visits (ev : Evaluator) : Ty → List Node → EvalState → Node → EvalState → Prop
  | here {c : Ty} {e : Node} {rest : List Node} {σ : EvalState} (leaf : e.isArrayInit = false) :
      Visits ev c (e :: rest) σ e σ
  | inside {c d : Ty} {o : Origin} {inner rest : List Node} {e : Node} {σ τ : EvalState}
      (row : c = .array d ∨ c = Ty.object ∧ d = Ty.object) (part : Visits ev d inner σ e τ) :
      Visits ev c (.arrayInit o inner :: rest) σ e τ
  | later {c : Ty} {first e : Node} {rest : List Node} {v : Value} {σ σ₁ τ : EvalState}
      (run : ev.initElement c first σ = .done v σ₁) (part : Visits ev c rest σ₁ e τ) : Visits ev c (first :: rest) σ e τ

theorem Visits.of_single {ev : Evaluator} {c : Ty} {first e : Node} {rest : List Node}
    {σ τ : EvalState} (h : Visits ev c [first] σ e τ) : Visits ev c (first :: rest) σ e τ := by
  cases h with
  | here leaf => exact .here leaf
  | inside row part => exact .inside row part
  | later _ part => cases part

/-- The evaluation of an expression in a state leaves arrays intact, and what conforms to a type
there. -/
def KeepsArrays (ev : Evaluator) (e : Node) (σ : EvalState) : Prop :=
  σ.world.ArraysIntact →
    (ev.eval e).Meets σ (fun _ σ' => σ'.world.ArraysIntact ∧ σ.world.Conserves σ'.world) fun _ _ => True

def RowsApart (es : List Node) (items : List Value) : Prop :=
  (es.zip items).Pairwise fun p q => p.1.isArrayInit → q.1.isArrayInit → p.2 ≠ q.2

/-- From one world to the other the value was made of the elements, as an array that was not there.
-/
structure Initialized (w w' : World) (c : Ty) (es : List Node) (v : Value) : Prop where
  intact : w'.ArraysIntact
  conserves : w.Conserves w'
  new : w.isArray v = false
  array : ∃ i items, v = .object i ∧ w'.array? v = some (c, items) ∧ items.length = es.length ∧ RowsApart es items

structure Converted (w w' : World) (c : Ty) (es : List Node) (items : List Value) : Prop where
  intact : w'.ArraysIntact
  conserves : w.Conserves w'
  count : items.length = es.length
  conform : ∀ v ∈ items, w'.conforms v c
  new : ∀ p ∈ es.zip items, p.1.isArrayInit → w.isArray p.2 = false ∧ w'.isArray p.2
  apart : RowsApart es items

section Initializers

variable {ev : Evaluator} {σ : EvalState} {es : List Node} {e : Node} {o : Origin}

theorem Converted.cons {w w₁ w₂ : World} {v : Value} {items : List Value} (h : Converted w w₁ c [e] [v])
    (k : Converted w₁ w₂ c es items) : Converted w w₂ c (e :: es) (v :: items) where
  intact := k.intact
  conserves := h.conserves.trans k.conserves
  count := congrArg (· + 1) k.count
  conform u hu := by
    rcases List.mem_cons.mp hu with rfl | later
    · exact k.conserves u c (h.conform u List.mem_cons_self)
    · exact k.conform u later
  new p hp nested := by
    rcases List.mem_cons.mp hp with rfl | later
    · obtain ⟨new, array⟩ := h.new (e, v) List.mem_cons_self nested
      exact ⟨new, k.conserves.isArray array⟩
    · obtain ⟨new, array⟩ := k.new p later nested
      exact ⟨h.conserves.notArray new, array⟩
  apart := by
    -- A row that comes later was no array yet when the first one already was.
    refine List.pairwise_cons.mpr ⟨fun q hq nested nested' same => ?_, k.apart⟩
    obtain ⟨-, array⟩ := h.new (e, v) List.mem_cons_self nested
    obtain ⟨new, -⟩ := k.new q hq nested'
    rw [← same, array] at new
    cases new

theorem Converted.nil {w : World} (all : w.ArraysIntact) : Converted w w c [] [] where
  intact := all
  conserves := .refl w
  count := rfl
  conform _ hv := absurd hv List.not_mem_nil
  new _ hp := absurd hp List.not_mem_nil
  apart := .nil

theorem Converted.single {w w' : World} {v : Value} (intact : w'.ArraysIntact) (conserves : w.Conserves w')
    (conform : w'.conforms v c) (new : e.isArrayInit → w.isArray v = false ∧ w'.isArray v) : Converted w w' c [e] [v] where
  intact := intact
  conserves := conserves
  count := rfl
  conform u hu := by
    obtain rfl := List.mem_singleton.mp hu
    exact conform
  new p hp := by
    obtain rfl := List.mem_singleton.mp hp
    exact new
  apart := List.pairwise_singleton _ _

namespace Initialized

variable {w w' : World} {v : Value}

theorem typeOf (h : Initialized w w' c es v) : w'.typeOf v = .array c := by
  obtain ⟨i, items, rfl, array, -⟩ := h.array
  exact World.typeOf_of_array? array

theorem isArray (h : Initialized w w' c es v) : w'.isArray v := World.isArray_iff.mpr ⟨c, h.typeOf⟩

theorem conforms_object (h : Initialized w w' c es v) : w'.conforms v Ty.object := by
  obtain ⟨i, items, rfl, -⟩ := h.array
  exact w'.isSubclass_object _

end Initialized

theorem meets_initArray_of_elements
    (elements : (ev.initElements c es).Meets σ (fun items σ' => Converted σ.world σ'.world c es items) fun _ _ => True) :
    (ev.initArray c (.arrayInit o es)).Meets σ (fun v σ' => Initialized σ.world σ'.world c es v) fun _ _ => True := by
  unfold initArray
  simp only [Comp.meets_bind, Eval.monadLift_action, Eval.meets_lift]
  refine elements.impDone fun items σ₁ h => ?_
  refine (Run.meets_newArray h.intact h.conform).imp ?_
  rintro _ w₂ ⟨i, rfl, array, grown⟩
  obtain ⟨outside, -⟩ := grown.fresh i List.mem_cons_self
  exact {
    intact := grown.intact
    conserves := h.conserves.trans (.of_lasting grown.lasting)
    new := h.conserves.notArray (World.isArray_of_size_le outside)
    array := ⟨i, items, rfl, array, h.count, h.apart⟩ }

theorem meets_initElement_of_leaf (leaf : e.isArrayInit = false) (keeps : ev.KeepsArrays e σ) (all : σ.world.ArraysIntact) :
    (ev.initElement c e).Meets σ (fun v σ' => Converted σ.world σ'.world c [e] [v]) fun _ _ => True := by
  unfold initElement
  split
  · cases leaf
  · simp only [Comp.meets_bind]
    refine (keeps all).impDone fun v σ₁ h => ?_
    obtain ⟨intact, conserves⟩ := h
    split
    · trivial
    · simp only [Comp.meets_bind, Eval.monadLift_action, Eval.meets_lift, Run.meets_read]
      refine Eval.meets_located (Eval.meets_lift.mpr ?_)
      have added := Run.OnlyAdds.cast v c .cast σ₁.world
      have calm := (Run.cast v c .cast).meets_calm σ₁.world
      refine ((Run.meets_cast v c .cast σ₁.world).and (added.and calm)).impDone fun x w₂ h => ?_
      obtain ⟨conform, adds, calm⟩ := h
      refine .single (intact.of_adds adds calm.lasting) (conserves.trans (.of_lasting calm.lasting))
        conform fun nested => ?_
      simp [leaf] at nested

mutual

theorem meets_initElement (e : Node) (c : Ty) {σ : EvalState}
    (keeps : ∀ e' τ, Visits ev c [e] σ e' τ → ev.KeepsArrays e' τ) (all : σ.world.ArraysIntact) :
    (ev.initElement c e).Meets σ (fun v σ' => Converted σ.world σ'.world c [e] [v]) fun _ _ => True := by
  cases e with
  | arrayInit o es =>
    have made (d : Ty) (row : c = .array d ∨ c = Ty.object ∧ d = Ty.object) :=
      meets_initArray_of_elements (o := o) (meets_initElements es d (fun e' τ part => keeps e' τ (.inside row part)) all)
    unfold initElement
    split
    · next inner =>
      refine (made inner (.inl rfl)).imp fun v σ' h => ?_
      exact .single h.intact h.conserves (World.conforms_of_typeOf h.typeOf) fun _ => ⟨h.new, h.isArray⟩
    · split
      · next object =>
        subst object
        refine (made Ty.object (.inr ⟨rfl, rfl⟩)).imp fun v σ' h => ?_
        exact .single h.intact h.conserves h.conforms_object fun _ => ⟨h.new, h.isArray⟩
      · trivial
  | _ => exact meets_initElement_of_leaf rfl (keeps _ σ (.here rfl)) all

theorem meets_initElements (es : List Node) (c : Ty) {σ : EvalState}
    (keeps : ∀ e τ, Visits ev c es σ e τ → ev.KeepsArrays e τ) (all : σ.world.ArraysIntact) :
    (ev.initElements c es).Meets σ (fun items σ' => Converted σ.world σ'.world c es items) fun _ _ => True := by
  cases es with
  | nil => exact .nil all
  | cons e rest =>
    have first := meets_initElement e c (fun e' τ part => keeps e' τ part.of_single) all
    unfold initElements
    simp only [Comp.meets_bind]
    refine (first.and (Comp.meets_self _ σ)).impDone fun v σ₁ ⟨h, run⟩ => ?_
    have later := meets_initElements rest c (fun e' τ part => keeps e' τ (.later run part)) h.intact
    exact later.impDone fun items σ₂ k => h.cons k

end

theorem meets_initArray (c : Ty) (all : σ.world.ArraysIntact) (keeps : ∀ e τ, Visits ev c es σ e τ → ev.KeepsArrays e τ) :
    (ev.initArray c (.arrayInit o es)).Meets σ (fun v σ' => Initialized σ.world σ'.world c es v) fun _ _ => True :=
  meets_initArray_of_elements (meets_initElements es c keeps all)

end Initializers

theorem keepsArrays_number (n : Nat) (o : Origin) (k : Int) (σ : EvalState) :
    (ofFuel (n + 1)).KeepsArrays (.literal o (.ofInt k)) σ := by
  intro all
  exact (⟨all, .refl _⟩ : σ.world.ArraysIntact ∧ σ.world.Conserves σ.world)

/-- In a world with intact arrays, allocations and initializers make intact arrays, and stores keep
them so. An allocation gives the full tree of the lengths if none is negative. A store that goes
through replaces the element; any other touches nothing. -/
theorem arrays_keep_their_integrity (ev : Evaluator) {w : World} (all : w.ArraysIntact) :
    (∀ (c : Ty) (lengths : List (Option Int)), lengths.length ≤ c.dimensions + 1 → c.baseType ≠ .prim .void →
      (allocate c lengths).run.Meets w (fun v w' => ∃ made, w'.Filled c lengths v made ∧ w.Grown w' made)
        (fun _ w' => w.Grown w' [])) ∧
    (∀ (c : Ty) (l : Int) (rest : List (Option Int)), (∀ n, some n ∈ some l :: rest → 0 ≤ n) →
      ∃ v w', (allocate c (some l :: rest)).run w = .done v w') ∧
    (∀ (c : Ty) (o : Origin) (es : List Node) (σ : EvalState), σ.world = w →
      (∀ e τ, Visits ev c es σ e τ → ev.KeepsArrays e τ) →
      (ev.initArray c (.arrayInit o es)).Meets σ (fun v σ' => Initialized w σ'.world c es v) fun _ _ => True) ∧
    (∀ w', ev.ElementStores w w' → w'.ArraysIntact ∧ w.SameShapes w') ∧
    ∀ (i : ObjectId) (c : Ty) (items : List Value) (n : Int) (value : Value) (x : Run Unit),
      w.array? (.object i) = some (c, items) → ev.StoresElement i n value x →
      x.Meets w (fun _ w' => w.Replaced w' i c items n value)
        (fun _ w' => w.Adds w' ∧ ∀ j a, w.array? (.object j) = some a → w'.array? (.object j) = some a) ∧
      ∀ y w₁, 0 ≤ n → n < items.length → (Run.cast value c .assignment).run w = .done y w₁ → ∃ w', x w = .done () w' := by
  refine ⟨fun c lengths deep base => allocates_allocate deep base w all, fun c l rest sizes =>
    exists_allocate sizes c w, ?_,
    fun w' stores => stores.intact all, ?_⟩
  · rintro c o es σ rfl keeps
    exact meets_initArray c all keeps
  · intro i c items n value x array store
    refine ⟨(store.meets all array).mono (fun _ w' h => h.replaced all array) fun _ w' h => ⟨h.1, fun j a there => ?_⟩, ?_⟩
    · exact h.1.toSpares.array? all h.2 there
    · exact fun y w₁ low high converted => store.exists_done all array low high converted

theorem arrays_keep_their_integrity_grid :
    let row : Node := .arrayInit {} [.literal {} (.ofInt 1), .literal {} (.ofInt 2)]
    World.bare.ArraysIntact ∧
    (∃ v w made, (allocate (.array (.prim .int)) [some 2, some 3]).run .bare = .done v w ∧
      w.Filled (.array (.prim .int)) [some 2, some 3] v made ∧ World.bare.Grown w made ∧
      ∃ c items w', w.array? (.object 1) = some (c, items) ∧
        ((ofFuel 3).setIndex (.object 1) 1 (.ofInt 7)).run w = .done () w' ∧ w.Replaced w' 1 c items 1 (.ofInt 7)) ∧
    ∃ v σ, (ofFuel 3).initArray (.array (.prim .int)) (.arrayInit {} [row, row]) ⟨.bare, .own ⟨[0]⟩⟩ = .done v σ ∧
      Initialized .bare σ.world (.array (.prim .int)) [row, row] v := by
  intro row
  have bare : World.bare.ArraysIntact := .of_none (by decide +kernel)
  obtain ⟨allocates, -, initializes, -⟩ := arrays_keep_their_integrity (ofFuel 3) bare
  refine ⟨bare, ?_, ?_⟩
  · have run : ((allocate (.array (.prim .int)) [some 2, some 3]).run .bare).doneWith fun _ w =>
        w.isArray (.object 1) && (((ofFuel 3).setIndex (.object 1) 1 (.ofInt 7)).run w).isDone := by decide +kernel
    obtain ⟨v, w, done, shape⟩ := Outcome.exists_of_doneWith run
    rw [Bool.and_eq_true] at shape
    obtain ⟨made, filled, grown⟩ := (allocates _ _ (by decide) (by decide)).of_done done
    obtain ⟨⟨c, items⟩, array⟩ := Option.isSome_iff_exists.mp shape.1
    obtain ⟨_, w', stored⟩ := Outcome.exists_of_isDone shape.2
    obtain ⟨-, -, -, -, stores⟩ := arrays_keep_their_integrity (ofFuel 3) grown.intact
    have replaced := (stores 1 c items 1 (.ofInt 7) _ array .index).1.of_done stored
    exact ⟨v, w, made, done, filled, grown, c, items, w', array, stored, replaced⟩
  · have run : ((ofFuel 3).initArray (.array (.prim .int)) (.arrayInit {} [row, row]) ⟨.bare, .own ⟨[0]⟩⟩).isDone := by
      decide +kernel
    obtain ⟨v, σ, done⟩ := Outcome.exists_of_isDone run
    have numbers {c : Ty} {e : Node} {σ τ : EvalState} (visit : Visits (ofFuel 3) c
        [.literal {} (.ofInt 1), .literal {} (.ofInt 2)] σ e τ) : (ofFuel 3).KeepsArrays e τ := by
      cases visit with
      | here => exact keepsArrays_number 2 {} 1 _
      | later _ visit =>
        cases visit with
        | here => exact keepsArrays_number 2 {} 2 _
        | later _ visit => cases visit
    refine ⟨v, σ, done, (initializes _ _ _ ⟨.bare, .own ⟨[0]⟩⟩ rfl fun e τ visit => ?_).of_done done⟩
    dsimp only [row] at visit
    cases visit with
    | here leaf => cases leaf
    | inside _ part => exact numbers part
    | later _ visit =>
      cases visit with
      | here leaf => cases leaf
      | inside _ part => exact numbers part
      | later _ visit => cases visit

/-- The second element of an initializer retypes the array that is the first one, which then is no
row of the array that is made. -/
theorem retyped_row_does_not_conform :
    let typed (t : Ty) : Node := .typeRef {} (.resolved t) 0
    let set (name : String) (value : Node) : Node := .assignment {} (.name {} name) .plain value
    let f : Node := .methodDecl {} "f" [] (.blockOf [set "x.component_type" (.name {} "y.component_type"),
      .return {} (.literal {} .null)]) .absent []
    let program : List Node := [
      set "x" (.arrayAlloc {} (typed (.prim .int)) [.absent] (.arrayInit {} [.literal {} (.ofInt 1)])),
      set "y" (.arrayAlloc {} (typed (.prim .boolean)) [.absent] (.arrayInit {} [])),
      f, .arrayAlloc {} (typed (.prim .int)) [.absent, .absent] (.arrayInit {} [.name {} "x", .invocation {} "f" []])]
    World.bare.ArraysIntact ∧ ∃ v w items, (ofFuel 8).evaluate 0 program .bare = .done v w ∧
      w.array? v = some (.array (.prim .int), items) ∧ ∃ x ∈ items, ¬w.conforms x (.array (.prim .int)) := by
  intro typed set f program
  have run : ((ofFuel 8).evaluate 0 program .bare).doneWith fun v w =>
      (w.array? v).any fun a => decide (a.1 = .array (.prim .int)) && a.2.any fun x =>
        !w.conforms x (.array (.prim .int)) := by
    decide +kernel
  obtain ⟨v, w, done, shape⟩ := Outcome.exists_of_doneWith run
  obtain ⟨⟨c, items⟩, array, shape⟩ := (Option.any_eq_true _ _).mp shape
  simp only [Bool.and_eq_true, decide_eq_true_eq, List.any_eq_true, Bool.not_eq_true'] at shape
  obtain ⟨rfl, x, element, fails⟩ := shape
  exact ⟨.of_none (by decide +kernel), v, w, items, done, array, x, element, by simp [fails]⟩

end Evaluator

end ScriptCore
