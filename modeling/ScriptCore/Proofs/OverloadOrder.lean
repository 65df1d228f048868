import ScriptCore.Proofs.Lasting
import ScriptCore.Proofs.Selection

namespace ScriptCore

namespace World

/-- What a choice between signatures comes to, whatever their positions. -/
inductive Choice where
  | inapplicable
  | ambiguous
  | taken (signature : List Ty)
  deriving DecidableEq, Repr

def choice (w : World) (args : List Ty) (candidates : List (List Ty)) : Choice :=
  match w.mostSpecific args candidates with
  | .ok none => .inapplicable
  | .ok (some i) => .taken (candidates[i]?.getD [])
  | .error _ => .ambiguous

def isNearest (w : World) (args : List Ty) (candidates : List (List Ty)) (s : List Ty) : Bool :=
  (w.totalDistance args s).any fun d => candidates.all fun c => (w.totalDistance args c).all fun e => decide (d ≤ e)

def prevails (w : World) (args : List Ty) (candidates : List (List Ty)) (s : List Ty) : Bool :=
  w.isNearest args candidates s &&
    candidates.all fun c => decide (c = s) || !w.isNearest args candidates c || w.moreSpecific s c

section Order

variable {w : World} {args : List Ty} {cs ds : List (List Ty)} {a b s : List Ty}

theorem isNearest_iff :
    w.isNearest args cs s ↔
      ∃ d, w.totalDistance args s = some d ∧ ∀ c ∈ cs, ∀ e, w.totalDistance args c = some e → d ≤ e := by
  have bound (d : Nat) (o : Option Nat) : (o.all fun e => decide (d ≤ e)) ↔ ∀ e, o = some e → d ≤ e := by
    cases o <;> simp
  unfold isNearest
  cases w.totalDistance args s with
  | none => simp
  | some d => simp [bound]

theorem prevails_iff :
    w.prevails args cs s ↔
      w.isNearest args cs s ∧ ∀ c ∈ cs, c ≠ s → w.isNearest args cs c → w.moreSpecific s c := by
  simp only [prevails, Bool.and_eq_true, List.all_eq_true, Bool.or_eq_true, decide_eq_true_eq, Bool.not_eq_true']
  grind

theorem isNearest_reordered (same : cs.Perm ds) : w.isNearest args ds = w.isNearest args cs := by
  funext s
  rw [Bool.eq_iff_iff, isNearest_iff, isNearest_iff]
  simp only [same.mem_iff]

theorem prevails_reordered (same : cs.Perm ds) : w.prevails args ds = w.prevails args cs := by
  funext s
  rw [Bool.eq_iff_iff, prevails_iff, prevails_iff]
  simp only [same.mem_iff, isNearest_reordered same]

theorem map_filter_scored (w : World) (args : List Ty) (best : Nat) (l : List (List Ty × Nat)) :
    ((l.filterMap fun e => (w.totalDistance args e.1).map fun d => (d, e.2)).filter fun e => e.1 == best).map Prod.snd =
      (l.filter fun e => w.totalDistance args e.1 == some best).map Prod.snd := by
  induction l with
  | nil => rfl
  | cons e rest ih =>
    cases hd : w.totalDistance args e.1 with
    | none => simpa [hd] using ih
    | some d =>
      by_cases near : d = best
      · simpa [hd, near] using ih
      · simpa [hd, near] using ih

theorem nearest_scored (w : World) (args : List Ty) (cs : List (List Ty)) :
    nearest (w.scored args cs) = (cs.zipIdx.filter fun e => w.isNearest args cs e.1).map Prod.snd := by
  have listed {c : List Ty} (hc : c ∈ cs) : ∃ i, (c, i) ∈ cs.zipIdx := by
    obtain ⟨i, hi⟩ := List.mem_iff_getElem?.mp hc
    exact ⟨i, List.mem_zipIdx_iff_getElem?.mpr hi⟩
  have member (e : List Ty × Nat) (he : e ∈ cs.zipIdx) : e.1 ∈ cs :=
    List.mem_of_getElem? (List.mem_zipIdx_iff_getElem?.mp he)
  have distance (d : Nat) : d ∈ (w.scored args cs).map Prod.fst ↔ ∃ c ∈ cs, w.totalDistance args c = some d := by
    simp only [scored, List.mem_map, List.mem_filterMap]
    constructor
    · rintro ⟨p, ⟨e, he, hp⟩, rfl⟩
      obtain ⟨n, hn, rfl⟩ := Option.map_eq_some_iff.mp hp
      exact ⟨e.1, member e he, hn⟩
    · rintro ⟨c, hc, hd⟩
      obtain ⟨i, hi⟩ := listed hc
      exact ⟨(d, i), ⟨(c, i), hi, by simp [hd]⟩, rfl⟩
  unfold nearest
  split
  · next unscored =>
    have nothing : (w.scored args cs).map Prod.fst = [] := List.min?_eq_none_iff.mp unscored
    have far (e : List Ty × Nat) (he : e ∈ cs.zipIdx) : ¬ w.isNearest args cs e.1 := by
      intro near
      obtain ⟨d, hd, -⟩ := isNearest_iff.mp near
      have := (distance d).mpr ⟨e.1, member e he, hd⟩
      rw [nothing] at this
      cases this
    rw [List.filter_eq_nil_iff.mpr far]
    rfl
  · next best least =>
    obtain ⟨reached, below⟩ := List.min?_eq_some_iff.mp least
    obtain ⟨c, hc, hd⟩ := (distance best).mp reached
    rw [scored, map_filter_scored]
    congr 1
    refine List.filter_congr fun e he => ?_
    rw [Bool.eq_iff_iff, beq_iff_eq, isNearest_iff]
    constructor
    · intro at'
      exact ⟨best, at', fun c hc d hd => below d ((distance d).mpr ⟨c, hc, hd⟩)⟩
    · rintro ⟨d, at', least⟩
      have up := below d ((distance d).mpr ⟨e.1, member e he, at'⟩)
      have down := least c hc best hd
      rw [at', Nat.le_antisymm down up]

def standsOut (w : World) (cs : List (List Ty)) (positions : List Nat) (i : Nat) : Bool :=
  positions.all fun j => j == i || w.moreSpecific (cs[i]?.getD []) (cs[j]?.getD [])

theorem mostSpecific_of_standsOut {i : Nat}
    (first : (nearest (w.scored args cs)).find? (w.standsOut cs (nearest (w.scored args cs))) = some i) :
    w.mostSpecific args cs = .ok (some i) := by
  unfold mostSpecific
  split
  · next nothing => rw [nothing] at first; cases first
  · next j one =>
    have same : j = i := by simpa [one, standsOut] using first
    rw [same]
  · dsimp only
    split
    · next j hj =>
      cases hj.symm.trans first
      rfl
    · next hj => cases hj.symm.trans first

theorem mostSpecific_of_nothing (nothing : nearest (w.scored args cs) = []) : w.mostSpecific args cs = .ok none := by
  unfold mostSpecific
  rw [nothing]

theorem mostSpecific_of_tie (several : nearest (w.scored args cs) ≠ [])
    (tie : (nearest (w.scored args cs)).find? (w.standsOut cs (nearest (w.scored args cs))) = none) :
    ∃ signatures types, w.mostSpecific args cs = .error (.ambiguousCall signatures types) := by
  unfold mostSpecific
  split
  · next nothing => exact absurd nothing several
  · next j one => simp [one, standsOut] at tie
  · dsimp only
    split
    · next j hj => cases hj.symm.trans tie
    · exact ⟨_, _, rfl⟩

theorem mem_nearest_scored {i : Nat} :
    i ∈ nearest (w.scored args cs) ↔ ∃ c, cs[i]? = some c ∧ w.isNearest args cs c := by
  rw [nearest_scored]
  constructor
  · intro h
    obtain ⟨e, he, rfl⟩ := List.mem_map.mp h
    obtain ⟨listed, near⟩ := List.mem_filter.mp he
    exact ⟨e.1, List.mem_zipIdx_iff_getElem?.mp listed, near⟩
  · rintro ⟨c, hc, near⟩
    exact List.mem_map.mpr ⟨(c, i), List.mem_filter.mpr ⟨List.mem_zipIdx_iff_getElem?.mpr hc, near⟩, rfl⟩

theorem prevails_at (different : cs.Nodup) {i : Nat} (hi : cs[i]? = some s) :
    w.prevails args cs s ↔ w.isNearest args cs s ∧ w.standsOut cs (nearest (w.scored args cs)) i := by
  have known {j : Nat} {c : List Ty} (hj : cs[j]? = some c) : c = s ↔ j = i := by
    have inside : j < cs.length := (List.getElem?_eq_some_iff.mp hj).1
    rw [← List.getElem?_inj inside different, hj, hi, Option.some_inj]
  rw [prevails_iff]
  refine and_congr_right fun _ => ?_
  simp only [standsOut, List.all_eq_true, Bool.or_eq_true, beq_iff_eq, hi, Option.getD_some]
  constructor
  · intro beats j hj
    obtain ⟨c, hc, near⟩ := mem_nearest_scored.mp hj
    by_cases same : j = i
    · exact .inl same
    · rw [hc]
      exact .inr (beats c (List.mem_of_getElem? hc) (mt (known hc).mp same) near)
  · intro beats c hc other near
    obtain ⟨j, hj⟩ := List.mem_iff_getElem?.mp hc
    have := beats j (mem_nearest_scored.mpr ⟨c, hj, near⟩)
    rw [hj] at this
    exact this.resolve_left (mt (known hj).mpr other)

theorem choice_eq (different : cs.Nodup) :
    w.choice args cs =
      ((cs.find? (w.prevails args cs)).map Choice.taken).getD
        (if cs.any (w.isNearest args cs) then .ambiguous else .inapplicable) := by
  -- The search goes through positions and the rule through signatures; `zipIdx` holds both.
  have positions : (nearest (w.scored args cs)).find? (w.standsOut cs (nearest (w.scored args cs))) =
      (cs.zipIdx.find? fun e => w.prevails args cs e.1).map Prod.snd := by
    refine (congrArg _ (nearest_scored w args cs)).trans ?_
    rw [List.find?_map, List.find?_filter, ← List.head?_filter, ← List.head?_filter]
    congr 2
    refine List.filter_congr fun e he => ?_
    rw [Bool.eq_iff_iff, prevails_at different (List.mem_zipIdx_iff_getElem?.mp he)]
    simp
  have signatures : cs.find? (w.prevails args cs) = (cs.zipIdx.find? fun e => w.prevails args cs e.1).map Prod.fst := by
    calc cs.find? (w.prevails args cs)
        = (cs.zipIdx.map Prod.fst).find? (w.prevails args cs) := by rw [List.zipIdx_map_fst]
      _ = (cs.zipIdx.find? fun e => w.prevails args cs e.1).map Prod.fst := List.find?_map
  rw [signatures]
  cases first : cs.zipIdx.find? fun e => w.prevails args cs e.1 with
  | some e =>
    rw [first] at positions
    have held : cs[e.2]? = some e.1 := List.mem_zipIdx_iff_getElem?.mp (List.mem_of_find?_eq_some first)
    simp [choice, mostSpecific_of_standsOut positions, held]
  | none =>
    rw [first] at positions
    by_cases nothing : nearest (w.scored args cs) = []
    · have far : ¬ cs.any (w.isNearest args cs) := by
        intro near
        obtain ⟨c, hc, near⟩ := List.any_eq_true.mp near
        obtain ⟨i, hi⟩ := List.mem_iff_getElem?.mp hc
        have := mem_nearest_scored.mpr ⟨c, hi, near⟩
        rw [nothing] at this
        cases this
      simp only [choice, mostSpecific_of_nothing nothing, Option.map_none, Option.getD_none, if_neg far]
    · obtain ⟨i, hi⟩ := List.exists_mem_of_ne_nil _ nothing
      obtain ⟨c, hc, near⟩ := mem_nearest_scored.mp hi
      have reached : cs.any (w.isNearest args cs) := List.any_eq_true.mpr ⟨c, List.mem_of_getElem? hc, near⟩
      obtain ⟨signatures, types, tie⟩ := mostSpecific_of_tie nothing positions
      simp only [choice, tie, Option.map_none, Option.getD_none, if_pos reached]

structure Rivals (w : World) (args : List Ty) (candidates : List (List Ty)) (a b : List Ty) : Prop where
  left_mem : a ∈ candidates
  right_mem : b ∈ candidates
  different : a ≠ b
  left : w.prevails args candidates a
  right : w.prevails args candidates b

theorem choice_of_perm (different : cs.Nodup) (same : cs.Perm ds) :
    w.choice args ds = w.choice args cs ∨
      ∃ a b, w.Rivals args cs a b ∧ w.choice args cs = .taken a ∧ w.choice args ds = .taken b := by
  have near : ds.any (w.isNearest args cs) = cs.any (w.isNearest args cs) := by
    rw [Bool.eq_iff_iff, List.any_eq_true, List.any_eq_true]
    simp only [same.mem_iff]
  rw [choice_eq different, choice_eq (same.nodup_iff.mp different), prevails_reordered same, isNearest_reordered same, near]
  cases left : cs.find? (w.prevails args cs) with
  | none =>
    cases right : ds.find? (w.prevails args cs) with
    | none => exact .inl rfl
    | some b =>
      have hb := same.mem_iff.mpr (List.mem_of_find?_eq_some right)
      exact absurd (List.find?_some right) (List.find?_eq_none.mp left b hb)
  | some a =>
    cases right : ds.find? (w.prevails args cs) with
    | none =>
      have ha := same.mem_iff.mp (List.mem_of_find?_eq_some left)
      exact absurd (List.find?_some left) (List.find?_eq_none.mp right a ha)
    | some b =>
      by_cases h : a = b
      · exact .inl (by rw [h])
      · have hb := same.mem_iff.mpr (List.mem_of_find?_eq_some right)
        exact .inr ⟨a, b, ⟨List.mem_of_find?_eq_some left, hb, h, List.find?_some left, List.find?_some right⟩, rfl, rfl⟩

theorem choice_of_first (different : cs.Nodup) (ha : a ∈ cs) (beats : w.prevails args cs a) :
    w.choice args (a :: cs.erase a) = .taken a := by
  have same : cs.Perm (a :: cs.erase a) := List.perm_cons_erase ha
  rw [choice_eq (same.nodup_iff.mp different), prevails_reordered same]
  simp [beats]

/-- Each type can be assigned to the other. A parameter without a type takes everything but stands
only for itself. -/
def interchangeable (w : World) (s t : Ty) : Bool :=
  decide (s = t) ||
    (decide (s ≠ .untyped) && decide (t ≠ .untyped) && w.isAssignable s t && w.isAssignable t s)

theorem length_of_isNearest (near : w.isNearest args cs s) : s.length = args.length := by
  obtain ⟨d, hd, -⟩ := isNearest_iff.mp near
  have fits := w.isSome_totalDistance args s
  rw [hd] at fits
  simp only [Option.isSome_some, signatureAssignable, Bool.true_eq, Bool.and_eq_true, beq_iff_eq] at fits
  exact fits.1.symm

theorem isAssignable_of_moreSpecific (h : w.moreSpecific a b) {i : Nat} {s t : Ty} (hs : a[i]? = some s)
    (ht : b[i]? = some t) : t = .untyped ∨ s ≠ .untyped ∧ w.isAssignable s t := by
  have pair : (s, t) ∈ a.zip b := List.mem_of_getElem? (List.getElem?_zip_eq_some.mpr ⟨hs, ht⟩)
  simp only [moreSpecific, Bool.and_eq_true, List.all_eq_true] at h
  simpa using h.2 (s, t) pair

/-- Rivals are of the same length, and their types can take each other's place. -/
theorem Rivals.interchangeable (h : w.Rivals args cs a b) :
    a.length = b.length ∧ ∀ (i : Nat) (s t : Ty), a[i]? = some s → b[i]? = some t → w.interchangeable s t := by
  obtain ⟨nearLeft, left⟩ := prevails_iff.mp h.left
  obtain ⟨nearRight, right⟩ := prevails_iff.mp h.right
  refine ⟨(length_of_isNearest nearLeft).trans (length_of_isNearest nearRight).symm, fun i s t hs ht => ?_⟩
  have forth := isAssignable_of_moreSpecific (left b h.right_mem h.different.symm nearRight) hs ht
  have back := isAssignable_of_moreSpecific (right a h.left_mem h.different nearLeft) ht hs
  simp only [World.interchangeable, Bool.or_eq_true, Bool.and_eq_true, decide_eq_true_eq]
  grind

end Order

end World

/-- The class whose objects a boxed value of the type stands for, and which stand for such values in
turn. -/
def PrimType.twin? : PrimType → Option CoreClass
  | boolean => some .bool
  | int | long => some .int
  | double => some .float
  | _ => none

namespace World

variable {w : World}

theorem eq_of_boxAssignable {p : PrimType} {c : ClassRef} (h : w.boxAssignable p (.cls c)) :
    c = .core .object ∨ c = .core .iterable ∨ ∃ k, p.boxClass? = some k ∧ c = .core k := by
  have above (k : CoreClass) (hk : k.mro = [k, .object]) (sub : w.isSubclass (.core k) c) :
      c = .core .object ∨ c = .core .iterable ∨ c = .core k := by
    simp only [isSubclass, mro, hk, List.map_cons, List.map_nil, List.contains_iff_mem, List.mem_cons, Bool.or_eq_true,
      Bool.and_eq_true, decide_eq_true_eq] at sub
    grind
  have listed (k : CoreClass) (hp : p.boxClass? = some k) (hk : k.mro = [k, .object]) (sub : w.isSubclass (.core k) c) :
      c = .core .object ∨ c = .core .iterable ∨ ∃ k, p.boxClass? = some k ∧ c = .core k :=
    (above k hk sub).imp_right (Or.imp_right fun hc => ⟨k, hp, hc⟩)
  simp only [boxAssignable] at h
  split at h
  · next hc => exact .inl hc
  split at h
  · next hp =>
    subst hp
    exact .inr (.inr ⟨.bool, rfl, of_decide_eq_true h⟩)
  split at h
  · cases h
  split at h
  · next k hk =>
    cases p with
    | boolean => contradiction
    | void => cases hk
    | _ => cases hk; exact listed _ rfl rfl h
  · cases h

theorem interchangeable_prim (w : World) (p : PrimType) (t : Ty) :
    w.interchangeable (.prim p) t ↔ t = .prim p ∨ ∃ k, p.twin? = some k ∧ t = .cls (.core k) := by
  cases t with
  | untyped => simp [interchangeable]
  | prim q => cases p <;> cases q <;> simp [interchangeable, isAssignable, distance, PrimType.widening?]
  | array d => cases p <;> simp [interchangeable, isAssignable, distance, boxAssignable]
  | module m => cases p <;> simp [interchangeable, isAssignable, distance, boxAssignable]
  | cls c =>
    constructor
    · intro h
      have both : w.isAssignable (.prim p) (.cls c) ∧ w.isAssignable (.cls c) (.prim p) := by
        simpa [interchangeable] using h
      by_cases void : p = .void
      · subst void
        cases both.1
      · obtain ⟨box, unbox⟩ := both
        rw [isAssignable_prim_cls void] at box
        -- Only the class inside the boxed value leads back, and only to the types that it is unboxed to.
        rcases eq_of_boxAssignable box with rfl | rfl | ⟨k, hk, rfl⟩
        · cases p <;> cases unbox
        · cases p <;> cases unbox
        · cases p with
          | boolean | int | long | double => cases hk; exact .inr ⟨_, rfl, rfl⟩
          | byte | short | char | float => cases hk; cases unbox
          | void => cases hk
    · rintro (h | ⟨k, hk, h⟩)
      · cases h
      · cases h
        cases p <;> cases hk <;> rfl

theorem error_of_mostSpecific {args : List Ty} {cs : List (List Ty)} {e : Cause}
    (failed : w.mostSpecific args cs = .error e) : ∃ signatures types, e = .ambiguousCall signatures types := by
  by_cases nothing : nearest (w.scored args cs) = []
  · rw [mostSpecific_of_nothing nothing] at failed
    cases failed
  · cases first : (nearest (w.scored args cs)).find? (w.standsOut cs (nearest (w.scored args cs))) with
    | some i =>
      rw [mostSpecific_of_standsOut first] at failed
      cases failed
    | none =>
      obtain ⟨signatures, types, tie⟩ := mostSpecific_of_tie nothing first
      rw [tie] at failed
      cases failed
      exact ⟨signatures, types, rfl⟩

/-- Different candidates in another order: whether one applies and whether the call is ambiguous
stays the same, and so does the signature that is taken, unless it has a rival that is taken
instead. Where there are rivals, some order does make this difference. -/
theorem order_decides_only_between_rivals (w : World) (args : List Ty) {cs : List (List Ty)}
    (different : cs.Nodup) :
    (∀ ds, cs.Perm ds → w.choice args ds = w.choice args cs ∨
      ∃ a b, w.Rivals args cs a b ∧ w.choice args cs = .taken a ∧ w.choice args ds = .taken b) ∧
    ((∀ ds, cs.Perm ds → w.choice args ds = w.choice args cs) ↔ ¬ ∃ a b, w.Rivals args cs a b) ∧
    (∀ a b, w.Rivals args cs a b → a.length = b.length ∧
      ∀ (i : Nat) (s t : Ty), a[i]? = some s → b[i]? = some t → w.interchangeable s t ∧
        ∀ p, s = .prim p → t = .prim p ∨ ∃ k, p.twin? = some k ∧ t = .cls (.core k)) ∧
    ∀ e, w.mostSpecific args cs = .error e → ∃ signatures types, e = .ambiguousCall signatures types := by
  refine ⟨fun ds same => choice_of_perm different same, ⟨?_, ?_⟩, fun a b rivals => ?_, fun e => error_of_mostSpecific⟩
  · rintro always ⟨a, b, rivals⟩
    have left := choice_of_first different rivals.left_mem rivals.left
    have right := choice_of_first different rivals.right_mem rivals.right
    rw [always _ (List.perm_cons_erase rivals.left_mem)] at left
    rw [always _ (List.perm_cons_erase rivals.right_mem), left] at right
    exact rivals.different (Choice.taken.inj right)
  · intro peaceful ds same
    rcases choice_of_perm different same with h | ⟨a, b, rivals, -⟩
    · exact h
    · exact absurd ⟨a, b, rivals⟩ peaceful
  · obtain ⟨length, types⟩ := rivals.interchangeable
    refine ⟨length, fun i s t hs ht => ⟨types i s t hs ht, ?_⟩⟩
    rintro p rfl
    exact (interchangeable_prim w p t).mp (types i _ t hs ht)

def boxingOne : List (List Ty) :=
  [[.prim .boolean, .cls (.core .bool)], [.cls (.core .bool), .prim .boolean]]

theorem order_decides_only_between_rivals_boxing :
    boxingOne.Nodup ∧
      ∃ ds, boxingOne.Perm ds ∧
        ({} : World).choice [.prim .boolean, .prim .boolean] ds ≠
          ({} : World).choice [.prim .boolean, .prim .boolean] boxingOne := by
  have different : boxingOne.Nodup := by decide
  have rivals : ({} : World).Rivals [.prim .boolean, .prim .boolean] boxingOne [.prim .boolean, .cls (.core .bool)]
      [.cls (.core .bool), .prim .boolean] := ⟨by decide, by decide, by decide, by decide, by decide⟩
  have rule := (order_decides_only_between_rivals {} [.prim .boolean, .prim .boolean] different).2.1
  refine ⟨different, Classical.byContradiction fun never => rule.mp (fun ds same => ?_) ⟨_, _, rivals⟩⟩
  exact Classical.byContradiction fun other => never ⟨ds, same, other⟩

theorem order_can_decide_between_signatures :
    ¬ ∀ (w : World) (args : List Ty) (cs ds : List (List Ty)), cs.Nodup → cs.Perm ds →
      w.choice args ds = w.choice args cs := by
  intro always
  have same := always {} [.prim .boolean, .prim .boolean] boxingOne boxingOne.reverse (by decide)
    (List.reverse_perm _).symm
  revert same
  decide

end World

end ScriptCore
