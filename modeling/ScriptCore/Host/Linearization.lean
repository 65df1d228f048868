import ScriptCore.Host.Hierarchy
import ScriptCore.Store

namespace ScriptCore

namespace Linearization

def nextHead (seqs : List (List ClassRef)) : Option ClassRef :=
  (seqs.filterMap List.head?).find? fun c => seqs.all fun s => !s.tail.contains c

def dropHead (c : ClassRef) (seqs : List (List ClassRef)) : List (List ClassRef) :=
  seqs.map fun s => if s.head? = some c then s.tail else s

def blocked (seqs : List (List ClassRef)) : List ClassRef := (seqs.filterMap List.head?).eraseDups

/-- Merges chains of ancestors so that each chain keeps its order, or gives the classes that cannot
be ordered. -/
def merge : Nat → List (List ClassRef) → Except (List ClassRef) (List ClassRef)
  | 0, seqs => if seqs.all List.isEmpty then .ok [] else .error (blocked seqs)
  | fuel + 1, seqs =>
    if seqs.all List.isEmpty then .ok []
    else
      match nextHead seqs with
      | none => .error (blocked seqs)
      | some c => (merge fuel (dropHead c seqs)).map (c :: ·)

def ancestors (w : World) (bases : List ClassRef) : Except (List ClassRef) (List ClassRef) :=
  let seqs := if bases.isEmpty then [[.core .object]] else bases.map w.mro ++ [bases]
  merge (seqs.flatten.length + 1) seqs

theorem mem_dropHead {c d : ClassRef} {s : List ClassRef} {seqs : List (List ClassRef)}
    (hs : s ∈ seqs) (hd : d ∈ s) : d = c ∨ ∃ t ∈ dropHead c seqs, d ∈ t := by
  by_cases h : s.head? = some c
  · obtain ⟨rest, rfl⟩ : ∃ rest, s = c :: rest := by
      cases s with
      | nil => cases h
      | cons x rest => exact ⟨rest, by simpa using h⟩
    rcases List.mem_cons.mp hd with rfl | hd
    · exact .inl rfl
    · exact .inr ⟨rest, List.mem_map.mpr ⟨_, hs, by simp⟩, hd⟩
  · exact .inr ⟨s, List.mem_map.mpr ⟨s, hs, by simp [h]⟩, hd⟩

theorem mem_merge {fuel : Nat} {seqs : List (List ClassRef)} {chain : List ClassRef} (h : merge fuel seqs = .ok chain)
    {s : List ClassRef} {d : ClassRef} (hs : s ∈ seqs) (hd : d ∈ s) : d ∈ chain := by
  have left (seqs : List (List ClassRef)) (s : List ClassRef) (hs : s ∈ seqs) (hd : d ∈ s) :
      ¬ seqs.all List.isEmpty := by
    intro he
    have := List.isEmpty_iff.mp (List.all_eq_true.mp he s hs)
    exact List.not_mem_nil (this ▸ hd)
  induction fuel generalizing seqs chain s with
  | zero => simp [merge, left seqs s hs hd] at h
  | succ fuel ih =>
    rw [merge, if_neg (left seqs s hs hd)] at h
    cases hc : nextHead seqs with
    | none => simp [hc] at h
    | some c =>
      cases hr : merge fuel (dropHead c seqs) with
      | error e => simp [hc, hr, Except.map] at h
      | ok rest =>
        obtain rfl : c :: rest = chain := by simpa [hc, hr, Except.map] using h
        rcases mem_dropHead (c := c) hs hd with rfl | ⟨t, ht, hd⟩
        · exact List.mem_cons_self
        · exact List.mem_cons_of_mem _ (ih hr ht hd)

theorem mem_ancestors {w : World} {bases chain : List ClassRef}
    (h : ancestors w bases = .ok chain) : ∀ b ∈ bases, b ∈ chain := by
  intro b hb
  have hn : bases.isEmpty = false := by cases bases <;> simp_all
  simp only [ancestors, hn] at h
  exact mem_merge h (List.mem_append_right _ List.mem_cons_self) hb

theorem object_mem_ancestors {w : World} {bases chain : List ClassRef}
    (h : ancestors w bases = .ok chain) : .core .object ∈ chain := by
  cases bases with
  | nil => exact mem_merge h List.mem_cons_self List.mem_cons_self
  | cons b rest =>
    simp only [ancestors, List.isEmpty_cons] at h
    exact mem_merge h (List.mem_append_left _ List.mem_cons_self) (w.object_mem_mro b)

end Linearization

structure ClassSpec where
  name : String
  qualname : String
  module : String
  bases : List ClassRef
  metaclass : ClassRef := .core .type
  members : Table Value := {}
  isProxy : Bool := false

namespace ClassSpec

def chooseMeta (w : World) : ClassRef → List ClassRef → Option ClassRef
  | m, [] => some m
  | m, b :: rest =>
    let k := w.metaclass b
    if w.isSubclass m k then chooseMeta w m rest
    else if w.isSubclass k m then chooseMeta w k rest
    else none

variable (w : World)

def layout? (c : ClassRef) : Option ClassRef :=
  (w.mro c).find? fun k => match k with | .core k => k.hasLayout | _ => false

/-- Checks the bases in order: each can be extended, and its layout extends that of the bases before
it, or is extended by it. -/
def checkLayouts (w : World) : Option ClassRef → List ClassRef → Except String Unit
  | _, [] => .ok ()
  | winner, b :: rest =>
    let closed := match b with | .core k => k.isSealed | _ => false
    if closed then .error ("type '" ++ w.className b ++ "' is not an acceptable base type")
    else
      match winner, layout? w b with
      | none, found => checkLayouts w found rest
      | some x, none => checkLayouts w (some x) rest
      | some x, some y =>
        if w.isSubclass x y then checkLayouts w (some x) rest
        else if w.isSubclass y x then checkLayouts w (some y) rest
        else .error "multiple bases have instance lay-out conflict"

def duplicate? : List ClassRef → Option ClassRef
  | [] => none
  | b :: rest => if rest.contains b then some b else duplicate? rest

def isAbstractValue : Value → Bool
  | .function (.library .greeterGreet) | .function (.library .labelledLabel) => true
  | .function (.generated n) =>
    match w.generated n with
    | .instanceMember _ abstract => abstract
    | _ => false
  | .coreMethod .iterable _ => true
  | _ => false

def leavesAbstract (members : Table Value) (chain : List ClassRef) (name : String) : Bool :=
  (((members.get? name) <|> w.memberIn chain name).map (isAbstractValue w)).getD false

def settleHash (members : Table Value) : Table Value :=
  if members.contains "__eq__" && !members.contains "__hash__" then members.put "__hash__" .none else members

def abstractsOf (s : ClassSpec) (chain : List ClassRef) : List String :=
  let own := (s.members.entries.filter fun e => isAbstractValue w e.2).map Prod.fst
  let inherited := (s.bases.flatMap w.abstracts).filter (leavesAbstract w s.members chain)
  (own ++ inherited).eraseDups

def conflict : String :=
  "metaclass conflict: the metaclass of a derived class must be a (non-strict) subclass of the metaclasses of all its bases"

def misplaced? (members : Table Value) : Option String :=
  let held := fun name => (members.get? name).map w.valueClassName
  (held "__slots__").map (fun c => "'" ++ c ++ "' object is not iterable") |>.or <|
  (held "__qualname__").map ("type __qualname__ must be a str, not " ++ ·) |>.or <|
  (held "__classcell__").map fun c => "__classcell__ must be a nonlocal cell, not <class '" ++ c ++ "'>"

def build (s : ClassSpec) : Except String MadeClass :=
  match chooseMeta w s.metaclass s.bases with
  | none =>
    .error conflict
  | some metaclass =>
    match checkLayouts w none s.bases with
    | .error e => .error e
    | .ok () =>
      match misplaced? w s.members, duplicate? s.bases with
      | some m, _ => .error m
      | none, some b => .error ("duplicate base class " ++ w.className b)
      | none, none =>
        match h : Linearization.ancestors w s.bases with
        | .error names =>
          .error ("Cannot create a consistent method resolution\norder (MRO) for bases " ++
            ", ".intercalate (names.map w.className))
        | .ok chain =>
          let abstracts :=
            if w.isSubclass metaclass (.core .abstractMeta) then abstractsOf w s chain else []
          .ok { name := s.name, qualname := s.qualname, module := s.module, bases := s.bases, ancestors := chain,
                bases_mem := Linearization.mem_ancestors h, object_mem := Linearization.object_mem_ancestors h,
                metaclass, members := settleHash s.members, abstracts, isProxy := s.isProxy }

def make (s : ClassSpec) : Plain (Except String ClassRef) := do
  let built ← Run.read fun w => build w s
  match built with
  | .error m => pure (.error m)
  | .ok c => do
    let r ← Run.newClass c
    pure (.ok r)

end ClassSpec

end ScriptCore
