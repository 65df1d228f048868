import Mathlib.Data.List.Find
import Mathlib.Data.List.Perm.Subperm
import ScriptCore.Proofs.InheritedBodies

namespace ScriptCore

namespace Linearization

/-- The steps of a merge: as long as a chain is left, a head is taken that stands in no tail. -/
inductive Merges : List (List ClassRef) → List ClassRef → Prop
  | done {seqs : List (List ClassRef)} (empty : ∀ s ∈ seqs, s = []) : Merges seqs []
  | step {seqs : List (List ClassRef)} {c : ClassRef} {chain : List ClassRef} (free : ∀ s ∈ seqs, c ∉ s.tail)
      (head : ∃ s ∈ seqs, s.head? = some c) (rest : Merges (dropHead c seqs) chain) : Merges seqs (c :: chain)

theorem merges_of_merge {fuel : Nat} {seqs : List (List ClassRef)} {chain : List ClassRef}
    (h : merge fuel seqs = .ok chain) : Merges seqs chain := by
  induction fuel generalizing seqs chain with
  | zero =>
    unfold merge at h
    split at h
    · next empty =>
      cases h
      exact .done (by simpa using empty)
    · cases h
  | succ fuel ih =>
    unfold merge at h
    split at h
    · next empty =>
      cases h
      exact .done (by simpa using empty)
    · split at h
      · cases h
      · next c found =>
        cases rest : merge fuel (dropHead c seqs) with
        | error e => simp [rest, Except.map] at h
        | ok tail =>
          obtain rfl : c :: tail = chain := by simpa [rest, Except.map] using h
          refine .step ?_ ?_ (ih rest)
          · simpa using List.find?_some found
          · obtain ⟨s, hs, head⟩ := List.mem_filterMap.mp (List.mem_of_find?_eq_some found)
            exact ⟨s, hs, head⟩

variable {seqs : List (List ClassRef)} {chain : List ClassRef}

theorem Merges.exists_mem (h : Merges seqs chain) {d : ClassRef} (hd : d ∈ chain) : ∃ s ∈ seqs, d ∈ s := by
  induction h with
  | done empty => cases hd
  | @step seqs c chain free head rest ih =>
    rcases List.mem_cons.mp hd with rfl | hd
    · obtain ⟨s, hs, first⟩ := head
      exact ⟨s, hs, List.mem_of_mem_head? first⟩
    · obtain ⟨t, ht, hd⟩ := ih hd
      obtain ⟨s, hs, rfl⟩ := List.mem_map.mp ht
      refine ⟨s, hs, ?_⟩
      split at hd
      · exact List.mem_of_mem_tail hd
      · exact hd

theorem Merges.sublist (h : Merges seqs chain) {s : List ClassRef} (hs : s ∈ seqs) : s.Sublist chain := by
  induction h generalizing s with
  | done empty => rw [empty s hs]
  | @step seqs c chain free head rest ih =>
    have left := ih (List.mem_map_of_mem hs)
    split at left
    · next first =>
      obtain ⟨tail, rfl⟩ := List.head?_eq_some_iff.mp first
      exact left.cons_cons c
    · exact left.cons c

theorem Merges.nodup (h : Merges seqs chain) : chain.Nodup := by
  induction h with
  | done empty => exact List.nodup_nil
  | @step seqs c chain free head rest ih =>
    refine List.nodup_cons.mpr ⟨fun later => ?_, ih⟩
    -- A class that was taken is no head any more, and it never stood in a tail.
    obtain ⟨t, ht, hc⟩ := rest.exists_mem later
    obtain ⟨s, hs, rfl⟩ := List.mem_map.mp ht
    split at hc
    · exact free s hs hc
    · next other =>
      cases s with
      | nil => cases hc
      | cons d tail =>
        rcases List.mem_cons.mp hc with rfl | hc
        · exact other rfl
        · exact free _ hs hc

theorem merges_of_ancestors {w : World} {bases : List ClassRef} (h : ancestors w bases = .ok chain) :
    ∃ seqs, Merges seqs chain ∧ (∀ b ∈ bases, w.mro b ∈ seqs) ∧
      ∀ s ∈ seqs, s = [.core .object] ∨ s = bases ∨ ∃ b ∈ bases, s = w.mro b := by
  refine ⟨_, merges_of_merge h, fun b hb => ?_, fun s hs => ?_⟩
  · have given : bases.isEmpty = false := by cases bases <;> simp_all
    simp only [given]
    exact List.mem_append_left _ (List.mem_map_of_mem hb)
  · split at hs
    · exact .inl (List.mem_singleton.mp hs)
    · rcases List.mem_append.mp hs with hs | hs
      · obtain ⟨b, hb, rfl⟩ := List.mem_map.mp hs
        exact .inr (.inr ⟨b, hb, rfl⟩)
      · exact .inr (.inl (List.mem_singleton.mp hs))

end Linearization

namespace World

variable {w w' : World} {c : ClassRef} {part : ScriptPart}

/-- Classes extend only classes that are there, each of them once, and keep the order in which these
have what they extend. -/
structure Linearised (w : World) : Prop where
  founded : ∀ n m, .made m ∈ (w.made n).ancestors → m < w.classes.size
  kept : ∀ n m, .made m ∈ (w.made n).ancestors → (w.mro (.made m)).Sublist (w.made n).ancestors
  nodup : ∀ n, (w.mro (.made n)).Nodup

theorem made_of_size_le {n : Nat} (outside : w.classes.size ≤ n) : w.made n = default := by
  rw [made, Array.getElem?_eq_none outside]
  rfl

theorem lt_of_made_mem_ancestors {n m : Nat} (hm : .made m ∈ (w.made n).ancestors) : n < w.classes.size := by
  refine Nat.lt_of_not_le fun outside => ?_
  rw [made_of_size_le outside] at hm
  simp [default] at hm

def HasClass (w : World) : ClassRef → Prop
  | .made n => n < w.classes.size
  | _ => True

instance (c : ClassRef) : Decidable (w.HasClass c) :=
  match c with
  | .made n => inferInstanceAs (Decidable (n < w.classes.size))
  | .core _ => inferInstanceAs (Decidable True)
  | .library _ => inferInstanceAs (Decidable True)

theorem Linearised.of_lt (h : ∀ n < w.classes.size, (w.mro (.made n)).Nodup ∧
    ∀ k ∈ (w.made n).ancestors, w.HasClass k ∧ (w.mro k).Sublist (w.made n).ancestors) : w.Linearised := by
  have above {n m : Nat} (hm : .made m ∈ (w.made n).ancestors) := (h n (lt_of_made_mem_ancestors hm)).2 _ hm
  refine ⟨fun n m hm => (above hm).1, fun n m hm => (above hm).2, fun n => ?_⟩
  by_cases there : n < w.classes.size
  · exact (h n there).1
  · rw [mro, made_of_size_le (Nat.le_of_not_lt there)]
    simp [default]

theorem SameClasses.made {n : Nat} (h : w.SameClasses w') (inside : n < w.classes.size) :
    (w.made n).SameClass (w'.made n) := by
  have here : w.classes[n]? = some (w.made n) := by simp [World.made, inside]
  obtain ⟨y, hy, same⟩ := h.kept here
  have there : w'.made n = y := by rw [World.made, hy]; rfl
  rw [there]
  exact same

theorem exists_made_of_script (h : w.script? c = some part) : ∃ n, c = .made n ∧ n < w.classes.size := by
  cases c with
  | core k => cases h
  | library k => cases h
  | made n =>
    refine ⟨n, rfl, Nat.lt_of_not_le fun outside => ?_⟩
    rw [script?, made_of_size_le outside] at h
    cases h

theorem SameClasses.script_of_some (h : w.SameClasses w') (script : w.script? c = some part) :
    w'.script? c = some part := by
  obtain ⟨n, rfl, inside⟩ := exists_made_of_script script
  exact ((h.made inside).script).trans script

theorem SameClasses.mro_of_script (h : w.SameClasses w') (script : w.script? c = some part) : w'.mro c = w.mro c := by
  obtain ⟨n, rfl, inside⟩ := exists_made_of_script script
  simp only [mro, (h.made inside).ancestors]

theorem SameClasses.script_of_mem (h : w.SameClasses w') (linear : w.Linearised) (script : w.script? c = some part)
    {k : ClassRef} (hk : k ∈ (w.mro c).tail) : w'.script? k = w.script? k := by
  obtain ⟨n, rfl, -⟩ := exists_made_of_script script
  cases k with
  | core k => rfl
  | library k => rfl
  | made m => exact (h.made (linear.founded n m hk)).script

theorem inheritedScript_of_script (h : w.script? c = some part) : w.inheritedScript? c = some part := by
  obtain ⟨n, rfl, -⟩ := exists_made_of_script h
  simp only [inheritedScript?, mro, List.findSome?_cons, h]

theorem exists_of_made_mem_mro {m : Nat} {b : ClassRef} (h : .made m ∈ w.mro b) :
    ∃ n, b = .made n ∧ (m = n ∨ .made m ∈ (w.made n).ancestors) := by
  cases b with
  | core k =>
    obtain ⟨j, -, hj⟩ := List.mem_map.mp h
    cases hj
  | library k =>
    rcases List.mem_cons.mp h with h | h
    · cases h
    · split at h
      · simp at h
      · obtain ⟨j, -, hj⟩ := List.mem_map.mp h
        cases hj
  | made n =>
    refine ⟨n, rfl, ?_⟩
    simpa [mro] using h

end World

theorem ClassSpec.ancestors_of_build {w : World} {spec : ClassSpec} {x : MadeClass}
    (h : spec.build w = .ok x) : Linearization.ancestors w spec.bases = .ok x.ancestors := by
  unfold ClassSpec.build at h
  split at h
  · cases h
  · split at h
    · cases h
    · split at h
      · cases h
      · cases h
      · split at h
        · cases h
        · next linear =>
          cases h
          exact linear

namespace World

variable {w w' : World} {c : ClassRef}

theorem Linearised.make (linear : w.Linearised) {spec : ClassSpec} (there : ∀ m, .made m ∈ spec.bases → m < w.classes.size)
    (h : spec.make.run w = .done (.ok c) w') : w'.Linearised := by
  obtain ⟨-, x, built, rfl⟩ := (spec.meets_make w).of_done h c rfl
  obtain ⟨seqs, merges, given, chains⟩ := Linearization.merges_of_ancestors (ClassSpec.ancestors_of_build built)
  have older (m : Nat) (hm : .made m ∈ x.ancestors) : m < w.classes.size ∧ (w.mro (.made m)).Sublist x.ancestors := by
    obtain ⟨s, hs, hm⟩ := merges.exists_mem hm
    rcases chains s hs with rfl | rfl | ⟨b, hb, rfl⟩
    · simp at hm
    · exact ⟨there m hm, merges.sublist (given _ hm)⟩
    · obtain ⟨n, rfl, rfl | below⟩ := exists_of_made_mem_mro hm
      · exact ⟨there m hb, merges.sublist hs⟩
      · exact ⟨linear.founded n m below, ((linear.kept n m below).cons _).trans (merges.sublist hs)⟩
  -- All but the new class are what they were, and a class that is not there extends no class that is made.
  have before (n : Nat) (hn : n ≠ w.classes.size) :
      ({ w with classes := w.classes.push { x with script := none } } : World).made n = w.made n := by
    simp [World.made, Array.getElem?_push, hn]
  have new : ({ w with classes := w.classes.push { x with script := none } } : World).made w.classes.size =
      { x with script := none } := by
    simp [World.made]
  have line (m : Nat) (hm : m < w.classes.size) :
      ({ w with classes := w.classes.push { x with script := none } } : World).mro (.made m) = w.mro (.made m) := by
    simp only [mro, before m (Nat.ne_of_lt hm)]
  refine ⟨fun n m hm => ?_, fun n m hm => ?_, fun n => ?_⟩
  · rw [Array.size_push]
    by_cases hn : n = w.classes.size
    · subst hn
      rw [new] at hm
      exact Nat.lt_succ_of_lt (older m hm).1
    · rw [before n hn] at hm
      exact Nat.lt_succ_of_lt (linear.founded n m hm)
  · by_cases hn : n = w.classes.size
    · subst hn
      rw [new] at hm ⊢
      rw [line m (older m hm).1]
      exact (older m hm).2
    · rw [before n hn] at hm ⊢
      rw [line m (linear.founded n m hm)]
      exact linear.kept n m hm
  · by_cases hn : n = w.classes.size
    · subst hn
      rw [mro, new]
      exact List.nodup_cons.mpr ⟨fun itself => Nat.lt_irrefl _ (older _ itself).1, merges.nodup⟩
    · rw [mro, before n hn]
      exact linear.nodup n

end World

namespace Evaluator

variable {w w' : World} {c : ClassRef} {part : ScriptPart}

def isScriptedClass (w : World) (k : ClassRef) : Bool := ((w.script? k).map fun s => !s.isInterface).getD false

theorem isScriptedClass_iff {k : ClassRef} :
    isScriptedClass w k = true ↔ ∃ part, w.script? k = some part ∧ part.isInterface = false := by
  unfold isScriptedClass
  cases w.script? k with
  | none => simp
  | some part => simp

def scriptedClasses (w : World) (c : ClassRef) : List ClassRef := (w.mro c).filter (isScriptedClass w)

/-- The line of nearest scripted superclasses above a class, from its root down. -/
inductive Lineage (w : World) : ClassRef → List ClassRef → Prop
  | root {c : ClassRef} (none : scriptedSuperclass? w c = none) : Lineage w c []
  | under {c p : ClassRef} {upper : List ClassRef} (nearest : scriptedSuperclass? w c = some p) (rest : Lineage w p upper) :
      Lineage w c (upper ++ [p])

theorem scriptedSuperclass_eq (h : w.SameClasses w') (linear : w.Linearised)
    (script : w.script? c = some part) : scriptedSuperclass? w' c = scriptedSuperclass? w c := by
  unfold scriptedSuperclass?
  rw [h.mro_of_script script]
  exact List.find?_congr fun k hk => by rw [h.script_of_mem linear script hk]

theorem isScriptedClass_of_scriptedSuperclass {p : ClassRef}
    (h : scriptedSuperclass? w c = some p) : isScriptedClass w p = true := List.find?_some h

theorem exists_scriptedClasses (linear : w.Linearised) (scripted : isScriptedClass w c = true) :
    ∃ rest, scriptedClasses w c = c :: rest ∧ (c :: rest).Nodup ∧
      ∀ p, scriptedSuperclass? w c = some p → (scriptedClasses w p).Sublist rest := by
  obtain ⟨part, script, -⟩ := isScriptedClass_iff.mp scripted
  obtain ⟨n, rfl, -⟩ := World.exists_made_of_script script
  have first : scriptedClasses w (.made n) = .made n :: (w.made n).ancestors.filter (isScriptedClass w) :=
    List.filter_cons_of_pos scripted
  refine ⟨_, first, ?_, fun p nearest => ?_⟩
  · rw [← first]
    exact (linear.nodup n).filter _
  · obtain ⟨part, script, -⟩ := isScriptedClass_iff.mp (isScriptedClass_of_scriptedSuperclass nearest)
    obtain ⟨m, rfl, -⟩ := World.exists_made_of_script script
    exact (linear.kept n m (List.mem_of_find?_eq_some nearest)).filter _

theorem Lineage.sublist {upper : List ClassRef} (h : Lineage w c upper) (linear : w.Linearised)
    (scripted : isScriptedClass w c = true) : (upper ++ [c]).reverse.Sublist (scriptedClasses w c) := by
  induction h with
  | root none =>
    obtain ⟨rest, first, -⟩ := exists_scriptedClasses linear scripted
    rw [first]
    exact (List.nil_sublist rest).cons_cons _
  | @under c p upper nearest rest ih =>
    obtain ⟨rest, first, -, above⟩ := exists_scriptedClasses linear scripted
    rw [first, List.reverse_append]
    exact ((ih (isScriptedClass_of_scriptedSuperclass nearest)).trans (above p nearest)).cons_cons c

theorem Lineage.eq_scriptedClasses {upper : List ClassRef} (h : Lineage w c upper) (linear : w.Linearised)
    (scripted : isScriptedClass w c = true) (all : ∀ k ∈ scriptedClasses w c, k ∈ upper ++ [c]) :
    upper ++ [c] = (scriptedClasses w c).reverse := by
  obtain ⟨rest, first, distinct, -⟩ := exists_scriptedClasses linear scripted
  rw [← first] at distinct
  have within : scriptedClasses w c ⊆ (upper ++ [c]).reverse := fun k hk => List.mem_reverse.mpr (all k hk)
  rw [← (h.sublist linear scripted).eq_of_length_le (List.Nodup.subperm distinct within).length_le, List.reverse_reverse]

end Evaluator

end ScriptCore
