import ScriptCore.Proofs.InstanceMethods
import ScriptCore.Proofs.NameChanges
import ScriptCore.Proofs.Snapshots

namespace ScriptCore

namespace World

variable {w w' : World} {s t f inst : ScopeId} {c : ClassRef} {i : ObjectId}

def bodyClass? (w : World) (s : ScopeId) : Option ClassRef := (w.ancestry s).findSome? fun t => (w.scope t).executing

/-- The scopes around a scope are marked as before: which of them belong to classes, and to which
instances. -/
def SameMarks (w w' : World) (s : ScopeId) : Prop :=
  ∀ t ∈ w.ancestry s, (w'.scope t).isClass = (w.scope t).isClass ∧ (w'.scope t).classInstance = (w.scope t).classInstance

structure IsScopeOf (w : World) (inst : ScopeId) (i : ObjectId) : Prop where
  inside : inst < w.scopes.size
  plain : (w.scope inst).isBlock = false
  isClass : (w.scope inst).isClass = true
  linked : (w.scope inst).classInstance = some (.object i)

/-- Code in the scope belongs to a body that the class declares, and runs for the instance. -/
structure RunsFor (w : World) (c : ClassRef) (i : ObjectId) (inst s : ScopeId) : Prop where
  inside : s < w.scopes.size
  body : w.bodyClass? s = some c
  around : ∃ inner outer, w.ancestry s = inner ++ inst :: outer ∧ ∀ t ∈ inner, (w.scope t).isClass = false
  owner : w.IsScopeOf inst i

theorem findSome?_executing {around : List ScopeId}
    (same : ∀ t ∈ around, (w'.scope t).executing = (w.scope t).executing) :
    (around.findSome? fun t => (w'.scope t).executing) = around.findSome? fun t => (w.scope t).executing := by
  induction around with
  | nil => rfl
  | cons t rest ih =>
    rw [List.findSome?_cons, List.findSome?_cons, same t List.mem_cons_self,
      ih fun u hu => same u (List.mem_cons_of_mem t hu)]

theorem lt_of_mem_ancestry (inside : s < w.scopes.size) (h : t ∈ w.ancestry s) : t < w.scopes.size := by
  rcases mem_ancestry h with rfl | ⟨older, -⟩
  · exact inside
  · exact Nat.lt_trans older inside

variable {x : Scope}

theorem scope_of_newScope (h : (Run.newScope x).run w = .done f w') :
    f = w.scopes.size ∧ w'.scopes.size = w.scopes.size + 1 ∧ w'.scope f = { x with methods := {}, vars := {} } ∧
      ∀ t < w.scopes.size, w'.scope t = w.scope t := by
  cases h
  refine ⟨rfl, by simp, by simp [scope], fun t ht => ?_⟩
  simp [scope, Array.getElem?_push, Nat.ne_of_lt ht]

theorem ancestry_of_newScope (h : (Run.newScope x).run w = .done f w') (parent : x.parent = some s)
    (inside : s < w.scopes.size) : w'.ancestry f = f :: w.ancestry s := by
  obtain ⟨rfl, -, new, same⟩ := scope_of_newScope h
  have up : (w'.scope w.scopes.size).parent = some s := by rw [new]; exact parent
  rw [ancestry_of_parent up inside, ancestry_eq fun t ht => by rw [same t (lt_of_mem_ancestry inside ht)]]

theorem IsScopeOf.of_newScope (owner : w.IsScopeOf inst i)
    (h : (Run.newScope x).run w = .done f w') : w'.IsScopeOf inst i := by
  obtain ⟨rfl, size, -, same⟩ := scope_of_newScope h
  have here := same inst owner.inside
  exact ⟨size ▸ Nat.lt_succ_of_lt owner.inside, here ▸ owner.plain, here ▸ owner.isClass, here ▸ owner.linked⟩

theorem IsScopeOf.runsFor (owner : w.IsScopeOf inst i) (h : (Run.newScope x).run w = .done f w')
    (parent : x.parent = some inst) (executing : x.executing = some c) (frame : x.isClass = false) :
    w'.RunsFor c i inst f := by
  have around := ancestry_of_newScope h parent owner.inside
  obtain ⟨outer, head⟩ := w.head_ancestry inst
  obtain ⟨rfl, size, new, -⟩ := scope_of_newScope h
  refine ⟨by simp [size], ?_, ⟨[w.scopes.size], outer, ?_, ?_⟩, owner.of_newScope h⟩
  · simp [bodyClass?, around, new, executing]
  · rw [around, head]
    rfl
  · simp [new, frame]

theorem RunsFor.of_newScope (runs : w.RunsFor c i inst s) (h : (Run.newScope x).run w = .done f w')
    (parent : x.parent = some s) (executing : x.executing = none) (frame : x.isClass = false) :
    w'.RunsFor c i inst f := by
  have around := ancestry_of_newScope h parent runs.inside
  obtain ⟨inner, outer, split, unmarked⟩ := runs.around
  have inside (t : ScopeId) (ht : t ∈ w.ancestry s) : t < w.scopes.size := lt_of_mem_ancestry runs.inside ht
  obtain ⟨rfl, size, new, same⟩ := scope_of_newScope h
  refine ⟨by simp [size], ?_, ⟨w.scopes.size :: inner, outer, by rw [around, split]; rfl, ?_⟩, runs.owner.of_newScope h⟩
  · rw [bodyClass?, around, List.findSome?_cons, new, executing, ← runs.body]
    exact findSome?_executing fun t ht => by rw [same t (inside t ht)]
  · intro t ht
    rcases List.mem_cons.mp ht with rfl | ht
    · rw [new]
      exact frame
    · rw [same t (inside t (by simp [split, ht]))]
      exact unmarked t ht

theorem SameBodies.executing (h : w.SameBodies w') (inside : s < w.scopes.size) :
    (w'.scope s).executing = (w.scope s).executing := by
  obtain ⟨y, hy, same⟩ := Grows.kept h (Array.getElem?_eq_getElem inside)
  rw [scope, scope, hy, Array.getElem?_eq_getElem inside]
  exact same

theorem RunsFor.later (runs : w.RunsFor c i inst s) (frames : w.SameFrames w')
    (upheld : w.Upholds w') (marks : w.SameMarks w' s) : w'.RunsFor c i inst s := by
  have inside (t : ScopeId) (ht : t ∈ w.ancestry s) : t < w.scopes.size := lt_of_mem_ancestry runs.inside ht
  have around : w'.ancestry s = w.ancestry s := ancestry_eq fun t ht => (frames.scope (inside t ht)).parent
  obtain ⟨inner, outer, split, unmarked⟩ := runs.around
  obtain ⟨isClass, linked⟩ := marks inst (by simp [split])
  have size : w.scopes.size ≤ w'.scopes.size := Grows.size frames
  refine ⟨Nat.lt_of_lt_of_le runs.inside size, ?_, ⟨inner, outer, by rw [around, split], fun t ht => ?_⟩, ?_⟩
  · rw [bodyClass?, around, ← runs.body]
    exact findSome?_executing fun t ht => upheld.bodies.executing (inside t ht)
  · rw [(marks t (by simp [split, ht])).1]
    exact unmarked t ht
  · exact ⟨Nat.lt_of_lt_of_le runs.owner.inside size,
      (frames.scope runs.owner.inside).isBlock.trans runs.owner.plain, isClass.trans runs.owner.isClass,
      linked.trans runs.owner.linked⟩

theorem parent_of_ancestry {rest : List ScopeId} (h : w.ancestry s = s :: t :: rest) : (w.scope s).parent = some t := by
  unfold ancestry at h
  cases s with
  | zero => cases h
  | succ n =>
    rw [nearestScopes] at h
    split at h
    · cases h
    · next p up =>
      split at h
      · next older =>
        rw [nearestScopes_of_le (Nat.le_of_lt_succ older)] at h
        obtain ⟨outer, head⟩ := w.head_ancestry p
        rw [head] at h
        cases h
        exact up
      · cases h

theorem classScope?_of_split {inner outer : List ScopeId} (split : w.ancestry s = inner ++ inst :: outer)
    (unmarked : ∀ t ∈ inner, (w.scope t).isClass = false) (isClass : (w.scope inst).isClass = true) :
    w.classScope? s = some inst := by
  induction inner generalizing s with
  | nil => simp [classScope?, split, isClass]
  | cons t inner ih =>
    obtain ⟨rest, head⟩ := w.head_ancestry s
    obtain rfl : s = t := by rw [head] at split; cases split; rfl
    have plain := unmarked s List.mem_cons_self
    cases inner with
    | nil =>
      have parent : (w.scope s).parent = some inst := parent_of_ancestry split
      rw [classScope?, split, List.singleton_append, List.findSome?_cons, List.findSome?_cons]
      simp only [plain, parent, isClass, Bool.false_eq_true, if_true, if_false, Bool.and_true]
      cases (w.scope s).isMethod <;> rfl
    | cons u inner =>
      have parent : (w.scope s).parent = some u := parent_of_ancestry split
      have behind : w.ancestry s = [s] ++ u :: (inner ++ inst :: outer) := split
      have next : w.ancestry u = (u :: inner) ++ inst :: outer := ancestry_of_split behind
      have further := ih next fun t ht => unmarked t (List.mem_cons_of_mem s ht)
      have skipped : w.classScope? s = w.classScope? u := by
        rw [classScope?, classScope?, next, split, List.cons_append, List.findSome?_cons]
        simp [plain, parent, unmarked u]
      rw [skipped, further]

theorem ancestry_enclosing {inner outer : List ScopeId}
    (split : w.ancestry s = inner ++ inst :: outer) (plain : (w.scope inst).isBlock = false) :
    ∃ inner', w.ancestry (w.enclosing s) = inner' ++ inst :: outer ∧ inner' ⊆ inner := by
  cases nearest : inner.find? fun t => !(w.scope t).isBlock with
  | none =>
    have blocks : ∀ u ∈ inner, (w.scope u).isBlock := by simpa using nearest
    rw [enclosing_of_split split blocks plain]
    exact ⟨[], ancestry_of_split split, List.nil_subset inner⟩
  | some e =>
    obtain ⟨found, before, after, rfl, blocks⟩ := List.find?_eq_some_iff_append.mp nearest
    have later : w.ancestry s = before ++ e :: (after ++ inst :: outer) := by simp [split]
    rw [enclosing_of_split later (by simpa using blocks) (by simpa using found)]
    exact ⟨e :: after, ancestry_of_split later, List.subset_append_right before _⟩

theorem RunsFor.superInstance (runs : w.RunsFor c i inst s) : Evaluator.superInstance? w s = some (.object i) := by
  obtain ⟨inner, outer, split, unmarked⟩ := runs.around
  obtain ⟨inner', around, within⟩ := ancestry_enclosing split runs.owner.plain
  have found := classScope?_of_split around (fun t ht => unmarked t (within ht)) runs.owner.isClass
  obtain ⟨rest, head⟩ := w.head_ancestry inst
  simp [Evaluator.superInstance?, found, classInstance?, head, runs.owner.linked]

end World

namespace Evaluator

/-- The scope belongs to a body that the class declares and that runs for the instance: it is the
frame of a method or of a constructor, or a block or the frame of a local function inside. -/
inductive InBody (c : ClassRef) (i : ObjectId) (inst : ScopeId) : World → ScopeId → Prop
  | method {w w' : World} {f : ScopeId} {decl : Node} {m : Method} (owner : w.IsScopeOf inst i)
      (built : BuiltFor inst c decl m) (caller : Node) (entered : (methodFrame m caller).run w = .done f w') :
      InBody c i inst w' f
  | constructor {w w' : World} {f : ScopeId} (owner : w.IsScopeOf inst i) (name : String) (caller : Node)
      (chosen : Nat × Method) (entered : (constructorFrame c name inst caller (some chosen)).run w = .done f w') :
      InBody c i inst w' f
  | block {w w' : World} {s f : ScopeId} (inside : InBody c i inst w s) (name : Option String)
      (entered : (Run.newBlock s name).run w = .done f w') : InBody c i inst w' f
  | function {w w' : World} {σ σ' : EvalState} {s f : ScopeId} {decl : Node} {m : Method} (inside : InBody c i inst w s)
      (built : buildMethod decl s σ = .done m σ') (caller : Node) (entered : (methodFrame m caller).run w = .done f w') :
      InBody c i inst w' f
  | later {w w' : World} {s : ScopeId} (inside : InBody c i inst w s) (frames : w.SameFrames w') (upheld : w.Upholds w')
      (marks : w.SameMarks w' s) : InBody c i inst w' s

theorem InBody.runsFor {c : ClassRef} {i : ObjectId} {inst s : ScopeId} {w : World}
    (h : InBody c i inst w s) : w.RunsFor c i inst s := by
  induction h with
  | method owner built caller entered =>
    obtain ⟨m', σ, σ', made, rfl⟩ := built
    exact owner.runsFor entered (congrArg some (built_of_buildMethod made).1) rfl rfl
  | constructor owner name caller chosen entered => exact owner.runsFor entered rfl rfl rfl
  | block inside name entered ih =>
    exact ih.of_newScope (x := { name := _, parent := some _, isBlock := true }) entered rfl rfl rfl
  | function inside built caller entered ih =>
    obtain ⟨home, -, undeclared⟩ := built_of_buildMethod built
    exact ih.of_newScope entered (congrArg some home) undeclared rfl
  | later inside frames upheld marks ih => exact ih.later frames upheld marks

end Evaluator

end ScriptCore
