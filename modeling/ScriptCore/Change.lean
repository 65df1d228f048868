import ScriptCore.Path
import ScriptCore.World

namespace ScriptCore

/-- A list of entries that only grows: an entry that was there is related to what it was, and a new
one satisfies `fresh`. -/
structure Grows {α : Type} (related : α → α → Prop) (fresh : α → Prop) (a b : Array α) : Prop where
  size : a.size ≤ b.size
  entry : ∀ (i : Nat) y, b[i]? = some y → (∃ x, a[i]? = some x ∧ related x y) ∨ (a[i]? = none ∧ fresh y)

namespace Grows

variable {α : Type} {related : α → α → Prop} {fresh : α → Prop} {a b c : Array α}

theorem refl (hr : ∀ x, related x x) (a : Array α) : Grows related fresh a a :=
  ⟨Nat.le_refl _, fun _ y h => .inl ⟨y, h, hr y⟩⟩

theorem trans (hr : ∀ x y z, related x y → related y z → related x z)
    (hf : ∀ x y, fresh x → related x y → fresh y) (hab : Grows related fresh a b) (hbc : Grows related fresh b c) :
    Grows related fresh a c := by
  refine ⟨Nat.le_trans hab.size hbc.size, fun i z hz => ?_⟩
  rcases hbc.entry i z hz with ⟨y, hy, hyz⟩ | ⟨hy, hz⟩
  · rcases hab.entry i y hy with ⟨x, hx, hxy⟩ | ⟨hx, hy⟩
    · exact .inl ⟨x, hx, hr x y z hxy hyz⟩
    · exact .inr ⟨hx, hf y z hy hyz⟩
  · refine .inr ⟨?_, hz⟩
    have := hab.size
    simp only [Array.getElem?_eq_none_iff] at hy ⊢
    omega

theorem imp {related' : α → α → Prop} {fresh' : α → Prop} (hr : ∀ x y, related x y → related' x y)
    (hf : ∀ y, fresh y → fresh' y) (h : Grows related fresh a b) : Grows related' fresh' a b := by
  refine ⟨h.size, fun i y hy => ?_⟩
  rcases h.entry i y hy with ⟨x, hx, hxy⟩ | ⟨hn, hy⟩
  · exact .inl ⟨x, hx, hr x y hxy⟩
  · exact .inr ⟨hn, hf y hy⟩

theorem push (hr : ∀ x, related x x) {y : α} (hy : fresh y) : Grows related fresh a (a.push y) := by
  refine ⟨by simp, fun i z hz => ?_⟩
  rw [Array.getElem?_push] at hz
  split at hz
  · next h => cases hz; exact .inr ⟨by simp [h], hy⟩
  · exact .inl ⟨z, hz, hr z⟩

theorem modify (hr : ∀ x, related x x) {i : Nat} {f : α → α}
    (hf : ∀ x, a[i]? = some x → related x (f x)) : Grows related fresh a (a.modify i f) := by
  refine ⟨by simp, fun j y hy => ?_⟩
  rw [Array.getElem?_modify] at hy
  split at hy
  · next h =>
    subst h
    obtain ⟨x, hx, rfl⟩ := Option.map_eq_some_iff.mp hy
    exact .inl ⟨x, hx, hf x hx⟩
  · exact .inl ⟨y, hy, hr y⟩

theorem kept (h : Grows related fresh a b) {i : Nat} {x : α} (hx : a[i]? = some x) :
    ∃ y, b[i]? = some y ∧ related x y := by
  have hi : i < b.size := Nat.lt_of_lt_of_le (Array.getElem?_eq_some_iff.mp hx).1 h.size
  have hy : b[i]? = some b[i] := Array.getElem?_eq_getElem hi
  rcases h.entry i _ hy with ⟨x', hx', hr⟩ | ⟨hn, -⟩
  · rw [hx] at hx'; cases hx'; exact ⟨_, hy, hr⟩
  · rw [hx] at hn; cases hn

theorem code_mem {code : α → List Node} (h : Grows related fresh a b) (hr : ∀ x y, related x y → code y ⊆ code x)
    (hf : ∀ y, fresh y → code y = []) {y : α} {n : Node} (hy : y ∈ b) (hn : n ∈ code y) : ∃ x ∈ a, n ∈ code x := by
  obtain ⟨i, hi⟩ := Array.mem_iff_getElem?.mp hy
  rcases h.entry i y hi with ⟨x, hx, hxy⟩ | ⟨-, hy⟩
  · exact ⟨x, Array.mem_iff_getElem?.mpr ⟨i, hx⟩, hr x y hxy hn⟩
  · rw [hf y hy] at hn; cases hn

end Grows

def Scope.code (x : Scope) : List Node := x.methods.values.flatten.map Method.body

def Obj.code (o : Obj) : List Node := (o.classMethods.flatMap Prod.snd).map Method.body

def ClassBody.nodes (b : ClassBody) : List Node :=
  b.nested ++ b.statics ++ b.fields ++ b.methods ++ b.abstracts ++ b.constructors

def MadeClass.code (c : MadeClass) : List Node := (c.script.map fun p => p.body.nodes).getD []

def Payload.component? : Payload → Option Ty
  | .array c _ => some c
  | _ => none

/-- A scope is still what it was made as: where it stands, whether it is a block, and which call it
was made for. -/
structure Scope.SameFrame (x y : Scope) : Prop where
  parent : y.parent = x.parent
  isBlock : y.isBlock = x.isBlock
  caller : y.caller = x.caller
  running : y.running = x.running

def Scope.SameBody (x y : Scope) : Prop := y.executing = x.executing

structure Scope.Calm (x y : Scope) : Prop where
  code : y.code ⊆ x.code
  vars : y.vars = x.vars
  frame : x.SameFrame y
  body : x.SameBody y

def Scope.SamePlace (x y : Scope) : Prop := y.parent = x.parent

structure Scope.Fresh (x : Scope) : Prop where
  code : x.code = []
  vars : x.vars = {}

def Obj.SameMethods (x y : Obj) : Prop := y.classMethods = x.classMethods

/-- An object keeps the methods that it has for such calls; it may get more. -/
def Obj.KeepsMethods (x y : Obj) : Prop := x.classMethods <+: y.classMethods

structure Obj.Calm (x y : Obj) : Prop where
  methods : x.SameMethods y
  cls : y.cls = x.cls
  component : y.payload.component? = x.payload.component?

/-- A class is still what it was declared as: what it extends, and what it is to scripts. -/
structure MadeClass.SameClass (x y : MadeClass) : Prop where
  ancestors : y.ancestors = x.ancestors
  script : y.script = x.script

structure MadeClass.Calm (x y : MadeClass) : Prop where
  script : y.script = x.script
  bases : y.bases = x.bases
  ancestors : y.ancestors = x.ancestors
  metaclass : y.metaclass = x.metaclass
  abstracts : y.abstracts = x.abstracts
  members : ∀ name, x.members.contains name → y.members.contains name

namespace Scope.SameFrame

theorem refl (x : Scope) : x.SameFrame x := ⟨rfl, rfl, rfl, rfl⟩

theorem trans {x y z : Scope} (h : x.SameFrame y) (k : y.SameFrame z) : x.SameFrame z :=
  ⟨k.parent.trans h.parent, k.isBlock.trans h.isBlock, k.caller.trans h.caller, k.running.trans h.running⟩

end Scope.SameFrame

namespace Scope.Calm

theorem refl (x : Scope) : x.Calm x := ⟨fun _ h => h, rfl, .refl x, rfl⟩

theorem trans {x y z : Scope} (h : x.Calm y) (k : y.Calm z) : x.Calm z :=
  ⟨fun _ hn => h.code (k.code hn), k.vars.trans h.vars, h.frame.trans k.frame, Eq.trans k.body h.body⟩

theorem fresh {x y : Scope} (h : x.Calm y) (k : x.Fresh) : y.Fresh :=
  ⟨List.subset_nil.mp (k.code ▸ h.code), h.vars.trans k.vars⟩

theorem of_subset {x y : Scope} (hm : y.methods.values ⊆ x.methods.values) (hv : y.vars = x.vars)
    (hf : x.SameFrame y := by exact ⟨rfl, rfl, rfl, rfl⟩) (hb : x.SameBody y := by rfl) : x.Calm y := by
  refine ⟨List.map_subset _ fun m h => ?_, hv, hf, hb⟩
  obtain ⟨ms, hms, h⟩ := List.mem_flatten.mp h
  exact List.mem_flatten.mpr ⟨ms, hm hms, h⟩

theorem of_eq {x y : Scope} (hm : y.methods = x.methods) (hv : y.vars = x.vars)
    (hf : x.SameFrame y := by exact ⟨rfl, rfl, rfl, rfl⟩) (hb : x.SameBody y := by rfl) : x.Calm y :=
  .of_subset (hm ▸ List.Subset.refl _) hv hf hb

end Scope.Calm

namespace Obj.KeepsMethods

theorem of_same {x y : Obj} (h : x.SameMethods y) : x.KeepsMethods y := ⟨[], (List.append_nil _).trans h.symm⟩

theorem refl (x : Obj) : x.KeepsMethods x := of_same rfl

end Obj.KeepsMethods

namespace Obj.Calm

theorem refl (x : Obj) : x.Calm x := ⟨rfl, rfl, rfl⟩

theorem trans {x y z : Obj} (h : x.Calm y) (k : y.Calm z) : x.Calm z :=
  ⟨Eq.trans k.methods h.methods, k.cls.trans h.cls, k.component.trans h.component⟩

theorem code {x y : Obj} (h : x.Calm y) : y.code ⊆ x.code := by
  unfold Obj.code
  rw [h.methods]
  exact List.Subset.refl _

end Obj.Calm

namespace MadeClass.SameClass

theorem refl (x : MadeClass) : x.SameClass x := ⟨rfl, rfl⟩

theorem trans {x y z : MadeClass} (h : x.SameClass y) (k : y.SameClass z) : x.SameClass z :=
  ⟨k.ancestors.trans h.ancestors, k.script.trans h.script⟩

end MadeClass.SameClass

namespace MadeClass.Calm

theorem refl (x : MadeClass) : x.Calm x := ⟨rfl, rfl, rfl, rfl, rfl, fun _ h => h⟩

theorem code {x y : MadeClass} (h : x.Calm y) : y.code ⊆ x.code := by
  unfold MadeClass.code
  rw [h.script]
  exact List.Subset.refl _

theorem trans {x y z : MadeClass} (h : x.Calm y) (k : y.Calm z) : x.Calm z where
  script := k.script.trans h.script
  bases := k.bases.trans h.bases
  ancestors := k.ancestors.trans h.ancestors
  metaclass := k.metaclass.trans h.metaclass
  abstracts := k.abstracts.trans h.abstracts
  members name hn := k.members name (h.members name hn)

end MadeClass.Calm

def Memory.HasCall (m : Memory) (name : String) : Prop := ∃ r, m.resolvers.get? name = some r ∧ r.staticClass.isSome

def Memory.SparesSuper (m m' : Memory) : Prop := ∀ name, Path.owner? name = some "super" → m'.HasCall name → m.HasCall name

namespace Memory.SparesSuper

variable {m m' m'' : Memory}

theorem refl (m : Memory) : m.SparesSuper m := fun _ _ h => h

theorem trans (h : m.SparesSuper m') (k : m'.SparesSuper m'') : m.SparesSuper m'' := fun name owner held =>
  h name owner (k name owner held)

theorem forgotten (m : Memory) : m.SparesSuper m.forgotten := by
  rintro name - ⟨r, held, -⟩
  cases held

theorem put {name : String} {r : Resolver} (added : m'.resolvers = m.resolvers.put name r)
    (h : Path.owner? name = some "super" → r.staticClass.isSome → m.HasCall name) : m.SparesSuper m' := by
  rintro x owner ⟨r', held, static⟩
  rw [added] at held
  by_cases same : name = x
  · subst same
    rw [Table.get?_put_self] at held
    cases held
    exact h owner static
  · rw [Table.get?_put_ne _ _ same] at held
    exact ⟨r', held, static⟩

end Memory.SparesSuper

namespace World

variable {w w' : World}

theorem memory_modifyMemory (w : World) (s t : ScopeId) (f : Memory → Memory) :
    (w.modifyMemory s f).memory t = if s = t then f (w.memory t) else w.memory t := by
  have grown : (w.memories ++ Array.replicate (s + 1 - w.memories.size) ({} : Memory))[t]?.getD {} = w.memory t := by
    unfold memory
    rw [Array.getElem?_append, Array.getElem?_replicate]
    split
    · rfl
    · next outside =>
      rw [Array.getElem?_eq_none (Nat.le_of_not_lt outside)]
      split <;> rfl
  unfold memory modifyMemory at *
  rw [Array.getElem?_modify]
  split
  · next same =>
    subst same
    have enough (a b : Nat) : a < b + (a + 1 - b) := by omega
    have inside : s < (w.memories ++ Array.replicate (s + 1 - w.memories.size) ({} : Memory)).size := by
      rw [Array.size_append, Array.size_replicate]
      exact enough s _
    rw [← grown, Array.getElem?_eq_getElem inside]
    rfl
  · exact grown

/-- The code that a world keeps: the bodies of the methods that scopes and objects hold, and the
bodies of classes. -/
inductive Holds (w : World) (n : Node) : Prop
  | scope (x : Scope) (hx : x ∈ w.scopes) (hn : n ∈ x.code)
  | object (o : Obj) (ho : o ∈ w.objects) (hn : n ∈ o.code)
  | cls (c : MadeClass) (hc : c ∈ w.classes) (hn : n ∈ c.code)

def HoldsMember (w : World) (n : Node) : Prop := ∃ c ∈ w.classes, n ∈ c.code

def setVars (w : World) (s : ScopeId) (f : Table Variable → Table Variable) : World :=
  w.modifyScope s fun x => { x with vars := f x.vars }

def Anchored (w w' : World) : Prop := Grows Scope.SamePlace (fun _ => True) w.scopes w'.scopes

def SameFrames (w w' : World) : Prop := Grows Scope.SameFrame (fun _ => True) w.scopes w'.scopes

def SameClasses (w w' : World) : Prop := Grows MadeClass.SameClass (fun _ => True) w.classes w'.classes

def SameBodies (w w' : World) : Prop := Grows Scope.SameBody (fun _ => True) w.scopes w'.scopes

def SameMethods (w w' : World) : Prop := Grows Obj.SameMethods (fun _ => True) w.objects w'.objects

def KeepsMethods (w w' : World) : Prop := Grows Obj.KeepsMethods (fun _ => True) w.objects w'.objects

def SparesSuper (w w' : World) : Prop := ∀ s, (w.memory s).SparesSuper (w'.memory s)

structure Upholds (w w' : World) : Prop where
  classes : w.SameClasses w'
  bodies : w.SameBodies w'
  methods : w.KeepsMethods w'
  calls : w.SparesSuper w'

/-- The change from one world to another adds no code, leaves every scope what it was made as and
every class what it was declared as, changes no methods of objects, and gives scripts no signal
unless they can make one themselves. -/
structure Inert (w w' : World) : Prop where
  code : ∀ n, w'.Holds n → w.Holds n
  members : ∀ n, w'.HoldsMember n → w.HoldsMember n
  frames : w.SameFrames w'
  classes : w.SameClasses w'
  bodies : w.SameBodies w'
  methods : w.SameMethods w'
  exposed : w'.exposed = w.exposed
  signals : w.exposed = false → w'.signals = w.signals
  calls : w.SparesSuper w'

/-- The change from one world to another takes nothing away and adds no code and no signals but
those that scripts make themselves, and no class is remembered for a call on `super`. -/
structure Calm (w w' : World) : Prop where
  scopes : Grows Scope.Calm Scope.Fresh w.scopes w'.scopes
  objects : Grows Obj.Calm (fun o => o.code = []) w.objects w'.objects
  classes : Grows MadeClass.Calm (fun c => c.code = []) w.classes w'.classes
  assigned : ∀ o name, (w.assigned.any fun e => decide (e.1 = o) && e.2.1 == name) →
    w'.assigned.any fun e => decide (e.1 = o) && e.2.1 == name
  exposed : w'.exposed = w.exposed
  signals : w.exposed = false → w'.signals = w.signals
  calls : w.SparesSuper w'

namespace SparesSuper

theorem of_eq {w w' : World} (h : w'.memories = w.memories) : w.SparesSuper w' := by
  intro s
  rw [memory, memory, h]
  exact .refl _

theorem refl (w : World) : w.SparesSuper w := .of_eq rfl

theorem trans {w w' w'' : World} (h : w.SparesSuper w') (k : w'.SparesSuper w'') : w.SparesSuper w'' := fun s =>
  (h s).trans (k s)

theorem modifyMemory (w : World) (s : ScopeId) {f : Memory → Memory}
    (hf : (w.memory s).SparesSuper (f (w.memory s))) : w.SparesSuper (w.modifyMemory s f) := by
  intro t
  rw [memory_modifyMemory]
  split
  · next here => exact here ▸ hf
  · exact .refl _

end SparesSuper

theorem Calm.refl (w : World) : w.Calm w :=
  ⟨.refl .refl _, .refl .refl _, .refl .refl _, fun _ _ h => h, rfl, fun _ => rfl, .refl w⟩

theorem Calm.trans {w w' w'' : World} (h : w.Calm w') (k : w'.Calm w'') : w.Calm w'' where
  scopes := h.scopes.trans (fun _ _ _ => .trans) (fun _ _ hx hr => hr.fresh hx) k.scopes
  objects := h.objects.trans (fun _ _ _ => .trans) (fun _ _ hx hr => List.subset_nil.mp (hx ▸ hr.code)) k.objects
  classes := h.classes.trans (fun _ _ _ => .trans) (fun _ _ hx hr => List.subset_nil.mp (hx ▸ hr.code)) k.classes
  assigned o name hn := k.assigned o name (h.assigned o name hn)
  exposed := k.exposed.trans h.exposed
  signals hidden := (k.signals (h.exposed.trans hidden)).trans (h.signals hidden)
  calls := h.calls.trans k.calls

theorem Anchored.refl (w : World) : w.Anchored w := Grows.refl (fun _ => (rfl : Scope.SamePlace _ _)) _

theorem Anchored.trans {w w' w'' : World} (h : w.Anchored w') (k : w'.Anchored w'') : w.Anchored w'' :=
  Grows.trans (fun _ _ _ h k => Eq.trans k h) (fun _ _ _ _ => trivial) h k

theorem Anchored.modifyScope (w : World) (s : ScopeId) {f : Scope → Scope}
    (hf : ∀ x, (f x).parent = x.parent) : w.Anchored (w.modifyScope s f) :=
  Grows.modify (fun _ => (rfl : Scope.SamePlace _ _)) fun x _ => hf x

namespace SameFrames

theorem refl (w : World) : w.SameFrames w := Grows.refl .refl _

theorem trans {w w' w'' : World} (h : w.SameFrames w') (k : w'.SameFrames w'') : w.SameFrames w'' :=
  Grows.trans (fun _ _ _ => .trans) (fun _ _ _ _ => trivial) h k

theorem modifyScope (w : World) (s : ScopeId) {f : Scope → Scope}
    (hf : ∀ x : Scope, x.SameFrame (f x)) : w.SameFrames (w.modifyScope s f) :=
  Grows.modify .refl fun x _ => hf x

theorem anchored {w w' : World} (h : w.SameFrames w') : w.Anchored w' := h.imp (fun _ _ r => r.parent) fun _ _ => trivial

end SameFrames

namespace SameClasses

theorem refl (w : World) : w.SameClasses w := Grows.refl .refl _

theorem trans {w w' w'' : World} (h : w.SameClasses w') (k : w'.SameClasses w'') : w.SameClasses w'' :=
  Grows.trans (fun _ _ _ => .trans) (fun _ _ _ _ => trivial) h k

theorem modifyMade {w w' : World} (h : w.SameClasses w') {n : Nat} (new : w.classes.size ≤ n)
    (f : MadeClass → MadeClass) : w.SameClasses (w'.modifyMade n f) := by
  refine ⟨by simpa [World.modifyMade] using h.size, fun i y hy => ?_⟩
  by_cases here : n = i
  · subst here
    exact .inr ⟨by simpa using new, trivial⟩
  · rw [World.modifyMade, Array.getElem?_modify, if_neg here] at hy
    exact h.entry i y hy

end SameClasses

namespace SameBodies

theorem refl (w : World) : w.SameBodies w := Grows.refl (fun _ => (rfl : Scope.SameBody _ _)) _

theorem trans {w w' w'' : World} (h : w.SameBodies w') (k : w'.SameBodies w'') : w.SameBodies w'' :=
  Grows.trans (fun _ _ _ h k => Eq.trans k h) (fun _ _ _ _ => trivial) h k

theorem modifyScope (w : World) (s : ScopeId) {f : Scope → Scope}
    (hf : ∀ x : Scope, x.SameBody (f x)) : w.SameBodies (w.modifyScope s f) :=
  Grows.modify (fun _ => (rfl : Scope.SameBody _ _)) fun x _ => hf x

end SameBodies

namespace SameMethods

theorem refl (w : World) : w.SameMethods w := Grows.refl (fun _ => (rfl : Obj.SameMethods _ _)) _

theorem trans {w w' w'' : World} (h : w.SameMethods w') (k : w'.SameMethods w'') : w.SameMethods w'' :=
  Grows.trans (fun _ _ _ h k => Eq.trans k h) (fun _ _ _ _ => trivial) h k

theorem modifyObj (w : World) (i : ObjectId) {f : Obj → Obj} (hf : ∀ o : Obj, o.SameMethods (f o)) :
    w.SameMethods (w.modifyObj i f) :=
  Grows.modify (fun _ => (rfl : Obj.SameMethods _ _)) fun o _ => hf o

end SameMethods

namespace KeepsMethods

theorem of_same {w w' : World} (h : w.SameMethods w') : w.KeepsMethods w' := h.imp (fun _ _ => .of_same) fun _ h => h

theorem trans {w w' w'' : World} (h : w.KeepsMethods w') (k : w'.KeepsMethods w'') : w.KeepsMethods w'' :=
  Grows.trans (fun _ _ _ => List.IsPrefix.trans) (fun _ _ _ _ => trivial) h k

theorem modifyObj (w : World) (i : ObjectId) {f : Obj → Obj}
    (hf : ∀ o : Obj, o.KeepsMethods (f o)) : w.KeepsMethods (w.modifyObj i f) :=
  Grows.modify .refl fun o _ => hf o

end KeepsMethods

namespace Upholds

theorem of_eq {w w' : World} (scopes : w'.scopes = w.scopes) (classes : w'.classes = w.classes)
    (objects : w'.objects = w.objects) (calls : w.SparesSuper w' := by exact .of_eq rfl) : w.Upholds w' where
  classes := by
    rw [SameClasses, classes]
    exact .refl .refl _
  bodies := by
    rw [SameBodies, scopes]
    exact SameBodies.refl w
  methods := by
    rw [KeepsMethods, objects]
    exact .refl .refl _
  calls := calls

theorem refl (w : World) : w.Upholds w := .of_eq rfl rfl rfl

theorem trans {w w' w'' : World} (h : w.Upholds w') (k : w'.Upholds w'') : w.Upholds w'' :=
  ⟨h.classes.trans k.classes, h.bodies.trans k.bodies, h.methods.trans k.methods, h.calls.trans k.calls⟩

end Upholds

theorem Calm.sameClasses (h : w.Calm w') : w.SameClasses w' :=
  h.classes.imp (fun _ _ r => ⟨r.ancestors, r.script⟩) fun _ _ => trivial

theorem Calm.frames (h : w.Calm w') : w.SameFrames w' :=
  h.scopes.imp (fun _ _ r => r.frame) fun _ _ => trivial

theorem Calm.anchored (h : w.Calm w') : w.Anchored w' := h.frames.anchored

theorem Calm.sameBodies (h : w.Calm w') : w.SameBodies w' :=
  h.scopes.imp (fun _ _ r => r.body) fun _ _ => trivial

theorem Calm.sameMethods (h : w.Calm w') : w.SameMethods w' :=
  h.objects.imp (fun _ _ r => r.methods) fun _ _ => trivial

theorem Calm.members (h : w.Calm w') (n : Node) : w'.HoldsMember n → w.HoldsMember n := by
  rintro ⟨c, hc, hn⟩
  exact h.classes.code_mem (fun _ _ r => r.code) (fun _ r => r) hc hn

theorem Calm.inert (h : w.Calm w') : w.Inert w' := by
  refine ⟨?_, h.members, h.frames, h.sameClasses, h.sameBodies, h.sameMethods, h.exposed, h.signals, h.calls⟩
  rintro n (⟨x, hx, hn⟩ | ⟨o, ho, hn⟩ | ⟨c, hc, hn⟩)
  · obtain ⟨y, hy, hn⟩ := h.scopes.code_mem (fun _ _ r => r.code) (fun _ r => r.code) hx hn
    exact .scope y hy hn
  · obtain ⟨y, hy, hn⟩ := h.objects.code_mem (fun _ _ r => r.code) (fun _ r => r) ho hn
    exact .object y hy hn
  · obtain ⟨y, hy, hn⟩ := h.members n ⟨c, hc, hn⟩
    exact .cls y hy hn

theorem Inert.upheld (h : w.Inert w') : w.Upholds w' :=
  ⟨h.classes, h.bodies, .of_same h.methods, h.calls⟩

section Updates

variable {w : World}

theorem calm_of_eq {w' : World} (hs : w'.scopes = w.scopes) (ho : w'.objects = w.objects) (hc : w'.classes = w.classes)
    (ha : w'.assigned = w.assigned) (hg : w'.signals = w.signals) (hm : w.SparesSuper w' := by exact .of_eq rfl)
    (hx : w'.exposed = w.exposed := by rfl) : w.Calm w' :=
  ⟨hs ▸ .refl .refl _, ho ▸ .refl .refl _, hc ▸ .refl .refl _, fun _ _ h => ha ▸ h, hx, fun _ => hg, hm⟩

theorem calm_modifyMemory (s : ScopeId) {f : Memory → Memory}
    (hf : ∀ m : Memory, m.SparesSuper (f m)) : w.Calm (w.modifyMemory s f) :=
  { Calm.refl w with calls := .modifyMemory w s (hf _) }

theorem calm_pushScope {x : Scope} (hx : x.Fresh) : w.Calm { w with scopes := w.scopes.push x } :=
  { Calm.refl w with scopes := .push .refl hx }

theorem calm_modifyScope (s : ScopeId) {f : Scope → Scope} (hf : ∀ x : Scope, x.Calm (f x)) :
    w.Calm (w.modifyScope s f) :=
  { Calm.refl w with scopes := .modify .refl fun x _ => hf x }

theorem calm_pushObject {o : Obj} (ho : o.code = []) : w.Calm { w with objects := w.objects.push o } :=
  { Calm.refl w with objects := .push .refl ho }

theorem inert_modifyObj (i : ObjectId) {f : Obj → Obj}
    (hf : ∀ o : Obj, (f o).classMethods = o.classMethods) : w.Inert (w.modifyObj i f) := by
  have grows : Grows (fun x y : Obj => y.code ⊆ x.code) (fun _ => False) w.objects (w.objects.modify i f) :=
    .modify (fun _ _ h => h) fun o _ => by simp [Obj.code, hf]
  refine ⟨?_, fun _ h => h, .refl w, .refl w, .refl w, .modifyObj w i hf, rfl, fun _ => rfl, .of_eq rfl⟩
  rintro n (⟨x, hx, hn⟩ | ⟨o, ho, hn⟩ | ⟨c, hc, hn⟩)
  · exact .scope x hx hn
  · obtain ⟨y, hy, hn⟩ := grows.code_mem (fun _ _ r => r) (fun _ => False.elim) ho hn
    exact .object y hy hn
  · exact .cls c hc hn

theorem inert_setVars (s : ScopeId) (f : Table Variable → Table Variable) : w.Inert (w.setVars s f) := by
  have grows : Grows (fun x y : Scope => y.code ⊆ x.code) (fun _ => False) w.scopes
      (w.scopes.modify s fun x => { x with vars := f x.vars }) :=
    .modify (fun _ _ h => h) fun _ _ _ h => h
  refine ⟨?_, fun _ h => h, .modifyScope w s fun _ => ⟨rfl, rfl, rfl, rfl⟩, .refl w, .modifyScope w s fun _ => rfl,
    .refl w, rfl, fun _ => rfl, .of_eq rfl⟩
  rintro n (⟨x, hx, hn⟩ | ⟨o, ho, hn⟩ | ⟨c, hc, hn⟩)
  · obtain ⟨y, hy, hn⟩ := grows.code_mem (fun _ _ r => r) (fun _ => False.elim) hx hn
    exact .scope y hy hn
  · exact .object o ho hn
  · exact .cls c hc hn

theorem calm_modifyObj (i : ObjectId) {f : Obj → Obj} (hf : ∀ o : Obj, o.Calm (f o)) : w.Calm (w.modifyObj i f) :=
  { Calm.refl w with objects := .modify .refl fun o _ => hf o }

theorem calm_pushClass {c : MadeClass} (hc : c.code = []) : w.Calm { w with classes := w.classes.push c } :=
  { Calm.refl w with classes := .push .refl hc }

theorem calm_modifyMade (n : Nat) {f : MadeClass → MadeClass} (hf : ∀ c : MadeClass, c.Calm (f c)) :
    w.Calm (w.modifyMade n f) :=
  { Calm.refl w with classes := .modify .refl fun c _ => hf c }

theorem calm_assign (o : AttributeOwner) (name : String) (v : Value) :
    w.Calm { w with assigned := (o, name, v) :: w.assigned } :=
  { Calm.refl w with assigned := fun _ _ h => by simp only [List.any_cons, h, Bool.or_true] }

end Updates

end World

end ScriptCore
