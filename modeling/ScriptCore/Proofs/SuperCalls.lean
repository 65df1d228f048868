import Mathlib.Data.List.Nodup
import ScriptCore.Proofs.DispatchTable
import ScriptCore.Proofs.Hierarchies
import ScriptCore.Proofs.InstanceCalls
import ScriptCore.Proofs.InstanceFields
import ScriptCore.Proofs.MethodBodies

namespace ScriptCore

namespace World

variable {w w' w'' : World} {i : ObjectId} {c d k : ClassRef} {part : ScriptPart}

theorem SameMethods.obj (h : w.SameMethods w') (inside : i < w.objects.size) :
    i < w'.objects.size ∧ (w'.obj i).classMethods = (w.obj i).classMethods := by
  obtain ⟨y, hy, same⟩ := Grows.kept h (Array.getElem?_eq_getElem inside)
  refine ⟨Nat.lt_of_lt_of_le inside (Grows.size h), ?_⟩
  rw [World.obj, World.obj, hy, Array.getElem?_eq_getElem inside]
  exact same

theorem KeepsMethods.obj (h : w.KeepsMethods w') (inside : i < w.objects.size) :
    (w.obj i).classMethods <+: (w'.obj i).classMethods := by
  obtain ⟨y, hy, same⟩ := Grows.kept h (Array.getElem?_eq_getElem inside)
  rw [World.obj, World.obj, hy, Array.getElem?_eq_getElem inside]
  exact same

theorem SameClasses.mro_of_made (h : w.SameClasses w') {n : Nat} (inside : n < w.classes.size) :
    w'.mro (.made n) = w.mro (.made n) := by
  simp only [mro, (h.made inside).ancestors]

theorem Linearised.line (linear : w.Linearised) (script : w.script? c = some part) (above : c ∈ w.mro d) :
    ∃ n, d = .made n ∧ n < w.classes.size ∧ (w.mro c).Sublist (w.mro d) := by
  obtain ⟨m, rfl, there⟩ := exists_made_of_script script
  obtain ⟨n, rfl, rfl | below⟩ := exists_of_made_mem_mro above
  · exact ⟨m, rfl, there, List.Sublist.refl _⟩
  · exact ⟨n, rfl, lt_of_made_mem_ancestors below, (linear.kept n m below).cons _⟩

theorem SameClasses.of_mem (h : w.SameClasses w') (linear : w.Linearised) {n : Nat} (inside : n < w.classes.size)
    (hk : k ∈ w.mro (.made n)) : w'.script? k = w.script? k ∧ w'.mro k = w.mro k := by
  cases k with
  | core k => exact ⟨rfl, rfl⟩
  | library k => exact ⟨rfl, rfl⟩
  | made m =>
    have there : m < w.classes.size := by
      rcases List.mem_cons.mp hk with same | above
      · cases same
        exact inside
      · exact linear.founded n m above
    exact ⟨(h.made there).script, h.mro_of_made there⟩

theorem Linearised.not_mem_mro (linear : w.Linearised) {n : Nat} (hk : k ∈ (w.mro (.made n)).tail) : .made n ∉ w.mro k := by
  intro below
  obtain ⟨m, rfl, -⟩ := exists_of_made_mem_mro below
  exact (List.nodup_cons.mp (linear.nodup n)).1 ((linear.kept n m hk).subset below)

theorem mostSpecific_eq_none_iff {types : List Ty} {candidates : List (List Ty)} :
    w.mostSpecific types candidates = .ok none ↔ ∀ s ∈ candidates, w.signatureAssignable types s = false := by
  constructor
  · intro none s hs
    by_contra takes
    exact mostSpecific_ne_none hs (by simpa using takes) none
  · intro refused
    have unscored : w.scored types candidates = [] := by
      rw [List.eq_nil_iff_forall_not_mem]
      rintro ⟨d, j⟩ he
      obtain ⟨s, there, takes⟩ := mem_scored he
      rw [refused s (List.mem_of_getElem? there)] at takes
      cases takes
    rw [mostSpecific, unscored]
    rfl

def SuperFree (w : World) : Prop := ∀ s name, Path.owner? name = some "super" → ¬(w.memory s).HasCall name

theorem SuperFree.later (h : w.SuperFree) (spares : w.SparesSuper w') : w'.SuperFree := fun s name owner held =>
  h s name owner (spares s name owner held)

theorem SuperFree.staticClass (h : w.SuperFree) {s : ScopeId} {name : String} {r : Resolver}
    (owner : Path.owner? name = some "super") (held : (w.memory s).resolvers.get? name = some r) :
      r.staticClass = none := by
  cases static : r.staticClass with
  | none => rfl
  | some target => exact absurd ⟨r, held, by rw [static]; rfl⟩ (h s name owner)

structure HoldsMethods (w : World) (i : ObjectId) (entries : List (ClassRef × List Method)) : Prop where
  inside : i < w.objects.size
  methods : (w.obj i).classMethods = entries

theorem HoldsMethods.of_same {entries : List (ClassRef × List Method)}
    (h : w.HoldsMethods i entries) (same : w.SameMethods w') : w'.HoldsMethods i entries :=
  ⟨(same.obj h.inside).1, (same.obj h.inside).2.trans h.methods⟩

end World

namespace Evaluator

variable {w w' : World} {σ : EvalState} {inst : ScopeId} {i : ObjectId} {entries : List (ClassRef × List Method)}

section

variable (h : σ.world.HoldsMethods i entries)
include h

theorem holdsMethods_declareOne (k : ClassRef) (decl : Node) :
    (declareOne inst k decl).Meets σ
    (fun m σ' => σ'.world.HoldsMethods i entries ∧ BuiltFor inst k decl m) fun _ _ => True := by
  unfold declareOne
  rw [Comp.meets_bind]
  refine ((Comp.meets_self _ σ).and (keepsMembers_buildMethod decl inst σ)).impDone ?_
  rintro m' τ ⟨built, -, same⟩
  -- A method is declared in a scope, not in an object.
  have kept := h.of_same same
  exact ⟨⟨kept.inside, kept.methods⟩, m', σ, τ, built, rfl⟩

theorem holdsMethods_declareAll (k : ClassRef) (decls : List Node) :
    (collect decls (declareOne inst k)).Meets σ (fun ms σ' =>
      σ'.world.HoldsMethods i entries ∧ List.Forall₂ (BuiltFor inst k) decls ms) fun _ _ => True := by
  induction decls generalizing σ with
  | nil => exact ⟨h, .nil⟩
  | cons decl rest ih =>
    unfold collect
    simp only [Comp.meets_bind]
    refine (holdsMethods_declareOne h k decl).impDone fun m τ ⟨first, built⟩ => ?_
    exact (ih first).impDone fun ms υ ⟨later, others⟩ => ⟨later, .cons built others⟩

theorem holdsMethods_chain (chain : List (ClassRef × ScriptPart)) :
    (forEach chain fun e => declareMethods i inst e.1 e.2.body).Meets σ (fun _ σ' => ∃ built,
      List.Forall₂ (fun e ms => List.Forall₂ (BuiltFor inst e.1) e.2.body.methods ms) chain built ∧
        σ'.world.HoldsMethods i (entries ++ (chain.map Prod.fst).zip built)) fun _ _ => True := by
  induction chain generalizing σ entries with
  | nil => exact ⟨[], .nil, by simpa using h⟩
  | cons e rest ih =>
    unfold forEach declareMethods
    simp only [Comp.meets_bind]
    refine (holdsMethods_declareAll h e.1 e.2.body.methods).impDone fun ms τ declared => ?_
    obtain ⟨kept, own⟩ := declared
    have added : (τ.world.modifyObj i fun o => { o with classMethods := o.classMethods ++ [(e.1, ms)] }).HoldsMethods i
        (entries ++ [(e.1, ms)]) := by
      refine ⟨by simpa [World.modifyObj] using kept.inside, ?_⟩
      rw [World.obj_modifyObj, if_pos ⟨rfl, kept.inside⟩, kept.methods]
    refine (ih (σ := ⟨_, τ.running⟩) added).impDone fun _ υ chain => ?_
    obtain ⟨built, others, all⟩ := chain
    exact ⟨ms :: built, .cons own others, by simpa using all⟩

end

/-- An object without methods gets its scope as an instance of a class, and the methods of the
classes of the hierarchy are declared there. The last world is the one in which the construction
begins. -/
inductive Prepared (d : ClassRef) (i : ObjectId) (inst : ScopeId) (w : World) : World → Prop
  | mk {w₁ w₂ : World} {σ σ' : EvalState} (blank : w.HoldsMethods i []) (made : (instanceScope d).run w = .done inst w₁)
      (linked : (Run.setClassInstance inst (.object i)).run w₁ = .done () w₂) (entered : w₂.Calm σ.world)
      (declared : (forEach (scriptedChain w d) fun e => declareMethods i inst e.1 e.2.body) σ = .done () σ') :
      Prepared d i inst w σ'.world

theorem prepared_of_setUpScripted (ev : Evaluator) (d : ClassRef) (args : List Value)
    (caller : Node) (blank : σ.world.HoldsMethods i []) :
    (ev.setUpScripted (.object i) d args caller).Meets σ
    (fun _ _ => ∃ inst w', Prepared d i inst σ.world w') fun _ _ => True := by
  refine (declared_of_setUpScripted ev d i args caller σ).impDone ?_
  rintro _ _ ⟨inst, w₁, w₂, τ, τ', made, linked, entered, -, declared⟩
  exact ⟨inst, τ'.world, .mk blank made linked entered declared⟩

variable {d k : ClassRef} {part : ScriptPart}

theorem Prepared.exists_declared (h : Prepared d i inst w w') : ∃ σ σ', w.HoldsMethods i [] ∧ w.Calm σ.world ∧
    (forEach (scriptedChain w d) fun e => declareMethods i inst e.1 e.2.body) σ = .done () σ' ∧ w' = σ'.world := by
  obtain ⟨blank, made, linked, entered, declared⟩ := h
  rename_i w₁ w₂ σ σ'
  have first : w.Calm w₁ := ((instanceScope d).meets_calm w).of_done made
  have second : w₁.Calm w₂ := ((Run.setClassInstance inst (.object i)).meets_calm w₁).of_done linked
  exact ⟨σ, σ', blank, (first.trans second).trans entered, declared, rfl⟩

theorem Prepared.holds (h : Prepared d i inst w w') : ∃ built,
    List.Forall₂ (fun e ms => List.Forall₂ (BuiltFor inst e.1) e.2.body.methods ms) (scriptedChain w d) built ∧
      w'.HoldsMethods i (((scriptedChain w d).map Prod.fst).zip built) := by
  obtain ⟨σ, σ', blank, calm, declared, rfl⟩ := h.exists_declared
  obtain ⟨built, parts, held⟩ := (holdsMethods_chain (blank.of_same calm.sameMethods) (scriptedChain w d)).of_done declared
  exact ⟨built, parts, by simpa using held⟩

theorem Prepared.upholds (h : Prepared d i inst w w') : w.Upholds w' := by
  obtain ⟨σ, σ', -, calm, declared, rfl⟩ := h.exists_declared
  have sound : exhausted.Sound .unrestricted := .ofFuel 0 fun _ _ _ _ => trivial
  have declares : (forEach (scriptedChain w d) fun e => declareMethods i inst e.1 e.2.body).Sound .unrestricted .proper
      fun _ => True :=
    .forEach fun e _ => sound.declareMethods i inst e.1 fun n _ => Terms.allows_unrestricted _ n
  exact calm.inert.upheld.trans (((declares.since σ).of_done declared).upheld rfl)

theorem map_fst_scriptedChain (w : World) (d : ClassRef) :
    (scriptedChain w d).map Prod.fst = (w.mro d).reverse.filter fun k => (w.script? k).isSome := by
  unfold scriptedChain
  induction (w.mro d).reverse with
  | nil => rfl
  | cons k rest ih => cases script : w.script? k <;> simp [script, ih]

theorem find?_zip {R : ClassRef × ScriptPart → List Method → Prop} {chain : List (ClassRef × ScriptPart)}
    {built : List (List Method)} (parts : List.Forall₂ R chain built) (distinct : (chain.map Prod.fst).Nodup)
    {e : ClassRef × ScriptPart} (he : e ∈ chain) (more : List (ClassRef × List Method)) :
    ∃ ms, R e ms ∧ (((chain.map Prod.fst).zip built ++ more).find? fun x => decide (x.1 = e.1)) = some (e.1, ms) := by
  induction parts with
  | nil => cases he
  | @cons a ms chain built own others ih =>
    obtain ⟨new, distinct⟩ := List.nodup_cons.mp distinct
    rcases List.mem_cons.mp he with rfl | later
    · exact ⟨ms, own, by simp⟩
    · have other : a.1 ≠ e.1 := fun same => new (same ▸ List.mem_map_of_mem later)
      obtain ⟨ms', here, found⟩ := ih distinct later
      exact ⟨ms', here, by simpa [other] using found⟩

theorem Prepared.kept (h : Prepared d i inst w w') (linear : w.Linearised) {w'' : World}
    (later : w'.KeepsMethods w'') (hk : k ∈ w.mro d) (script : w.script? k = some part) :
    List.Forall₂ (BuiltFor inst k) part.body.methods (keptMethods w'' k (.object i)) := by
  obtain ⟨built, parts, held⟩ := h.holds
  obtain ⟨n, rfl, -⟩ := World.exists_made_of_script script
  obtain ⟨d, rfl, -⟩ := World.exists_of_made_mem_mro hk
  have distinct : ((scriptedChain w (.made d)).map Prod.fst).Nodup := by
    rw [map_fst_scriptedChain]
    exact (List.nodup_reverse.mpr (linear.nodup d)).filter _
  have listed : (.made n, part) ∈ scriptedChain w (.made d) :=
    List.mem_filterMap.mpr ⟨.made n, List.mem_reverse.mpr hk, by rw [script]; rfl⟩
  obtain ⟨more, grown⟩ := later.obj held.inside
  obtain ⟨ms, own, found⟩ := find?_zip parts distinct listed more
  rw [held.methods] at grown
  rw [keptMethods, ← grown, found]
  exact own

section Search

def keptOverloads (w : World) (i : ObjectId) (name : String) (k : ClassRef) : List Method :=
  (keptMethods w k (.object i)).filter fun m => m.name = name

/-- The class has nothing for such a call: a scripted class has no overload that takes the
arguments, and a host class has no member of the name. -/
structure Lacks (w : World) (i : ObjectId) (name : String) (types : List Ty) (k : ClassRef) : Prop where
  scripted : (w.script? k).isSome → ∀ m ∈ keptOverloads w i name k, w.signatureAssignable types m.paramTypes = false
  host : w.script? k = none → w.ownMember k name = none

def Reached (w : World) (i : ObjectId) (name : String) (types : List Ty) (chain : List ClassRef) (k : ClassRef) : Prop :=
  ∃ before after, chain = before ++ k :: after ∧ ∀ b ∈ before, Lacks w i name types b

def Chosen (w : World) (i : ObjectId) (name : String) (types : List Ty) (k : ClassRef) (m : Method) : Prop :=
  ∃ j, w.mostSpecific types ((keptOverloads w i name k).map Method.paramTypes) = .ok (some j) ∧
    (keptOverloads w i name k)[j]? = some m

/-- The class is the first after `c` in the hierarchy of the object that has a member of the name
itself. -/
structure FirstMember (w : World) (i : ObjectId) (name : String) (c k : ClassRef) (v : Value) : Prop where
  first : ∃ before after, classesAfter w c (.object i) = before ++ k :: after ∧ ∀ b ∈ before, w.ownMember b name = none
  own : w.ownMember k name = some v

/-- How a call to the superclass version comes out, when the classes of a chain are gone through. -/
inductive SuperCall (ev : Evaluator) (c : ClassRef) (i : ObjectId) (name : String) (args : List Value) (caller : Node)
    (σ : EvalState) (chain : List ClassRef) : Outcome EvalState Value → Prop
  /-- The method that is chosen in the first scripted class that has one for the arguments. -/
  | method {k : ClassRef} {m : Method} (reached : Reached σ.world i name (σ.world.typesOf args) chain k)
      (scripted : (σ.world.script? k).isSome) (chosen : Chosen σ.world i name (σ.world.typesOf args) k m)
      (declares : m.declaringClass = some k) : SuperCall ev c i name args caller σ chain (ev.invoke m args caller σ)
  /-- No choice can be made between the overloads of that class. -/
  | ambiguous {k : ClassRef} {cause : Cause} (reached : Reached σ.world i name (σ.world.typesOf args) chain k)
      (scripted : (σ.world.script? k).isSome)
      (undecided : σ.world.mostSpecific (σ.world.typesOf args) ((keptOverloads σ.world i name k).map Method.paramTypes) =
        .error cause) : SuperCall ev c i name args caller σ chain (.failed (.fault cause none) σ)
  /-- A host class comes first, and a host class is also the first in the hierarchy of the object
  that has such a member. -/
  | host {k k' : ClassRef} {v : Value} (reached : Reached σ.world i name (σ.world.typesOf args) chain k)
      (unscripted : σ.world.script? k = none) (own : (σ.world.ownMember k name).isSome)
      (first : FirstMember σ.world i name c k' v) (outside : σ.world.script? k' = none) :
      SuperCall ev c i name args caller σ chain
        (ev.callInherited (.object i) name (memberOf σ.world (.object i) v) args caller σ)
  /-- A host class comes first, but a scripted class is the first in the hierarchy of the object
  that has such a member. What host code sees of the scripted class is called. -/
  | scripted {k k' : ClassRef} {v : Value} (reached : Reached σ.world i name (σ.world.typesOf args) chain k)
      (unscripted : σ.world.script? k = none) (own : (σ.world.ownMember k name).isSome)
      (first : FirstMember σ.world i name c k' v) (inside : (σ.world.script? k').isSome) :
      SuperCall ev c i name args caller σ chain
        (ev.callInherited (.object i) name (memberOf σ.world (.object i) v) args caller σ)
  | missing (nowhere : ∀ k ∈ chain, Lacks σ.world i name (σ.world.typesOf args) k) :
      SuperCall ev c i name args caller σ chain
        (.failed (.fault (.superMethodNotFound name (σ.world.qualname c)) none) σ)

variable {name : String} {types : List Ty} {chain : List ClassRef} {c : ClassRef}
variable {args : List Value} {caller : Node}

theorem Reached.cons (h : Reached w i name types chain k) {b : ClassRef}
    (lacks : Lacks w i name types b) : Reached w i name types (b :: chain) k := by
  obtain ⟨before, after, rfl, passed⟩ := h
  exact ⟨b :: before, after, rfl, List.forall_mem_cons.mpr ⟨lacks, passed⟩⟩

theorem reached_head (w : World) (i : ObjectId) (name : String) (types : List Ty) (chain : List ClassRef) (k : ClassRef) :
    Reached w i name types (k :: chain) k := ⟨[], chain, rfl, List.forall_mem_nil _⟩

theorem SuperCall.cons {ev : Evaluator} {o : Outcome EvalState Value}
    (h : SuperCall ev c i name args caller σ chain o) {b : ClassRef}
    (lacks : Lacks σ.world i name (σ.world.typesOf args) b) : SuperCall ev c i name args caller σ (b :: chain) o := by
  cases h with
  | method reached scripted chosen declares => exact .method (reached.cons lacks) scripted chosen declares
  | ambiguous reached scripted undecided => exact .ambiguous (reached.cons lacks) scripted undecided
  | host reached unscripted own first outside => exact .host (reached.cons lacks) unscripted own first outside
  | scripted reached unscripted own first inside => exact .scripted (reached.cons lacks) unscripted own first inside
  | missing nowhere => exact .missing (List.forall_mem_cons.mpr ⟨lacks, nowhere⟩)

theorem SuperCall.of_chosen {ev : Evaluator} {o : Outcome EvalState Value} {m : Method}
    (h : SuperCall ev c i name args caller σ (k :: chain) o) (scripted : (σ.world.script? k).isSome)
    (chosen : Chosen σ.world i name (σ.world.typesOf args) k m) :
    m.declaringClass = some k ∧ o = ev.invoke m args caller σ := by
  obtain ⟨j, best, there⟩ := chosen
  have given : ¬Lacks σ.world i name (σ.world.typesOf args) k := by
    intro lacks
    have none := World.mostSpecific_eq_none_iff.mpr (List.forall_mem_map.mpr (lacks.scripted scripted))
    cases none.symm.trans best
  have here {b : ClassRef} (reached : Reached σ.world i name (σ.world.typesOf args) (k :: chain) b) : b = k := by
    obtain ⟨before, after, split, passed⟩ := reached
    cases before with
    | nil => exact (List.cons.inj split).1.symm
    | cons a before => exact absurd (passed k (by simp [(List.cons.inj split).1])) given
  cases h with
  | method reached _ other declares =>
    cases here reached
    obtain ⟨j', best', there'⟩ := other
    cases best.symm.trans best'
    cases there.symm.trans there'
    exact ⟨declares, rfl⟩
  | ambiguous reached _ undecided =>
    cases here reached
    cases best.symm.trans undecided
  | host reached unscripted | scripted reached unscripted =>
    cases here reached
    rw [unscripted] at scripted
    cases scripted
  | missing nowhere => exact absurd (nowhere k List.mem_cons_self) given

theorem superAttribute_of_firstMember {v : Value} (h : FirstMember w i name c k v) :
    superAttribute w c (.object i) name = memberOf w (.object i) v := by
  obtain ⟨before, after, split, none⟩ := h.first
  have passed : before.findSome? (fun k => w.ownMember k name) = Option.none := List.findSome?_eq_none_iff.mpr none
  have found : w.memberIn (classesAfter w c (.object i)) name = some v := by
    rw [World.memberIn, split, List.findSome?_append, passed, List.findSome?_cons, h.own]
    rfl
  rw [superAttribute, found]

section Steps

variable {ev : Evaluator} {args : List Value} {caller : Node} {rest : List ClassRef}

theorem invokeInChain_of_chosen {m : Method} (scripted : (σ.world.script? k).isSome)
    (chosen : Chosen σ.world i name (σ.world.typesOf args) k m) :
    ev.invokeInChain c (.object i) name args caller (k :: rest) σ = ev.invoke m args caller σ := by
  obtain ⟨j, best, there⟩ := chosen
  unfold keptOverloads at best there
  unfold invokeInChain
  rw [Eval.get_bind]
  simp only [scripted, if_true, best, Option.bind_some, there]

theorem invokeInChain_of_error {cause : Cause} (scripted : (σ.world.script? k).isSome)
    (undecided : σ.world.mostSpecific (σ.world.typesOf args)
      ((keptOverloads σ.world i name k).map Method.paramTypes) = .error cause) :
    ev.invokeInChain c (.object i) name args caller (k :: rest) σ = .failed (.fault cause none) σ := by
  unfold keptOverloads at undecided
  unfold invokeInChain
  rw [Eval.get_bind]
  simp only [scripted, if_true, undecided]
  rfl

theorem invokeInChain_of_member (unscripted : σ.world.script? k = none) (own : (σ.world.ownMember k name).isSome) :
    ev.invokeInChain c (.object i) name args caller (k :: rest) σ =
      ev.callInherited (.object i) name (superAttribute σ.world c (.object i) name) args caller σ := by
  unfold invokeInChain
  rw [Eval.get_bind]
  simp only [unscripted, own, Option.isSome_none, Bool.false_eq_true, if_false, if_true]

theorem invokeInChain_of_lacks (lacks : Lacks σ.world i name (σ.world.typesOf args) k) :
    ev.invokeInChain c (.object i) name args caller (k :: rest) σ =
      ev.invokeInChain c (.object i) name args caller rest σ := by
  rw [invokeInChain, Eval.get_bind]
  cases script : σ.world.script? k with
  | some part =>
    have refused := lacks.scripted (by rw [script]; rfl)
    have none : σ.world.mostSpecific (σ.world.typesOf args) ((keptOverloads σ.world i name k).map Method.paramTypes) =
        .ok none := World.mostSpecific_eq_none_iff.mpr (List.forall_mem_map.mpr refused)
    unfold keptOverloads at none
    simp only [Option.isSome_some, if_true, none, Option.bind_none]
  | none => simp only [lacks.host script, Option.isSome_none, Bool.false_eq_true, if_false]

end Steps

theorem Chosen.mem {m : Method} (h : Chosen w i name types k m) : m ∈ keptMethods w k (.object i) := by
  obtain ⟨j, -, there⟩ := h
  exact (List.mem_filter.mp (List.mem_of_getElem? there)).1

theorem superCall_invokeInChain (ev : Evaluator) (declares : ∀ k ∈ chain, (σ.world.script? k).isSome →
      ∀ m ∈ keptMethods σ.world k (.object i), m.declaringClass = some k)
    (members : ∀ k ∈ chain, (σ.world.ownMember k name).isSome → ∃ k' v, FirstMember σ.world i name c k' v) :
    SuperCall ev c i name args caller σ chain (ev.invokeInChain c (.object i) name args caller chain σ) := by
  induction chain with
  | nil => exact .missing (List.forall_mem_nil _)
  | cons k rest ih =>
    have here := reached_head σ.world i name (σ.world.typesOf args) rest k
    have further (lacks : Lacks σ.world i name (σ.world.typesOf args) k) :
        SuperCall ev c i name args caller σ (k :: rest) (ev.invokeInChain c (.object i) name args
          caller (k :: rest) σ) := by
      rw [invokeInChain_of_lacks lacks]
      refine (ih (fun b hb => ?_) fun b hb => ?_).cons lacks
      · exact declares b (List.mem_cons_of_mem k hb)
      · exact members b (List.mem_cons_of_mem k hb)
    cases script : σ.world.script? k with
    | some part =>
      have scripted : (σ.world.script? k).isSome := by rw [script]; rfl
      cases choice : σ.world.mostSpecific (σ.world.typesOf args)
        ((keptOverloads σ.world i name k).map Method.paramTypes) with
      | error cause =>
        rw [invokeInChain_of_error scripted choice]
        exact .ambiguous here scripted choice
      | ok best =>
        cases best with
        | none =>
          refine further ⟨fun _ m hm => ?_, fun host => ?_⟩
          · exact World.mostSpecific_eq_none_iff.mp choice m.paramTypes (List.mem_map_of_mem hm)
          · rw [script] at host
            cases host
        | some j =>
          obtain ⟨signature, there, -⟩ := World.signatureAssignable_of_mostSpecific choice
          rw [List.getElem?_map] at there
          obtain ⟨m, there, -⟩ := Option.map_eq_some_iff.mp there
          have chosen : Chosen σ.world i name (σ.world.typesOf args) k m := ⟨j, choice, there⟩
          rw [invokeInChain_of_chosen scripted chosen]
          exact .method here scripted chosen (declares k List.mem_cons_self scripted m chosen.mem)
    | none =>
      cases own : σ.world.ownMember k name with
      | none =>
        refine further ⟨fun scripted => ?_, fun _ => own⟩
        rw [script] at scripted
        cases scripted
      | some u =>
        have held : (σ.world.ownMember k name).isSome := by rw [own]; rfl
        obtain ⟨k', v, first⟩ := members k List.mem_cons_self held
        rw [invokeInChain_of_member script held, superAttribute_of_firstMember first]
        cases nearest : σ.world.script? k' with
        | none => exact .host here script held first nearest
        | some part => exact .scripted here script held first (by rw [nearest]; rfl)

end Search

theorem sublist_classesAfter {c d : ClassRef} {chain : List ClassRef} (object : w.classOf (.object i) = d)
    (line : (c :: chain).Sublist (w.mro d)) : chain.Sublist (classesAfter w c (.object i)) := by
  unfold classesAfter
  rw [object]
  generalize w.mro d = l at line
  induction l with
  | nil => cases line
  | cons a l ih =>
    by_cases here : a = c
    · subst here
      simpa using List.cons_sublist_cons.mp line
    · have later : (c :: chain).Sublist l := by
        cases line with
        | cons _ later => exact later
        | cons_cons _ _ => exact absurd rfl here
      simpa [here] using ih later

theorem exists_firstMember {c k : ClassRef} {name : String} (hk : k ∈ classesAfter w c (.object i))
    (own : (w.ownMember k name).isSome) : ∃ k' v, FirstMember w i name c k' v := by
  obtain ⟨k', found⟩ : ∃ k', (classesAfter w c (.object i)).find? (fun b => (w.ownMember b name).isSome) = some k' :=
    Option.isSome_iff_exists.mp (List.find?_isSome.mpr ⟨k, hk, own⟩)
  obtain ⟨held, before, after, split, none⟩ := List.find?_eq_some_iff_append.mp found
  obtain ⟨v, there⟩ := Option.isSome_iff_exists.mp held
  exact ⟨k', v, ⟨before, after, split, by simpa using none⟩, there⟩

end Evaluator

namespace Path

variable {x y : String}

theorem last_dotted (hx : '.' ∉ x.toList) (hy : '.' ∉ y.toList) : last (x ++ "." ++ y) = y := by
  rw [last, segments_dotted hx hy]
  rfl

theorem owner?_dotted (hx : '.' ∉ x.toList) (hy : '.' ∉ y.toList) : owner? (x ++ "." ++ y) = some x := by
  have given : (x ++ "." ++ y).isEmpty = false := by
    rw [Bool.eq_false_iff]
    intro empty
    simpa using congrArg String.toList (String.isEmpty_iff.mp empty)
  rw [owner?, if_pos (isCompound_dotted x y), count, given, segments_dotted hx hy]
  simp [leading?, segments_dotted hx hy, join]

end Path

namespace Evaluator

variable {w : World} {s inst : ScopeId} {c : ClassRef} {i : ObjectId} {name : String}

theorem InBody.remembering {m : Array Memory} {n : Nat} (h : InBody c i inst w s) (calm : w.Calm (w.remembering m n)) :
    InBody c i inst (w.remembering m n) s := h.later calm.frames calm.inert.upheld fun _ _ => ⟨rfl, rfl⟩

theorem invokeName_super (ev : Evaluator) (body : InBody c i inst w s) (plain : '.' ∉ name.toList)
    (free : w.SuperFree) (args : List Value) (caller : Node) (r : StackRef) :
    ∃ m n, ev.invokeName s ("super" ++ "." ++ name) args caller ⟨w, r⟩ =
      ev.invokeInChain c (.object i) name args caller (w.mro c).tail ⟨w.remembering m n, r⟩ := by
  obtain ⟨resolver, m, n, found, known⟩ := Run.resolverFor_eq w s ("super" ++ "." ++ name)
  have undotted : '.' ∉ "super".toList := by decide
  have static : resolver.staticClass = none := by
    rcases known with held | ⟨-, -, none⟩
    · exact free.staticClass (Path.owner?_dotted undotted plain) held
    · exact none
  have runs := (body.remembering (((Run.resolverFor s _).meets_calm w).of_done found)).runsFor
  have start : executingClass (w.remembering m n) s (.object i) = c := by
    have found : (w.remembering m n).bodyClass? s = some c := runs.body
    rw [World.bodyClass?] at found
    rw [executingClass, found]
    rfl
  refine ⟨m, n, ?_⟩
  rw [invokeName_of_resolver ev found, static]
  dsimp only
  rw [invokeAfresh]
  simp only [Path.isCompound_dotted, Path.owner?_dotted undotted plain, Path.last_dotted undotted plain]
  simp only [Bool.not_true, Bool.false_eq_true, if_false, Option.getD_some, if_true]
  rw [Eval.read_bind]
  simp only [runs.superInstance]
  rw [invokeSuper, Eval.get_bind]
  simp only [start]
  rfl

theorem declaringClass_of_built {k : ClassRef} {decls : List Node} {ms : List Method}
    (h : List.Forall₂ (BuiltFor inst k) decls ms) : ∀ m ∈ ms, m.declaringClass = some k := by
  induction h with
  | nil => exact List.forall_mem_nil _
  | cons built others ih =>
    obtain ⟨m', σ, σ', -, rfl⟩ := built
    exact List.forall_mem_cons.mpr ⟨rfl, ih⟩

/-- In the body of a method or a constructor that a class `c` declares, in any block or local
function there, a call on `super` goes through the classes after `c` in the line of `c` itself,
whatever the class `d` of the instance is. A method of one of them runs if it is chosen in the first
class that has anything for the call. Only if that is a host class can the call end up elsewhere:
with the first class after `c` in the line of `d` that has such a member, and if that one is
scripted, with the method of the instance, which may be the one of `c` or of a class below.

A script can get hold of scopes and change the marks by which a body finds its instance, or assign
their attributes; bodies are followed as long as it does not. -/
theorem super_call_climbs (ev : Evaluator) {w₀ w₁ w : World} {c d : ClassRef} {part : ScriptPart} {i : ObjectId}
    {inst s : ScopeId} {name : String} (linear : w₀.Linearised) (free : w₀.SuperFree) (prepared : Prepared d i inst w₀ w₁)
    (since : w₁.Upholds w) (script : w₀.script? c = some part) (above : c ∈ w₀.mro d) (object : w.classOf (.object i) = d)
    (body : InBody c i inst w s) (plain : '.' ∉ name.toList) (args : List Value) (caller : Node) (r : StackRef) :
    (∀ args caller σ σ', σ.world.HoldsMethods i [] → ev.setUpScripted (.object i) d args caller σ =
    .done () σ' → ∃ inst w', Prepared d i inst σ.world w') ∧
    (∀ n node σ σ', ((ofFuel n).exec node).Leads σ σ' → σ'.world.Unassigned Run.makings →
      σ.world.SameFrames σ'.world ∧ σ.world.Upholds σ'.world ∧ (σ.world.SuperFree → σ'.world.SuperFree)) ∧
    (∀ k ∈ (w.mro c).tail, k ∈ w.mro d ∧ c ∉ w.mro k) ∧
    (∀ k ∈ w.mro d, ∀ part, w.script? k = some part →
      List.Forall₂ (BuiltFor inst k) part.body.methods (keptMethods w k (.object i))) ∧
    ∃ m n, SuperCall ev c i name args caller ⟨w.remembering m n, r⟩ (w.mro c).tail
      (ev.invokeName s ("super" ++ "." ++ name) args caller ⟨w, r⟩) := by
  have upheld : w₀.Upholds w := prepared.upholds.trans since
  have same : w₀.SameClasses w := upheld.classes
  obtain ⟨d, rfl, there, line⟩ := linear.line script above
  obtain ⟨n, rfl, -⟩ := World.exists_made_of_script script
  have classes : w.mro (.made d) = w₀.mro (.made d) := same.mro_of_made there
  have own : w.mro (.made n) = w₀.mro (.made n) := same.mro_of_script script
  have kept (k : ClassRef) (hk : k ∈ w.mro (.made d)) (part : ScriptPart) (scripted : w.script? k = some part) :
      List.Forall₂ (BuiltFor inst k) part.body.methods (keptMethods w k (.object i)) := by
    rw [classes] at hk
    exact prepared.kept linear since.methods hk ((same.of_mem linear there hk).1.symm.trans scripted)
  have climbs (k : ClassRef) (hk : k ∈ (w.mro (.made n)).tail) : k ∈ w.mro (.made d) ∧ .made n ∉ w.mro k := by
    rw [own] at hk
    have listed : k ∈ w₀.mro (.made d) := line.subset (List.mem_of_mem_tail hk)
    rw [classes, (same.of_mem linear there listed).2]
    exact ⟨listed, linear.not_mem_mro hk⟩
  refine ⟨fun args caller σ σ' blank done => ?_, fun fuel node σ σ' leads _ => ?_, climbs, kept, ?_⟩
  · exact (prepared_of_setUpScripted ev (.made d) args caller blank).of_done done
  · have later := since_of_exec fuel leads
    exact ⟨later.frames, later.upheld rfl, fun free => free.later (later.upheld rfl).calls⟩
  · obtain ⟨memories, count, run⟩ := invokeName_super ev body plain (free.later upheld.calls) args caller r
    refine ⟨memories, count, ?_⟩
    rw [run]
    refine superCall_invokeInChain ev (fun k hk scripted m hm => ?_) fun k hk held => ?_
    · obtain ⟨part, script⟩ := Option.isSome_iff_exists.mp scripted
      exact declaringClass_of_built (kept k (climbs k hk).1 part script) m hm
    · refine exists_firstMember ((sublist_classesAfter object ?_).subset hk) held
      rw [classes]
      exact own ▸ line

theorem first_mem_ancestors : ∀ c ∈ [ClassRef.made 0], c ∈ [ClassRef.made 0, .core .object] :=
  fun _ h => List.mem_append_left [ClassRef.core .object] h

theorem object_mem_ancestors : ClassRef.core .object ∈ [ClassRef.made 0, .core .object] :=
  List.mem_append_right [ClassRef.made 0] List.mem_cons_self

theorem object_mem_all_ancestors : ClassRef.core .object ∈ [ClassRef.made 1, .made 0, .core .object] :=
  List.mem_append_right [ClassRef.made 1, .made 0] List.mem_cons_self

/-- A class with a method `rank`, one that extends it, and one that extends that one, each with a
method `rank` of its own. There is an object of the last class. The static scopes are 1, 2 and 3. -/
def risingWorld : World where
  scopes := #[{ registry := some 0 }, { parent := some 0, isClass := true }, { parent := some 0, isClass := true },
    { parent := some 0, isClass := true }]
  objects := #[{ cls := .made 2 }]
  classes := #[
    { (default : MadeClass) with
      name := "A"
      script := some { (default : ScriptPart) with staticScope := 1, body := { methods := [givingMethod "rank" 1] } } },
    { name := "B", qualname := "B", module := "m", bases := [.made 0], ancestors := [.made 0, .core .object]
      bases_mem := first_mem_ancestors
      object_mem := object_mem_ancestors
      metaclass := .core .type
      script := some { (default : ScriptPart) with staticScope := 2, body := { methods := [givingMethod "rank" 2] } } },
    { name := "C", qualname := "C", module := "m", bases := [.made 1], ancestors := [.made 1, .made 0, .core .object]
      bases_mem := fun _ h => List.mem_append_left [ClassRef.made 0, .core .object] h
      object_mem := object_mem_all_ancestors
      metaclass := .core .type
      script := some { (default : ScriptPart) with staticScope := 3, body := { methods := [givingMethod "rank" 3] } } }]
  registries := #[{}]

theorem linearised_risingWorld : risingWorld.Linearised := .of_lt (by decide)

theorem superFree_risingWorld : risingWorld.SuperFree := by
  rintro s name - ⟨r, held, -⟩
  cases held

/-- A method of the second class runs on an object of the third one. The call in it runs the method
of the first class. -/
theorem super_call_climbs_rising : ∃ w w' f,
    risingWorld.Linearised ∧ risingWorld.SuperFree ∧ Prepared (.made 2) 0 4 risingWorld w ∧ w.Upholds w' ∧
      InBody (.made 1) 0 4 w' f ∧ ∃ m memories count, m.declaringClass = some (.made 0) ∧
        (ofFuel 9).invokeName f ("super" ++ "." ++ "rank") [] .absent ⟨w', .own ⟨[f]⟩⟩ =
          (ofFuel 9).invoke m [] .absent ⟨w'.remembering memories count, .own ⟨[f]⟩⟩ := by
  let own : Method := { name := "rank", home := 4, body := .blockOf [.return {} (.literal {} (.ofInt 2))]
                        node := givingMethod "rank" 2, declaringClass := some (.made 1) }
  obtain ⟨w₁, w₂, made, linked, run⟩ : ∃ w₁ w₂,
      (instanceScope (.made 2)).run risingWorld = .done 4 w₁ ∧
      (Run.setClassInstance 4 (.object 0)).run w₁ = .done () w₂ ∧
      ((forEach (scriptedChain risingWorld (.made 2)) fun e => declareMethods 0 4 e.1 e.2.body)
        ⟨w₂, .own ⟨[4, 0]⟩⟩).doneWith fun _ τ =>
          (4 < τ.world.scopes.size ∧ (τ.world.scope 4).isBlock = false ∧ (τ.world.scope 4).isClass = true ∧
            ((τ.world.scope 4).classInstance.any fun v => v.same (.object 0)) = true) ∧
          ((τ.world.script? (.made 0)).isSome ∧
            (keptOverloads τ.world 0 "rank" (.made 0)).map Method.paramTypes = [[]]) ∧
          τ.world.classOf (.object 0) = .made 2 ∧ (τ.world.mro (.made 1)).tail = [.made 0, .core .object] :=
    ⟨_, _, rfl, rfl, by decide +kernel⟩
  obtain ⟨_, τ, declared, shape⟩ := Outcome.exists_of_doneWith run
  obtain ⟨⟨inside, plain, isClass, held⟩, ⟨scripted, rank⟩, object, chain⟩ := of_decide_eq_true shape
  have prepared : Prepared (.made 2) 0 4 risingWorld τ.world := .mk ⟨by decide, rfl⟩ made linked (.refl w₂) declared
  have owner : τ.world.IsScopeOf 4 0 := by
    obtain ⟨v, linked, same⟩ := (Option.any_eq_true ..).mp held
    have only : v = .object 0 := by
      cases v with
      | object j => exact congrArg Value.object (beq_iff_eq.mp same)
      | _ => cases same
    exact ⟨inside, plain, isClass, linked.trans (congrArg some only)⟩
  -- A new scope changes nothing else.
  obtain ⟨f, w', entered, scripted, rank, object, chain⟩ : ∃ f w',
      (methodFrame own .absent).run τ.world = .done f w' ∧
      (w'.script? (.made 0)).isSome ∧ (keptOverloads w' 0 "rank" (.made 0)).map Method.paramTypes = [[]] ∧
      w'.classOf (.object 0) = .made 2 ∧ (w'.mro (.made 1)).tail = [.made 0, .core .object] :=
    ⟨_, _, rfl, scripted, rank, object, chain⟩
  have since : τ.world.Upholds w' := (((methodFrame own .absent).meets_calm τ.world).of_done entered).inert.upheld
  have built : BuiltFor 4 (.made 1) (givingMethod "rank" 2) own := ⟨_, ⟨risingWorld, .own ⟨[0]⟩⟩, _, rfl, rfl⟩
  have body : InBody (.made 1) 0 4 w' f := .method owner built .absent entered
  have plain : '.' ∉ "rank".toList := by decide
  obtain ⟨-, -, -, -, memories, count, call⟩ := super_call_climbs (ofFuel 9) linearised_risingWorld superFree_risingWorld
    prepared since rfl (by decide) object body plain [] .absent (.own ⟨[f]⟩)
  obtain ⟨m, only, -⟩ := List.map_eq_singleton_iff.mp rank
  have best : (w'.remembering memories count).mostSpecific []
      ((keptOverloads w' 0 "rank" (.made 0)).map Method.paramTypes) = .ok (some 0) := by
    rw [rank]
    rfl
  rw [chain] at call
  obtain ⟨declares, runs⟩ := call.of_chosen scripted ⟨0, best, congrArg (·[0]?) only⟩
  exact ⟨τ.world, w', f, linearised_risingWorld, superFree_risingWorld, prepared, since, body, m,
    memories, count, declares, runs⟩

/-- A class `A` extends a host class that has a method `label`, and calls it on `super`. A class `D`
extends `A`, declares such a method and has one from a class `E` that it implements. On an instance
of `D`, the call runs the method of `D`. -/
theorem super_call_can_descend :
    let text (t : String) : Node := .literal {} (.ofString t)
    let method (name : String) (s : Node) : Node := .methodDecl {} name [] (.blockOf [s]) .absent []
    let type (name : String) : Node := .typeRef {} (.named name) 0
    let a : Node := .classDecl {} "A" (.blockOf [method "A" (.invocation {} "super" [text "q"]),
      method "other" (.return {} (.invocation {} "super.label" []))]) (type "hostlib.Base") [] [] false
    let e : Node := .classDecl {} "E" (.blockOf [method "label" (.return {} (text "E"))]) (type "hostlib.Base") [] [] false
    let d : Node := .classDecl {} "D" (.blockOf [method "label" (.return {} (text "D"))]) (type "A") [type "E"] [] false
    let asked (c : String) : Node := .primary {} (.allocation {} (type c) [] .absent) [.callSuffix {} "other" []]
    ∃ r σ, (ofFuel 9).exec (.exprList {} [a, e, d]) ⟨.bare, .own ⟨[0]⟩⟩ = .done r σ ∧
      (∃ mark τ, (ofFuel 9).exec (asked "A") σ = .done (.value (.str "base:q" mark)) τ) ∧
      ∃ mark τ, (ofFuel 9).exec (asked "D") σ = .done (.value (.str "D" mark)) τ := by
  intro text method type a e d asked
  have run : ((ofFuel 9).exec (.exprList {} [a, e, d]) ⟨.bare, .own ⟨[0]⟩⟩).doneWith fun _ σ =>
      givesText "base:q" ((ofFuel 9).exec (asked "A") σ) && givesText "D" ((ofFuel 9).exec (asked "D") σ) := by
    decide +kernel
  obtain ⟨r, σ, declared, run⟩ := Outcome.exists_of_doneWith run
  rw [Bool.and_eq_true] at run
  exact ⟨r, σ, declared, givesText_iff.mp run.1, givesText_iff.mp run.2⟩

end Evaluator

end ScriptCore
