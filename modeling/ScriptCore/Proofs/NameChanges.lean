import ScriptCore.Proofs.VariableChanges

namespace ScriptCore

namespace World

variable {w w' w'' : World} {s t : ScopeId} {r : Nat}

/-- One scope has changed, but stays at its place in the tree. -/
structure Redone (t : ScopeId) (w w' : World) : Prop where
  registries : w'.registries = w.registries
  scope : ∀ u, u ≠ t → w'.scope u = w.scope u
  memory : ∀ u, u ≠ t → w'.memory u = w.memory u
  parent : (w'.scope t).parent = (w.scope t).parent
  registry : (w'.scope t).registry = (w.scope t).registry

namespace Redone

theorem refl (w : World) : Redone t w w := ⟨rfl, fun _ _ => rfl, fun _ _ => rfl, rfl, rfl⟩

theorem trans (h : Redone t w w') (k : Redone t w' w'') : Redone t w w'' where
  registries := k.registries.trans h.registries
  scope u hu := (k.scope u hu).trans (h.scope u hu)
  memory u hu := (k.memory u hu).trans (h.memory u hu)
  parent := k.parent.trans h.parent
  registry := k.registry.trans h.registry

theorem modifyScope {f : Scope → Scope} (hf : ∀ x, (f x).parent = x.parent ∧ (f x).registry = x.registry) :
    Redone t w (w.modifyScope t f) where
  registries := rfl
  scope u hu := by
    rw [scope_modifyScope, if_neg fun h => hu h.1.symm]
  memory _ _ := rfl
  parent := by
    rw [scope_modifyScope]
    split
    · exact (hf _).1
    · rfl
  registry := by
    rw [scope_modifyScope]
    split
    · exact (hf _).2
    · rfl

theorem forgetting (t : ScopeId) (w : World) : Redone t w (w.forgetting t) where
  registries := rfl
  scope _ _ := rfl
  memory u hu := by
    unfold World.forgetting
    rw [memory_modifyMemory, if_neg fun h => hu h.symm]
  parent := rfl
  registry := rfl

theorem told {f : Scope → Scope} (hf : ∀ x, (f x).parent = x.parent ∧ (f x).registry = x.registry) :
    Redone t w ((w.modifyScope t f).forgetting t) :=
  (modifyScope hf).trans (.forgetting t _)

theorem registry_lt (h : Redone t w w') (hw : w.Settled) (s : ScopeId) :
    (w'.scope s).registry.getD 0 < w'.registries.size := by
  have registry : (w'.scope s).registry = (w.scope s).registry := by
    by_cases hs : s = t
    · rw [hs, h.registry]
    · rw [h.scope s hs]
  rw [registry, h.registries]
  exact hw.registry s

theorem extends_registry (h : Redone t w w') (r : Nat) : (w.registryAt r).Extends (w'.registryAt r) := by
  rw [registryAt, registryAt, h.registries]
  exact .refl _

theorem keeps (h : Redone t w w') (apart : s ≠ t) (outside : t ∉ w.ancestry s) : w.Keeps w' s := by
  have same (u : ScopeId) (hu : u ∈ w.ancestry s) : w'.scope u = w.scope u :=
    h.scope u fun ht => outside (ht ▸ hu)
  have around : w.SameAround w' s := fun u hu => by
    rw [same u hu]
    exact .refl _
  refine ⟨h.memory s apart, around, h.extends_registry _, fun x _ free u hu => ?_⟩
  rw [around.ancestry] at hu
  rw [importTargets, same u hu]
  exact free u hu

end Redone

theorem Settled.redone (hw : w.Settled) (h : Redone t w w') (told : (w'.memory t).IsBlank)
    (heard : ∀ s, s ≠ t → t ∈ w.ancestry s → (w.memory s).IsBlank) : w'.Settled := by
  refine hw.of_keeps (h.registry_lt hw) fun s => ?_
  by_cases apart : s = t
  · exact .inl (apart ▸ told)
  by_cases inside : t ∈ w.ancestry s
  · left
    rw [h.memory s apart]
    exact heard s apart inside
  · exact .inr (h.keeps apart inside)

theorem Settled.redone_ground (hw : w.Settled) (h : Redone t w w') (told : (w'.memory t).IsBlank)
    (ground : (w.scope t).SameGround (w'.scope t))
    (heard : ∀ s, s ≠ t → t ∈ w.ancestry s → ∀ name, ¬w.CallsThrough s name) : w'.Settled := by
  refine hw.of_keeps (h.registry_lt hw) fun s => ?_
  by_cases apart : s = t
  · exact .inl (apart ▸ told)
  right
  by_cases inside : t ∈ w.ancestry s
  · refine ⟨h.memory s apart, fun u _ => ?_, h.extends_registry _, fun x calls => absurd calls (heard s apart inside x)⟩
    by_cases hu : u = t
    · exact hu ▸ ground
    · rw [h.scope u hu]
      exact .refl _
  · exact h.keeps apart inside

theorem Settled.reregistered (hw : w.Settled) (f : Registry → Registry)
    (heard : ∀ s, w.registryId s = r → (w.memory s).listening ∨ (w.memory s).IsBlank) :
    ((w.modifyRegistry r f).notify r).Settled := by
  have size : (w.modifyRegistry r f).registries.size = w.registries.size := by simp [modifyRegistry]
  have around (s : ScopeId) : w.SameAround ((w.modifyRegistry r f).notify r) s := .of_scopes rfl s
  have registryId (s : ScopeId) : (w.modifyRegistry r f).registryId s = w.registryId s :=
    registryId_eq (fun _ _ => rfl) fun _ _ => rfl
  refine hw.of_keeps (fun s => size ▸ hw.registry s) fun s => ?_
  have memory : ((w.modifyRegistry r f).notify r).memory s =
      if (w.memory s).listening && w.registryId s == r then (w.memory s).forgotten else w.memory s := by
    rw [memory_notify, registryId]
    rfl
  by_cases concerned : w.registryId s = r
  · left
    rw [memory]
    rcases heard s concerned with listening | blank
    · rw [listening, concerned, BEq.rfl, Bool.and_self, if_pos rfl]
      exact Memory.isBlank_forgotten _
    · split
      · exact Memory.isBlank_forgotten _
      · exact blank
  · right
    have other : (w.registryId s == r) = false := beq_eq_false_iff_ne.mpr concerned
    refine ⟨by rw [memory, other, Bool.and_false]; rfl, around s, ?_, fun x _ free => free.of_scopes rfl⟩
    · change (w.registryAt (w.registryId s)).Extends ((w.modifyRegistry r f).registryAt (w.registryId s))
      rw [registryAt_modifyRegistry, if_neg fun h => concerned h.1.symm]
      exact .refl _

theorem mem_ancestry (h : t ∈ w.ancestry s) : t = s ∨ t < s ∧ s < w.scopes.size := by
  have nearest (n : Nat) (s : ScopeId) (hn : t ∈ w.nearestScopes n s) : t = s ∨ t < s ∧ s < w.scopes.size := by
    induction n generalizing s with
    | zero => exact .inl (List.mem_singleton.mp hn)
    | succ n ih =>
      unfold nearestScopes at hn
      split at hn
      · exact .inl (List.mem_singleton.mp hn)
      · next p hp =>
        split at hn
        · next older =>
          have there : s < w.scopes.size := by
            refine Nat.lt_of_not_le fun outside => ?_
            rw [scope, Array.getElem?_eq_none outside] at hp
            cases hp
          rcases List.mem_cons.mp hn with same | hn
          · exact .inl same
          · rcases ih p hn with rfl | ⟨less, -⟩
            · exact .inr ⟨older, there⟩
            · exact .inr ⟨Nat.lt_trans less older, there⟩
        · exact .inl (List.mem_singleton.mp hn)
  exact nearest s s h

theorem Settled.opened (hw : w.Settled) {x : Scope} (hx : x.registry = none) (blank : (w.memory w.scopes.size).IsBlank) :
    World.Settled { w with scopes := w.scopes.push x } := by
  have scope (u : ScopeId) (hu : u ≠ w.scopes.size) : World.scope { w with scopes := w.scopes.push x } u = w.scope u := by
    rw [World.scope, World.scope, Array.getElem?_push, if_neg hu]
  refine hw.of_keeps (fun s => ?_) fun s => ?_
  · by_cases new : s = w.scopes.size
    · have none : World.scope { w with scopes := w.scopes.push x } s = x := by
        rw [World.scope, Array.getElem?_push, if_pos new]
        rfl
      rw [none, hx]
      exact Nat.zero_lt_of_lt (hw.registry s)
    · rw [scope s new]
      exact hw.registry s
  · by_cases new : s = w.scopes.size
    · exact .inl (new ▸ blank)
    right
    have older (u : ScopeId) (hu : u ∈ w.ancestry s) : u ≠ w.scopes.size := by
      rcases mem_ancestry hu with rfl | ⟨less, there⟩
      · exact new
      · exact Nat.ne_of_lt (Nat.lt_trans less there)
    have around : w.SameAround { w with scopes := w.scopes.push x } s := fun u hu => by
      rw [scope u (older u hu)]
      exact .refl _
    refine ⟨rfl, around, .refl _, fun y _ free u hu => ?_⟩
    rw [around.ancestry] at hu
    rw [importTargets, scope u (older u hu)]
    exact free u hu

end World

namespace Run

variable {w : World} {s : ScopeId} {name : String}

theorem settled_remember (hw : w.Settled) {r : Resolver} {f : Resolver → Resolver}
    (asClass : ∀ held c, (w.memory s).resolvers.get? name = some held → (f held).asClass = some c →
      name ≠ "var" ∧ w.recalled s name = some (some c))
    (static : ∀ held c, (w.memory s).resolvers.get? name = some held → (f held).staticClass =
      some c → w.Means s name c) :
    (remember s name r f).run.Meets w (fun _ v => v.Settled) fun _ v => v.Settled := by
  refine hw.modifyMemory ?_
  unfold noted
  cases found : (w.memory s).resolvers.get? name with
  | none => exact hw.backs s
  | some held =>
    dsimp only
    split
    · exact (hw.backs s).putResolver (asClass held · found) (static held · found)
    · exact hw.backs s

theorem settled_findClass (hw : w.Settled)
    (h : ((getClass s name).run w).result = some (.ok none) →
      ∀ c, ((findClass s name).run w).result ≠ some (.ok (some c))) :
    (findClass s name).run.Meets w (fun found v => v.Settled ∧ ∀ c, found = some c → v.recalled s name = some (some c))
      fun _ v => v.Settled := by
  have direct := settled_getClass hw s name
  unfold Comp.Meets at direct
  refine ((Comp.meets_self _ w).and ((Agrees.findClass s name).settled w hw)).mono ?_ fun _ _ h => h.2
  rintro found v ⟨run, settled⟩
  refine ⟨settled, ?_⟩
  rintro c rfl
  cases first : (getClass s name).run w with
  | done own u =>
    have rest := findClass_of_getClass first
    cases own with
    | none =>
      rw [run, first] at h
      exact absurd rfl (h rfl c)
    | some d =>
      rw [run] at rest
      cases rest
      rw [first] at direct
      exact direct.2
  | failed e u =>
    have ends : (findClass s name).run w = .failed e u := Comp.bind_of_failed first
    rw [run] at ends
    cases ends
  | exhausted =>
    have ends : (findClass s name).run w = .exhausted := Comp.bind_of_exhausted first
    rw [run] at ends
    cases ends

theorem settled_resolveClass (hw : w.Settled)
    (h : ((getClass s name).run w).result = some (.ok none) →
      ∀ c, ((findClass s name).run w).result ≠ some (.ok (some c))) :
    (resolveClass s name).run.Meets w (fun _ v => v.Settled) fun _ v => v.Settled := by
  obtain ⟨r, m, n, start, -⟩ := resolverFor_eq w s name
  have settled : (w.remembering m n).Settled := (settled_resolverFor hw s name).of_done start
  have direct := result_of_agrees (.getClass s name) hw settled
  have found := result_of_agrees (.findClass s name) hw settled
  rw [← direct, ← found] at h
  unfold Comp.Meets
  cases known : r.asClass with
  | some c =>
    unfold resolveClass
    rw [Action.run_liftM_bind_of_done start]
    simp only [known]
    exact settled
  | none =>
    by_cases loose : name = "var"
    · unfold resolveClass
      rw [Action.run_liftM_bind_of_done start]
      simp only [known, loose, if_true]
      exact settled
    rw [resolveClass_afresh start known loose]
    change Comp.Meets _ _ _ _
    simp only [Action.meets_bind]
    refine (settled_findClass settled h).imp fun found v hv => ?_
    cases found with
    | none => exact hv.1
    | some c =>
      refine settled_remember hv.1 (fun held d found hd => ?_) fun held d found hd => ?_
      · cases hd
        exact ⟨loose, hv.2 c rfl⟩
      · exact (hv.1.backs s).called name held d found hd

def rememberCall (s : ScopeId) (name : String) (target : Value) : Action .anything .proper Unit := do
  let r ← resolverFor s name
  remember s name r fun r => { r with staticClass := some target }

theorem settled_rememberCall (hw : w.Settled) {target : Value} (h : w.Means s name target) :
    (rememberCall s name target).run.Meets w (fun _ v => v.Settled) fun _ v => v.Settled := by
  obtain ⟨r, m, n, start, -⟩ := resolverFor_eq w s name
  have settled : (w.remembering m n).Settled := (settled_resolverFor hw s name).of_done start
  unfold rememberCall Comp.Meets
  rw [Action.run_liftM_bind_of_done start]
  refine settled_remember settled (fun held c found hc => ?_) fun held c _ hc => ?_
  · exact (settled.backs s).resolved name held c found hc
  · cases hc
    exact h.remembering

theorem redone_importPackages (names : List String) (root : (w.scope s).parent = none) :
    (forEach names fun p => (importPackage s p : Action .storing .proper Unit)).run.Meets w
    (fun _ v => w.Redone s v) fun _ _ => False := by
  induction names generalizing w with
  | nil => exact .refl w
  | cons p rest ih =>
    have own : w.enclosing s = s := by
      have alone : w.ancestry s = [s] := by
        unfold World.ancestry
        cases s with
        | zero => rfl
        | succ n =>
          unfold World.nearestScopes
          rw [root]
      unfold World.enclosing
      rw [alone]
      cases block : (w.scope s).isBlock <;> simp [block]
    have first : (importPackage s p).run.Meets w (fun _ v => w.Redone s v) fun _ _ => False := by
      change w.Redone s ((w.modifyScope (w.enclosing s) fun x =>
        { x with importedPackages := x.importedPackages.erase p ++ [p] }).forgetting (w.enclosing s))
      rw [own]
      exact .told fun _ => ⟨rfl, rfl⟩
    unfold forEach
    simp only [Action.meets_bind, Action.run_lift]
    refine first.imp fun _ v h => ?_
    exact (ih (h.parent.trans root)).imp fun _ _ k => h.trans k

theorem redone_clearScope (s : ScopeId) (w : World) :
    (clearScope s).run.Meets w (fun _ v => w.Redone s v ∧ (v.memory s).IsBlank) fun _ _ => False := by
  unfold clearScope
  simp only [Action.meets_bind, Action.run_lift, meets_updateVars, meets_updateScope, meets_read]
  have vars : w.Redone s (w.setVars s fun _ => {}) := .modifyScope fun _ => ⟨rfl, rfl⟩
  have emptied : w.Redone s ((w.setVars s fun _ => {}).modifyScope s fun x =>
      { x with methods := {}, importedClasses := {}, importedPackages := [], importedObjects := [], importedStatic := [] }) :=
    vars.trans (.modifyScope fun _ => ⟨rfl, rfl⟩)
  have forgotten {v : World} (h : w.Redone s v) : w.Redone s (v.forgetting s) ∧ ((v.forgetting s).memory s).IsBlank :=
    ⟨h.trans (.forgetting s v), v.isBlank_forgetting s⟩
  split
  · next root =>
    simp only [Action.meets_bind]
    refine (redone_importPackages _ (Option.isNone_iff_eq_none.mp root)).imp fun _ v k => ?_
    exact forgotten (emptied.trans k)
  · exact forgotten emptied

end Run

/-- A call that changes what names mean, or looks them up. The last one is what calls by a dotted
name do before the method itself begins. -/
inductive NameCall where
  | store (c : StorageCall)
  | setMethod (s : ScopeId) (m : Method)
  | unsetMethod (s : ScopeId) (name : String)
  | importClass (s : ScopeId) (name : String) (short : Option String)
  | importPackage (s : ScopeId) (name : String)
  | importStatic (s : ScopeId) (c : Value)
  | importObjects (s : ScopeId) (values : List Value)
  | setPackage (s : ScopeId) (package : Option String)
  | clear (s : ScopeId)
  | openScope (parent : ScopeId) (name : Option String)
  | openBlock (parent : ScopeId) (name : Option String)
  | define (r : Nat) (name : String) (c : Value)
  | reload (r : Nat)
  | getClass (s : ScopeId) (name : String)
  | resolveClass (s : ScopeId) (name : String)
  | rememberCall (s : ScopeId) (name : String) (target : Value)

namespace NameCall

def Leads (w w' : World) : NameCall → Prop
  | store c => c.run.Leads w w'
  | setMethod s m => (Run.setMethod s m).Leads w w'
  | unsetMethod s name => (Run.unsetMethod s name).run.Leads w w'
  | importClass s name short => (Run.importClass s name short).run.Leads w w'
  | importPackage s name => (Run.importPackage s name).run.Leads w w'
  | importStatic s c => (Run.importStatic s c).run.Leads w w'
  | importObjects s values => (Run.importObjects s values).run.Leads w w'
  | setPackage s package => (Run.setPackage s package).run.Leads w w'
  | clear s => (Run.clearScope s).run.Leads w w'
  | openScope parent name => (Run.newChild parent name).run.Leads w w'
  | openBlock parent name => (Run.newBlock parent name).run.Leads w w'
  | define r name c => (Run.register r name c).run.Leads w w'
  | reload r => (Run.reload r).run.Leads w w'
  | getClass s name => (Run.getClass s name).run.Leads w w'
  | resolveClass s name => (Run.resolveClass s name).run.Leads w w'
  | rememberCall s name target => (Run.rememberCall s name target).run.Leads w w'

end NameCall

namespace World

variable {w : World} {s t : ScopeId} {name : String} {r : Nat}

/-- Nobody inside a scope remembers a static call through a name that is not yet one of its
variables. -/
def HearVariable (w : World) (t : ScopeId) (name : String) : Prop :=
  (w.scope t).vars.contains name = false →
    ∀ s < w.memories.size, s ≠ t → t ∈ w.ancestry s → ¬w.CallsThrough s name

def HearImport (w : World) (t : ScopeId) : Prop := ∀ s < w.memories.size, s ≠ t → t ∈ w.ancestry s → (w.memory s).IsBlank

/-- Those that remember something of a registry listen to it. -/
def HearRegistry (w : World) (r : Nat) : Prop :=
  ∀ s < w.memories.size, w.registryId s = r → (w.memory s).listening ∨ (w.memory s).IsBlank

def HearObjects (w : World) (t : ScopeId) : Prop :=
  ∀ s < w.memories.size, s ≠ t → t ∈ w.ancestry s → ∀ e ∈ (w.memory s).resolvers.entries, e.2.staticClass.isNone

instance : Decidable (w.HearVariable t name) := inferInstanceAs (Decidable (_ → ∀ s < _, _))

instance : Decidable (w.HearImport t) := inferInstanceAs (Decidable (∀ s < _, _))

instance : Decidable (w.HearRegistry r) := inferInstanceAs (Decidable (∀ s < _, _))

instance : Decidable (w.HearObjects t) := inferInstanceAs (Decidable (∀ s < _, _))

theorem isBlank_of_size_le (h : w.memories.size ≤ s) : (w.memory s).IsBlank := by
  unfold memory
  rw [Array.getElem?_eq_none h]
  exact ⟨rfl, rfl⟩

theorem not_callsThrough_of_isBlank (h : (w.memory s).IsBlank) : ¬w.CallsThrough s name := by
  rintro ⟨e, he, -⟩
  rw [h.resolvers] at he
  cases he

theorem Settled.heardVariable {w' : World} (hw : w.Settled) (h : Stored t name w w')
    (heard : w.HearVariable t name) : w'.Settled := by
  refine hw.stored h fun new _ s apart inside => ?_
  by_cases held : s < w.memories.size
  · exact heard new s held apart inside
  · exact not_callsThrough_of_isBlank (isBlank_of_size_le (Nat.le_of_not_lt held))

theorem Settled.heardImport {w' : World} (hw : w.Settled) (h : Redone t w w')
    (told : (w'.memory t).IsBlank) (heard : w.HearImport t) : w'.Settled := by
  refine hw.redone h told fun s apart inside => ?_
  by_cases held : s < w.memories.size
  · exact heard s held apart inside
  · exact isBlank_of_size_le (Nat.le_of_not_lt held)

theorem Settled.heardObjects {f : Scope → Scope} (hw : w.Settled) (ground : ∀ x : Scope, x.SameGround (f x))
    (heard : w.HearObjects t) : ((w.modifyScope t f).forgetting t).Settled := by
  refine hw.redone_ground (.told fun x => ⟨(ground x).parent, (ground x).registry⟩) (isBlank_forgetting _ _) ?_ ?_
  · rw [scope_forgetting, scope_modifyScope]
    split
    · exact ground _
    · exact .refl _
  · intro s apart inside name
    by_cases held : s < w.memories.size
    · rintro ⟨e, he, static, -⟩
      rw [Option.isNone_iff_eq_none.mp (heard s held apart inside e he)] at static
      cases static
    · exact not_callsThrough_of_isBlank (isBlank_of_size_le (Nat.le_of_not_lt held))

theorem Settled.heardRegistry (hw : w.Settled) (f : Registry → Registry)
    (heard : w.HearRegistry r) : ((w.modifyRegistry r f).notify r).Settled := by
  refine hw.reregistered f fun s concerned => ?_
  by_cases held : s < w.memories.size
  · exact heard s held concerned
  · exact .inr (isBlank_of_size_le (Nat.le_of_not_lt held))

end World

namespace NameCall

/-- All whom a call concerns are told of it, or remember nothing that it concerns. -/
def Heard (w : World) : NameCall → Prop
  | store (.assign s name ..) =>
    w.HearVariable (w.bindingScope s name) name ∧ (name = "package" → ¬w.ImportsScope)
  | store (.assignInBlock s name _) => w.HearVariable s name ∧ (name = "package" → ¬w.ImportsScope)
  | store (.declare s name ..) => w.HearVariable s name
  | store (.remove ..) | setMethod .. | unsetMethod .. | getClass .. => True
  | importClass s .. | importPackage s _ => w.HearImport (w.enclosing s)
  | importStatic s _ | importObjects s _ => w.HearObjects s
  | setPackage s _ => w.HearImport s ∧ (w.memory s).IsBlank
  | clear s => w.HearImport s
  | openScope .. | openBlock .. => (w.memory w.scopes.size).IsBlank
  | define r .. | reload r => w.HearRegistry r
  | resolveClass s name =>
    ((Run.getClass s name).run w).result = some (.ok none) →
      ∀ c, ((Run.findClass s name).run w).result ≠ some (.ok (some c))
  | rememberCall s name target => w.Means s name target

variable {w w' : World}

theorem settled_store {c : StorageCall} (hw : w.Settled) (h : c.run.Leads w w')
    (heard : (store c).Heard w) : w'.Settled := by
  cases c with
  | assign s name value strict outwards =>
    refine hw.heardVariable (Comp.Meets.of_leads ?_ h) heard.1
    change (Run.setVariable s name value strict outwards).run.Meets w _ _
    unfold Run.setVariable
    simp only [Action.meets_bind, Action.run_lift, Run.meets_get]
    exact Run.stored_bindIn value strict _ heard.2
  | assignInBlock s name value =>
    exact hw.heardVariable (Comp.Meets.of_leads (Run.stored_bindIn value false false heard.2) h) heard.1
  | declare s name type value modifiers =>
    exact hw.heardVariable (Comp.Meets.of_leads (Run.stored_setTypedVariable type value modifiers) h) heard
  | remove s name => exact (Run.settled_unsetVariable hw).of_leads h

theorem settled {c : NameCall} (hw : w.Settled) (h : c.Leads w w') (heard : c.Heard w) : w'.Settled := by
  cases c with
  | store c => exact settled_store hw h heard
  | setMethod s m =>
    rw [h.eq_of_done rfl]
    exact hw.redone_methods _ fun _ => ⟨⟨rfl, rfl, rfl, rfl, rfl⟩, rfl, rfl, rfl⟩
  | unsetMethod s name =>
    refine Comp.Meets.of_leads ?_ h
    unfold Run.unsetMethod
    simp only [Action.meets_bind, Run.meets_read]
    split
    · exact hw.redone_methods s fun _ => ⟨⟨rfl, rfl, rfl, rfl, rfl⟩, rfl, rfl, rfl⟩
    · exact hw
  | importClass s name short =>
    rw [h.eq_of_done rfl]
    exact hw.heardImport (.told fun _ => ⟨rfl, rfl⟩) (World.isBlank_forgetting _ _) heard
  | importPackage s name =>
    rw [h.eq_of_done rfl]
    exact hw.heardImport (.told fun _ => ⟨rfl, rfl⟩) (World.isBlank_forgetting _ _) heard
  | importStatic s c =>
    rw [h.eq_of_done rfl]
    exact hw.heardObjects (fun _ => ⟨rfl, rfl, rfl, rfl, rfl⟩) heard
  | importObjects s values =>
    rw [h.eq_of_done rfl]
    exact hw.heardObjects (fun _ => ⟨rfl, rfl, rfl, rfl, rfl⟩) heard
  | setPackage s package =>
    rw [h.eq_of_done rfl]
    exact hw.heardImport (.modifyScope fun _ => ⟨rfl, rfl⟩) heard.2 heard.1
  | clear s =>
    have cleared := Run.redone_clearScope s w
    cases h with
    | done a h => exact hw.heardImport (cleared.of_done h).1 (cleared.of_done h).2 heard
    | failed e h => exact absurd (cleared.of_failed h) id
  | openScope parent name =>
    rw [h.eq_of_done rfl]
    exact hw.opened rfl heard
  | openBlock parent name =>
    rw [h.eq_of_done rfl]
    exact hw.opened rfl heard
  | define r name c =>
    rw [h.eq_of_done rfl]
    exact hw.heardRegistry _ heard
  | reload r =>
    rw [h.eq_of_done rfl]
    exact hw.heardRegistry _ heard
  | getClass s name => exact ((Run.settled_getClass hw s name).imp fun _ _ h => h.1).of_leads h
  | resolveClass s name => exact (Run.settled_resolveClass hw heard).of_leads h
  | rememberCall s name target => exact (Run.settled_rememberCall hw heard).of_leads h

end NameCall

end ScriptCore
