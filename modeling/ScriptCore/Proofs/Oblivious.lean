import ScriptCore.Proofs.Gives
import ScriptCore.Resolve

namespace ScriptCore

namespace World

def remembering (w : World) (memories : Array Memory) (n : Nat) : World := { w with memories, resolverCount := n }

variable (w : World) (m : Array Memory) (n : Nat)

theorem remembering_self : w.remembering w.memories w.resolverCount = w := rfl

theorem typeName_remembering : (w.remembering m n).typeName = w.typeName := by
  funext t
  induction t with
  | array c ih => exact congrArg (· ++ "[]") ih
  | _ => rfl

theorem showWithin_remembering (fuel : Nat) : (w.remembering m n).showWithin fuel = w.showWithin fuel := by
  induction fuel with
  | zero => rfl
  | succ fuel ih =>
    funext path v
    unfold showWithin
    rw [ih, w.typeName_remembering m n]
    rfl

theorem show_remembering : (w.remembering m n).show = w.show := by
  funext v
  unfold World.show
  rw [w.showWithin_remembering m n]
  rfl

theorem nodeText_remembering : (w.remembering m n).nodeText = w.nodeText := by
  funext node
  unfold nodeText style
  rw [w.show_remembering m n, w.typeName_remembering m n]
  rfl

theorem nearestScopes_remembering (k : Nat) : (w.remembering m n).nearestScopes k = w.nearestScopes k := by
  induction k with
  | zero => rfl
  | succ k ih =>
    funext s
    unfold nearestScopes
    rw [ih]
    rfl

theorem ancestry_remembering : (w.remembering m n).ancestry = w.ancestry := by
  funext s
  exact congrFun (w.nearestScopes_remembering m n s) s

theorem registryId_remembering : (w.remembering m n).registryId = w.registryId := by
  funext s
  unfold registryId root
  rw [w.ancestry_remembering m n]
  rfl

theorem bridge_remembering : (w.remembering m n).bridge = w.bridge := by
  funext s
  unfold bridge registry
  rw [w.registryId_remembering m n]
  rfl

theorem reportText_remembering (shown : Value → String) (r : Report) :
    r.format (w.remembering m n) shown = r.format w shown := by
  have entry : (w.remembering m n).traceEntry = w.traceEntry := by
    funext s
    unfold traceEntry
    rw [w.nodeText_remembering m n]
    rfl
  unfold Report.format Report.format? Report.context Report.code World.trace
  rw [w.nodeText_remembering m n, entry]
  rfl

theorem plainText_remembering : (w.remembering m n).plainText = w.plainText := by
  have within (fuel : Nat) : (w.remembering m n).plainTextWithin fuel = w.plainTextWithin fuel := by
    induction fuel with
    | zero => rfl
    | succ fuel ih =>
      funext v
      unfold plainTextWithin
      simp only [ih, w.show_remembering m n, w.reportText_remembering m n]
      rfl
  exact within 16

structure Untouched (w v : World) : Prop where
  scopes : v.scopes = w.scopes
  registries : v.registries = w.registries
  settings : v.settings = w.settings

namespace Untouched

theorem refl (w : World) : w.Untouched w := ⟨rfl, rfl, rfl⟩

theorem trans {u v w : World} (h : u.Untouched v) (k : v.Untouched w) : u.Untouched w :=
  ⟨k.scopes.trans h.scopes, k.registries.trans h.registries, k.settings.trans h.settings⟩

end Untouched

end World

def Outcome.onState {σ α : Type} (f : σ → σ) : Outcome σ α → Outcome σ α
  | done a s => done a (f s)
  | failed e s => failed e (f s)
  | exhausted => exhausted

namespace Run

def Blind {may : May} {t : Tier} {α : Type} (x : Action may t α) : Prop :=
  ∀ w m n, x.run (w.remembering m n) = (x.run w).onState (·.remembering m n)

/-- The action takes no look at what scopes remember, and changes neither scopes nor registries nor
settings. -/
structure Oblivious {may : May} {t : Tier} {α : Type} (x : Action may t α) : Prop where
  blind : Blind x
  keeps : ∀ w, x.run.Meets w (fun _ v => w.Untouched v) fun _ v => w.Untouched v

variable {may : May} {t : Tier} {α β : Type}

namespace Blind

theorem pure (a : α) : Blind (Pure.pure a : Action may t α) := fun _ _ _ => rfl

theorem bind {x : Action may t α} {f : α → Action may t β} (hx : Blind x) (hf : ∀ a, Blind (f a)) : Blind (x >>= f) := by
  intro w m n
  change Comp.bind x.run (fun a => (f a).run) (w.remembering m n) = (Comp.bind x.run (fun a => (f a).run) w).onState _
  unfold Comp.bind
  rw [hx]
  cases x.run w with
  | done a v => exact hf a v m n
  | failed e v => rfl
  | exhausted => rfl

theorem read {f : World → α} (hf : ∀ w m n, f (w.remembering m n) = f w) : Blind (Run.read f) := fun w m n =>
  congrArg (Outcome.done · (w.remembering m n)) (hf w m n)

theorem getThen {f : World → Action may t α} [May.Within .nothing may] [Tier.Within .proper t]
    (same : ∀ w m n, f (w.remembering m n) = f w) (hf : ∀ w, Blind (f w)) :
    Blind ((liftM Run.get : Action may t World) >>= f) := by
  intro w m n
  change (f (w.remembering m n)).run (w.remembering m n) = ((f w).run w).onState _
  rw [same]
  exact hf w w m n

theorem firstSome {xs : List α} {f : α → Action may t (Option β)} (hf : ∀ x, Blind (f x)) :
    Blind (ScriptCore.firstSome xs f) := by
  induction xs with
  | nil => exact .pure _
  | cons x rest ih =>
    refine .bind (hf x) fun r => ?_
    cases r with
    | none => exact ih
    | some y => exact .pure _

theorem memories {x : Action may t α} (hx : Blind x) (w : World) :
    x.run.Meets w (fun _ v => v.memories = w.memories) fun _ v => v.memories = w.memories := by
  have same := hx w w.memories w.resolverCount
  rw [w.remembering_self] at same
  unfold Comp.Meets
  rw [same]
  cases x.run w with
  | done a v => rfl
  | failed e v => rfl
  | exhausted => trivial

end Blind

namespace Oblivious

theorem pure (a : α) : Oblivious (Pure.pure a : Action may t α) := ⟨fun _ _ _ => rfl, .refl⟩

theorem bind {x : Action may t α} {f : α → Action may t β} (hx : Oblivious x)
    (hf : ∀ a, Oblivious (f a)) : Oblivious (x >>= f) := by
  refine ⟨.bind hx.blind fun a => (hf a).blind, fun w => ?_⟩
  simp only [Action.meets_bind]
  refine (hx.keeps w).imp fun a v h => ?_
  exact ((hf a).keeps v).mono (fun _ _ k => h.trans k) fun _ _ k => h.trans k

theorem lift {may' : May} {t' : Tier} [May.Within may may'] [Tier.Within t t'] {x : Action may t α}
    (hx : Oblivious x) : Oblivious (liftM x : Action may' t' α) := ⟨hx.blind, hx.keeps⟩

theorem read {f : World → α} (hf : ∀ w m n, f (w.remembering m n) = f w) : Oblivious (Run.read f) :=
  ⟨.read hf, .refl⟩

theorem getThen {f : World → Action may t α} [May.Within .nothing may] [Tier.Within .proper t]
    (same : ∀ w m n, f (w.remembering m n) = f w) (hf : ∀ w, Oblivious (f w)) :
    Oblivious ((liftM Run.get : Action may t World) >>= f) :=
  ⟨.getThen same fun w => (hf w).blind, fun w => (hf w).keeps w⟩

theorem failing {f : World → Failure} {h : ∀ w, Permits may t w w (f w)} (hf : ∀ w m n, f (w.remembering m n) = f w) :
    Oblivious (Action.failing f h : Action may t α) := by
  refine ⟨fun w m n => ?_, .refl⟩
  exact congrArg (Outcome.failed · (w.remembering m n)) (hf w m n)

theorem fail {e : Failure} (h : t.Makes e) : Oblivious (Action.fail e h : Action may t α) := .failing fun _ _ _ => rfl

theorem exhausted : Oblivious (Action.exhausted : Action may t α) := ⟨fun _ _ _ => rfl, fun _ => trivial⟩

theorem alloc (o : Obj) : Oblivious (Run.alloc o) := ⟨fun _ _ _ => rfl, fun _ => ⟨rfl, rfl, rfl⟩⟩

theorem converting {s : Tier} {x : Action may s α} {handler : World → Failure → Option (Action may t α)}
    {rest : ∀ w e, s.Allows e → handler w e = none → t.Allows e} (hx : Oblivious x)
    (same : ∀ w m n e, handler (w.remembering m n) e = handler w e)
    (hh : ∀ w e y, handler w e = some y → Oblivious y) : Oblivious (Action.converting x handler rest) := by
  refine ⟨fun w m n => ?_, fun w => ?_⟩
  · simp only [Action.converting, Comp.catching]
    rw [hx.blind w m n]
    cases x.run w with
    | done a v => rfl
    | exhausted => rfl
    | failed e v =>
      simp only [Outcome.onState, same]
      cases hy : handler v e with
      | none => rfl
      | some y => exact (hh v e y hy).blind v m n
  · refine Action.meets_converting.mpr ((hx.keeps w).mono (fun _ _ h => h) fun e v h => ?_)
    cases hy : handler v e with
    | none => exact h
    | some y => exact ((hh v e y hy).keeps v).mono (fun _ _ k => h.trans k) fun _ _ k => h.trans k

theorem collect {xs : List α} {f : α → Action may t β} (hf : ∀ x, Oblivious (f x)) :
    Oblivious (ScriptCore.collect xs f) := by
  induction xs with
  | nil => exact .pure _
  | cons x rest ih => exact .bind (hf x) fun _ => .bind ih fun _ => .pure _

theorem firstSome {xs : List α} {f : α → Action may t (Option β)} (hf : ∀ x, Oblivious (f x)) :
    Oblivious (ScriptCore.firstSome xs f) := by
  induction xs with
  | nil => exact .pure _
  | cons x rest ih =>
    refine .bind (hf x) fun r => ?_
    cases r with
    | none => exact ih
    | some y => exact .pure _

theorem newList (items : List Value) : Oblivious (Run.newList items) := .alloc _

theorem newTuple (items : List Value) : Oblivious (Run.newTuple items) := by
  unfold Run.newTuple
  split
  · exact .pure _
  · exact .alloc _

theorem newHostError (e : HostError) : Oblivious (Run.newHostError e) := .bind (.newTuple _) fun _ => .alloc _

theorem raise (e : HostError) : Oblivious (Run.raise e : Plain α) :=
  .bind (.newTuple _) fun _ => ⟨fun _ _ _ => rfl, fun _ => ⟨rfl, rfl, rfl⟩⟩

theorem newClassId (target : Value) : Oblivious (Run.newClassId target) := .alloc _

theorem ofType (t : Ty) : Oblivious (Run.ofType t) := by
  cases t with
  | array c => exact .alloc _
  | _ => exact .pure _

theorem modifiersPart (l : Modifiers) : Oblivious (Run.modifiersPart l) := by
  unfold Run.modifiersPart
  split
  · exact .pure _
  · exact .alloc _

theorem nodePart (node : Node) : Oblivious (Run.nodePart node) := by
  unfold Run.nodePart
  split
  · exact .pure _
  · exact .bind (.read fun w m n => congrFun (w.nodeText_remembering m n) node) fun _ => .alloc _

theorem variablePart (name : String) (v : Variable) : Oblivious (Run.variablePart name v) := by
  refine .bind (.ofType _) fun _ => .bind (.modifiersPart _) fun _ => .bind (.read fun w m n => ?_) fun _ => .alloc _
  unfold World.variableText
  rw [w.typeName_remembering m n, w.show_remembering m n]

theorem methodPart (x : Method) : Oblivious (Run.methodPart x) := by
  refine .bind (.ofType _) fun _ => .bind (.newList _) fun _ => .bind (.collect fun _ => .ofType _) fun _ =>
    .bind (.newList _) fun _ => .bind (.collect fun _ => .modifiersPart _) fun _ => .bind (.newList _) fun _ =>
    .bind (.nodePart _) fun _ => .bind (.modifiersPart _) fun _ => .bind (.nodePart _) fun _ =>
    .bind (.read fun w m n => ?_) fun _ => .alloc _
  unfold World.methodText
  rw [w.typeName_remembering m n]

theorem bridgePart : Oblivious Run.bridgePart := by
  refine .getThen (fun _ _ _ => rfl) fun w => ?_
  dsimp only
  repeat' split
  all_goals first
    | exact .alloc _
    | exact .pure _

variable (s : ScopeId)

theorem scopePart (name : String) : Oblivious (Run.scopePart s name) := by
  refine .bind (.read fun _ _ _ => rfl) fun x => ?_
  split
  · exact .bind (.collect fun e => .bind (.variablePart _ _) fun _ => .pure _) fun _ => .alloc _
  · refine .bind (.collect fun e => ?_) fun _ => .alloc _
    exact .bind (.collect fun _ => .methodPart _) fun _ => .bind (.newList _) fun _ => .pure _
  · exact .alloc _
  · exact .newList _
  · exact .newList _
  · exact .newList _
  · exact .nodePart _
  · exact .bridgePart
  · split
    · exact .methodPart _
    · exact .pure _

theorem classPart (c : ClassRef) (name : String) : Oblivious (Run.classPart c name) := by
  refine .getThen (fun _ _ _ => rfl) fun w => ?_
  dsimp only
  split
  · exact .newTuple _
  · exact .newTuple _
  all_goals exact .alloc _

theorem objectPart (i : ObjectId) (name : String) : Oblivious (Run.objectPart i name) := by
  refine .bind (.read fun _ _ _ => rfl) fun o => ?_
  have methods : Oblivious (do
      let entries ← ScriptCore.collect o.classMethods fun e => do
        let ms ← ScriptCore.collect e.2 Run.methodPart
        let l ← Run.newList ms
        Pure.pure ({ key := .cls e.1, value := l, hash := Hash.own (.cls e.1) } : Entry)
      Run.alloc { cls := .core .dict, payload := .dict entries }) := by
    refine .bind (.collect fun e => ?_) fun _ => .alloc _
    exact .bind (.collect fun _ => .methodPart _) fun _ => .bind (.newList _) fun _ => .pure _
  dsimp only
  split
  · exact .bind methods fun _ => .alloc _
  · exact .alloc _
  · exact methods

theorem inspect (owner : Value) (name : String) : Oblivious (Run.inspect owner name) := by
  unfold Run.inspect
  split
  · exact .classPart _ _
  · exact .objectPart _ _
  · exact .alloc _
  · exact .scopePart _ _
  · exact .bind (.read fun _ _ _ => rfl) fun _ => .nodePart _
  · exact .alloc _

theorem ofAttribute (a : Attribute) : Oblivious (Run.ofAttribute a) := by
  cases a with
  | value v => exact .pure _
  | bound self f => exact .alloc _
  | builtin self name => exact .bind (.read fun _ _ _ => rfl) fun _ => .alloc _
  | type t => exact .ofType t
  | part owner name => exact .inspect owner name
  | asked f self name => exact .getThen (fun _ _ _ => rfl) fun _ => .raise _
  | missing m => exact .raise _
  | broken e => exact .raise _

theorem followAttributes (v : Value) (names : List String) : Oblivious (Run.followAttributes v names) := by
  induction names generalizing v with
  | nil => exact .pure _
  | cons name rest ih =>
    refine .bind (.read fun _ _ _ => rfl) fun a => ?_
    split
    · exact .pure _
    · exact .raise _
    · refine .bind (.ofAttribute _) fun x => ?_
      split
      · exact .pure _
      · exact ih _

theorem load (name : String) : Oblivious (Run.load name) := by
  unfold Run.load
  dsimp only
  split
  · exact .pure _
  · refine .bind (.read fun _ _ _ => rfl) fun found => ?_
    split
    · exact .pure _
    · refine .bind (.followAttributes _ _) fun r => ?_
      cases r with
      | none => exact .pure _
      | some v => exact .pure _

theorem resolveMember (b : Bridge) (target : Value) (name : String) : Oblivious (Run.resolveMember b target name) := by
  unfold Run.resolveMember memberBy heldAttribute
  split
  · exact .pure _
  split
  · exact .pure _
  · refine .bind (.read fun _ _ _ => rfl) fun a => ?_
    cases a with
    | value v => exact .bind (.read fun _ _ _ => rfl) fun _ => .pure _
    | broken e => exact .raise _
    | _ => exact .pure _

theorem noSuchField (name : String) : Oblivious (Run.noSuchField name : Action .nothing .bridge α) :=
  ⟨fun _ _ _ => rfl, .refl⟩

theorem getField (target : Value) (name : String) : Oblivious (Run.getField target name) := by
  unfold Run.getField fieldBy heldAttribute
  split
  · exact .lift (.noSuchField name)
  · have given (a : Attribute) : Oblivious (do
        let v ← Run.ofAttribute a
        Run.read fun w => w.wrap v : Action .nothing .bridge Value) :=
      .bind (.lift (.ofAttribute a)) fun _ => .lift (.read fun _ _ _ => rfl)
    refine .bind (.lift (.read fun _ _ _ => rfl)) fun a => ?_
    cases a with
    | missing m => exact .lift (.noSuchField name)
    | broken e =>
      refine .bind (.lift (.newHostError e)) fun v => .lift (.failing fun w m n => ?_)
      rw [w.plainText_remembering m n]
    | _ => exact given _

theorem reflected {x : Action may .any α} (hx : Oblivious x) : Oblivious (Run.reflected x) := by
  refine .converting hx (fun _ _ _ _ => rfl) fun w e y hy => ?_
  split at hy
  · cases hy; exact .lift (.fail _)
  · cases hy; exact .fail _
  · cases hy

theorem localBinding (fuel : Nat) (s : ScopeId) (name : String) : Oblivious (Run.localBinding fuel s name) := by
  induction fuel generalizing s with
  | zero => exact .exhausted
  | succ fuel ih =>
    have imported (b : Bridge) (targets : List Value) :
        Oblivious (ScriptCore.firstSome targets (importedBinding (Run.localBinding fuel · name) b name)) := by
      refine .firstSome fun target => ?_
      unfold importedBinding
      split
      · exact ih _
      · refine .bind (.resolveMember _ _ _) fun r => ?_
        cases r <;> exact .pure _
    refine .getThen (fun w m n => ?_) fun w => ?_
    · rw [w.bridge_remembering m n]
      rfl
    · dsimp only
      split
      · refine .bind (imported _ _) fun r => ?_
        cases r <;> exact .pure _
      · split
        · exact .pure _
        · exact imported _ _

theorem findBinding (name : String) (outwards : Bool) : Oblivious (Run.findBinding s name outwards) := by
  refine .bind (.read fun w m n => ?_) fun scopes => .firstSome fun t => ?_
  · rw [w.ancestry_remembering m n]
  · exact .bind (.read fun _ _ _ => rfl) fun _ => .localBinding _ _ _

theorem readBinding (b : Binding) : Oblivious (Run.readBinding b) := by
  cases b with
  | held s name => exact .lift (.read fun _ _ _ => rfl)
  | field target name => exact .reflected (.lift (.getField target name))

theorem getVariable (name : String) (outwards : Bool) : Oblivious (Run.getVariable s name outwards) := by
  refine .bind (.lift (.findBinding s name outwards)) fun found => ?_
  cases found with
  | none => exact .pure _
  | some b => exact .readBinding b

theorem staticMember (target : Value) (name : String) : Oblivious (Run.staticMember s target name) := by
  refine .getThen (fun w m n => ?_) fun w => ?_
  · unfold enclosingInstance? nameOfClass
    rw [w.ancestry_remembering m n, w.show_remembering m n]
    rfl
  · split
    · split
      · exact .pure _
      · exact .fail _
    · extract_lets read
      have member (static : Option Binding) : Oblivious (read static) := by
        dsimp only [read]
        cases static with
        | some b => exact .readBinding b
        | none =>
          dsimp only
          split
          · exact .fail _
          · exact .bind (.lift (.newHostError _)) fun _ => .fail _
          · exact .lift (.newClassId _)
          · exact .lift (.newClassId _)
          · exact .reflected (.lift (.getField _ _))
      split
      · exact .bind (.pure _) member
      · exact .bind (.lift (.findBinding _ _ _)) member

end Oblivious

end Run

end ScriptCore
