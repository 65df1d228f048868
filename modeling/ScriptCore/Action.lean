import ScriptCore.Change
import ScriptCore.Host.Hierarchy
import ScriptCore.Run

namespace ScriptCore

def Failure.isLow : Failure → Bool
  | fault .. | reflect _ | hostCall .. => true
  | _ => false

/-- The errors that host code does not take for exceptions: located ones, and those of the
interpreter itself. -/
def Failure.isOutright : Failure → Bool
  | report _ | internal _ => true
  | _ => false

/-- A check of the interpreter that fails when names and variables are looked at. -/
inductive Lapse where
  | assignment
  | resolution (name : String)

def Lapse.message : Lapse → String
  | assignment => "null variable value"
  | resolution name => "null result resolving: " ++ name

def Failure.IsLapse (e : Failure) : Prop := ∃ l : Lapse, e = .internal l.message

/-- What may happen beyond calm changes and fresh exceptions. -/
structure May where
  step : World → World → Prop
  /-- Of which of the classes that the interpreter keeps for itself exceptions may be raised. -/
  raises : CoreClass → Prop
  passes : World → Failure → Prop

namespace May

def nothing : May where
  step _ _ := False
  raises _ := False
  passes _ _ := False

def storing : May where
  step w w' := ∃ s f, w' = w.setVars s f
  raises _ := False
  passes _ _ := False

def editing : May where
  step := storing.step
  raises _ := False
  passes _ _ := True

def lapsing : May where
  step _ _ := False
  raises _ := False
  passes _ := Failure.IsLapse

def retype : May where
  step := World.Inert
  raises _ := False
  passes _ := Failure.IsLapse

def halting : May where
  step _ _ := False
  raises _ := False
  passes _ e := ∃ m, e = .internal m

def raising : May where
  step _ _ := False
  raises _ := True
  passes _ _ := True

def anything : May where
  step _ _ := True
  raises _ := True
  passes _ _ := True

class Within (s t : May) : Prop where
  step : ∀ {w w' : World}, s.step w w' → t.step w w'
  raises : ∀ {c : CoreClass}, s.raises c → t.raises c
  passes : ∀ {w : World} {e : Failure}, s.passes w e → t.passes w e

instance (t : May) : Within nothing t := ⟨False.elim, False.elim, False.elim⟩

instance (priority := low) (t : May) : Within t t := ⟨id, id, id⟩

instance (t : May) : Within t anything := ⟨fun _ => trivial, fun _ => trivial, fun _ => trivial⟩

instance : Within storing retype := ⟨fun ⟨s, f, h⟩ => h ▸ World.inert_setVars s f, False.elim, False.elim⟩

instance : Within storing editing := ⟨id, False.elim, False.elim⟩

instance (t : May) [i : Within retype t] : Within lapsing t := ⟨False.elim, False.elim, i.passes⟩

instance : Within lapsing retype := ⟨False.elim, False.elim, id⟩

end May

/-- One world is reached from another by calm changes and by what may happen. -/
inductive Reaches (may : May) : World → World → Prop
  | calm {w w' : World} (h : w.Calm w') : Reaches may w w'
  | step {w w' : World} (h : may.step w w') : Reaches may w w'
  | trans {w w' w'' : World} (h : Reaches may w w') (k : Reaches may w' w'') : Reaches may w w''

namespace Reaches

variable {may : May} {w w' : World}

theorem mono {may' : May} [i : May.Within may may'] (h : Reaches may w w') : Reaches may' w w' := by
  induction h with
  | calm h => exact .calm h
  | step h => exact .step (i.step h)
  | trans _ _ h k => exact h.trans k

theorem preserves {p : World → Prop} (hc : ∀ {w w'}, w.Calm w' → p w → p w')
    (hs : ∀ {w w'}, may.step w w' → p w → p w') (h : Reaches may w w') : p w → p w' := by
  induction h with
  | calm h => exact hc h
  | step h => exact hs h
  | trans _ _ h k => exact k ∘ h

theorem toCalm (h : Reaches .nothing w w') : w.Calm w' := by
  induction h with
  | calm h => exact h
  | step h => exact h.elim
  | trans _ _ h k => exact h.trans k

end Reaches

/-- A failure as its handlers see it: an exception that came about as a failure of a component
stands for that. -/
def World.seen (w : World) : Failure → Failure
  | .thrown (.object i) =>
    match (w.obj i).payload with
    | .failure f _ => if f.isLow then f else .thrown (.object i)
    | _ => .thrown (.object i)
  | e => e

/-- The classes of the exceptions that components raise for the interpreter, and of those that it
raises about itself. -/
def CoreClass.reserved : List CoreClass := [.utilEvalException, .reflectError, .hostInvocationError, .interpreterError]

namespace World

variable {w : World} {v : Value} {c : CoreClass}

theorem isInstance_reserved (hc : c ∈ CoreClass.reserved) :
    w.isInstance v (.core c) = (w.mro (w.classOf v)).contains (.core c) := by
  have other : decide (ClassRef.core c = .core .iterable) = false :=
    (by decide : ∀ k ∈ CoreClass.reserved, decide (ClassRef.core k = .core .iterable) = false) c hc
  rw [isInstance, isSubclass, other, Bool.false_and, Bool.or_false]

theorem not_isInstance_push {k : ErrorClass} {args : Value} (hc : c ∈ CoreClass.reserved) :
    ({ w with objects := w.objects.push { cls := .core k.core, payload := .exception args } } : World).isInstance
      (.object w.objects.size) (.core c) = false := by
  have plain : ∀ c ∈ CoreClass.reserved, (k.core.mro.map ClassRef.core).contains (.core c) = false := by
    cases k <;> decide
  rw [isInstance_reserved hc]
  simpa [classOf, obj, mro] using plain c hc

theorem isInstance_modifyObj {i : ObjectId} {f : Obj → Obj} (cls : ∀ o, (f o).cls = o.cls)
    (hc : c ∈ CoreClass.reserved) : (w.modifyObj i f).isInstance v (.core c) = w.isInstance v (.core c) := by
  have mros (d : ClassRef) : (w.modifyObj i f).mro d = w.mro d := by cases d <;> rfl
  rw [isInstance_reserved hc, isInstance_reserved hc, mros]
  cases v with
  | object j =>
    have same : ((w.modifyObj i f).obj j).cls = (w.obj j).cls := by
      simp only [obj, modifyObj, Array.getElem?_modify]
      split
      · next here =>
        subst here
        cases w.objects[i]? with
        | none => rfl
        | some o => exact cls o
      · rfl
    rw [classOf, classOf, same]
  | _ => rfl

end World

/-- How a computation may fail, as far as the failures are concerned that are meant for its caller:
faults of components that do not know the current node, refusals of host members, and failures of
host code that a script called. -/
inductive Tier where
  | proper
  | fault
  | call
  | bridge
  | any

namespace Tier

def Allows : Tier → Failure → Prop
  | proper, .fault .. | proper, .reflect _ | proper, .hostCall .. => False
  | fault, .reflect _ | fault, .hostCall .. => False
  | call, .fault .. | call, .reflect _ => False
  | bridge, .fault .. => False
  | _, _ => True

def Makes (t : Tier) : Failure → Prop
  | .thrown _ | .report _ | .internal _ => False
  | e => t.Allows e

theorem allows_thrown (t : Tier) (v : Value) : t.Allows (.thrown v) := by cases t <;> exact trivial

theorem allows_of_makes {t : Tier} {e : Failure} (h : t.Makes e) : t.Allows e := by
  cases e <;> first | exact h | exact h.elim

theorem allows_of_isOutright {t : Tier} {e : Failure} (h : e.isOutright) : t.Allows e := by
  cases e <;> cases t <;> trivial

class Within (s t : Tier) : Prop where
  le : ∀ {e : Failure}, s.Allows e → t.Allows e

instance (t : Tier) : Within proper t := ⟨fun {e} h => by cases t <;> cases e <;> simp_all [Allows]⟩

instance (priority := low) (t : Tier) : Within t t := ⟨id⟩

instance : Within fault any := ⟨fun _ => trivial⟩

instance : Within call any := ⟨fun _ => trivial⟩

instance : Within bridge any := ⟨fun _ => trivial⟩

instance : Within call bridge := ⟨fun {e} h => by cases e <;> simp_all [Allows]⟩

end Tier

/-- How a computation from the world `w` may fail in the world `w'`. An outright error has come up
on the way. -/
structure Permits (may : May) (t : Tier) (w w' : World) (e : Failure) : Prop where
  allowed : t.Allows e
  raised : ∀ {v : Value} {c : CoreClass}, e = .thrown v → c ∈ CoreClass.reserved → w'.isInstance v (.core c) → may.raises c
  passed : e.isOutright → ∃ u, Reaches may w u ∧ may.passes u e

namespace Permits

variable {may may' : May} {s t : Tier} {w w' : World} {e : Failure}

theorem of_makes (h : t.Makes e) : Permits may t w w' e := by
  refine ⟨Tier.allows_of_makes h, fun he => ?_, fun ho => ?_⟩
  · subst he; exact h.elim
  · cases e <;> first | exact h.elim | cases ho

theorem of_passes (ho : e.isOutright) (h : may.passes w e) : Permits may t w w' e := by
  refine ⟨Tier.allows_of_isOutright ho, fun he => ?_, fun _ => ⟨w, .calm (.refl w), h⟩⟩
  subst he
  cases ho

theorem after {u : World} (h : Reaches may w u) (k : Permits may t u w' e) : Permits may t w w' e := by
  refine ⟨k.allowed, k.raised, fun ho => ?_⟩
  obtain ⟨v, hv, hp⟩ := k.passed ho
  exact ⟨v, h.trans hv, hp⟩

theorem mono [i : May.Within may may'] [j : Tier.Within s t] (h : Permits may s w w' e) : Permits may' t w w' e := by
  refine ⟨j.le h.allowed, fun he hc hv => i.raises (h.raised he hc hv), fun ho => ?_⟩
  obtain ⟨v, hv, hp⟩ := h.passed ho
  exact ⟨v, hv.mono, i.passes hp⟩

end Permits

def Lawful {α : Type} (may : May) (t : Tier) (w : World) : Outcome World α → Prop
  | .done _ w' => Reaches may w w'
  | .failed e w' => Reaches may w w' ∧ Permits may t w w' e
  | .exhausted => True

/-- A computation that reaches only worlds it may reach, and fails only as it may. -/
structure Action (may : May) (t : Tier) (α : Type) where
  run : Run α
  lawful : ∀ w, Lawful may t w (run w)

abbrev Plain : Type → Type := Action .nothing .proper

abbrev Faulty : Type → Type := Action .nothing .fault

abbrev Storing : Type → Type := Action .storing .fault

namespace Lawful

variable {may may' : May} {s t : Tier} {α : Type} {w w' : World} {o : Outcome World α}

theorem after (h : Reaches may w w') (k : Lawful may t w' o) : Lawful may t w o := by
  cases o with
  | done a v => exact h.trans k
  | failed e v => exact ⟨h.trans k.1, k.2.after h⟩
  | exhausted => trivial

theorem mono [May.Within may may'] [Tier.Within s t] (h : Lawful may s w o) : Lawful may' t w o := by
  cases o with
  | done a v => exact Reaches.mono h
  | failed e v => exact ⟨h.1.mono, h.2.mono⟩
  | exhausted => trivial

end Lawful

namespace Action

variable {may may' : May} {s t : Tier} {α β : Type}

@[ext] theorem ext {x y : Action may t α} (h : x.run = y.run) : x = y := by
  cases x; cases y; cases h; rfl

theorem reaches (x : Action may t α) {w w' : World} (h : x.run.Leads w w') : Reaches may w w' := by
  have law := x.lawful w
  cases h with
  | done a h => rw [h] at law; exact law
  | failed e h => rw [h] at law; exact law.1

@[inline] def pure (a : α) : Action may t α where
  run := Comp.pure a
  lawful w := .calm (.refl w)

@[inline] def bind (x : Action may t α) (f : α → Action may t β) : Action may t β where
  run := Comp.bind x.run fun a => (f a).run
  lawful w := by
    have law := x.lawful w
    unfold Comp.bind
    split
    · next a v h => rw [h] at law; exact .after law ((f a).lawful v)
    · next e v h => rw [h] at law; exact law
    · trivial

instance : Monad (Action may t) where
  pure := Action.pure
  bind := Action.bind

@[simp] theorem run_pure (a : α) : (Pure.pure a : Action may t α).run = Pure.pure a := rfl

@[simp] theorem run_bind (x : Action may t α) (f : α → Action may t β) :
    (x >>= f).run = x.run >>= fun a => (f a).run := rfl

@[inline] def weaken [May.Within may may'] [Tier.Within s t] (x : Action may s α) : Action may' t α where
  run := x.run
  lawful w := (x.lawful w).mono

instance [May.Within may may'] [Tier.Within s t] : MonadLiftT (Action may s) (Action may' t) := ⟨weaken⟩

instance : MonadLiftT (Action may s) Run := ⟨Action.run⟩

instance [May.Within may may'] [Tier.Within s t] (f : β → Action may s α) :
    CoeT (β → Action may s α) f (β → Action may' t α) :=
  ⟨fun b => weaken (f b)⟩

instance (f : β → Action may s α) : CoeT (β → Action may s α) f (β → Run α) := ⟨fun b => (f b).run⟩

@[simp] theorem run_lift [May.Within may may'] [Tier.Within s t] (x : Action may s α) :
    (monadLift x : Action may' t α).run = x.run := rfl

@[inline] def exhausted : Action may t α where
  run := Comp.exhausted
  lawful _ := trivial

instance : Inhabited (Action may t α) := ⟨exhausted⟩

@[inline] def change (f : World → α × World) (h : ∀ w : World, w.Calm (f w).2) : Plain α where
  run w := .done (f w).1 (f w).2
  lawful w := .calm (h w)

@[inline] def update (f : World → World) (h : ∀ w : World, w.Calm (f w)) : Plain Unit := change (fun w => ((), f w)) h

@[inline] def perform (f : World → World) (h : ∀ w, may.step w (f w)) : Action may .proper Unit where
  run w := .done () (f w)
  lawful w := .step (h w)

@[inline] def failing (f : World → Failure) (h : ∀ w, Permits may t w w (f w)) : Action may t α where
  run w := .failed (f w) w
  lawful w := ⟨.calm (.refl w), h w⟩

@[inline] def fail (e : Failure) (h : t.Makes e) : Action may t α := failing (fun _ => e) fun _ => .of_makes h

@[inline] def stop (e : Failure) (ho : e.isOutright) (h : ∀ w, may.passes w e) : Action may t α :=
  failing (fun _ => e) fun w => .of_passes ho (h w)

@[inline] def raising (cls : ErrorClass) (args : Value) : Plain α where
  run w := .failed (.thrown (.object w.objects.size))
    { w with objects := w.objects.push { cls := .core cls.core, payload := .exception args } }
  lawful w := by
    refine ⟨.calm (World.calm_pushObject rfl), Tier.allows_thrown _ _, fun he hc hv => ?_, fun ho => by cases ho⟩
    cases he
    rw [World.not_isInstance_push hc] at hv
    cases hv

/-- A change after which no value is an exception of the interpreter's own that was none before. -/
structure Tidying (f : World → World) : Prop where
  calm : ∀ w : World, w.Calm (f w)
  isInstance : ∀ (w : World) (v : Value), ∀ c ∈ CoreClass.reserved, (f w).isInstance v (.core c) → w.isInstance v (.core c)

@[inline] def ensuring (x : Action may t α) (f : World → World) (h : Tidying f) : Action may t α where
  run := Comp.ensuring x.run (Comp.modify f)
  lawful w := by
    have law := x.lawful w
    unfold Comp.ensuring
    split
    · next a v hx => rw [hx] at law; exact law.trans (.calm (h.calm v))
    · next e v hx =>
      rw [hx] at law
      exact ⟨law.1.trans (.calm (h.calm v)), law.2.allowed, fun he hc hv => law.2.raised he hc (h.isInstance v _ _ hc hv),
        law.2.passed⟩
    · trivial

@[inline] def afterFailure (x : Action may t α) (f : World → World) (h : Tidying f) : Action may t α where
  run := Comp.catching x.run fun e w => .failed e (f w)
  lawful w := by
    have law := x.lawful w
    unfold Comp.catching
    split
    · next e v hx =>
      rw [hx] at law
      exact ⟨law.1.trans (.calm (h.calm v)), law.2.allowed, fun he hc hv => law.2.raised he hc (h.isInstance v _ _ hc hv),
        law.2.passed⟩
    · exact law

/-- Runs a handler on a failure that there is one for; `rest` says that all failures without one are
allowed. -/
@[inline] def converting (x : Action may s α) (handler : World → Failure → Option (Action may t α))
    (rest : ∀ w e, s.Allows e → handler w e = none → t.Allows e) : Action may t α where
  run := Comp.catching x.run fun e w =>
    match handler w e with
    | some y => y.run w
    | none => .failed e w
  lawful w := by
    have law := x.lawful w
    unfold Comp.catching
    split
    · next e v hx =>
      rw [hx] at law
      dsimp only
      split
      · next y _ => exact .after law.1 (y.lawful v)
      · next hn => exact ⟨law.1, rest v e law.2.allowed hn, law.2.raised, law.2.passed⟩
    · next hx =>
      cases ho : x.run w with
      | done a v => rw [ho] at law; exact law
      | failed e v => exact absurd ho (hx e v)
      | exhausted => trivial

@[inline] def catching (x : Action may t α) (handler : World → Failure → Option (Action may t α)) : Action may t α :=
  converting x handler fun _ _ h _ => h

end Action

end ScriptCore
