import ScriptCore.Proofs.ReadBack
import ScriptCore.Script.Expression

namespace ScriptCore

namespace World

variable {w w' w'' : World}

def SameHeld (w w' : World) : Prop := ∀ u y, (w'.scope u).vars.contains y = (w.scope u).vars.contains y

theorem SameNames.held (h : w.SameNames w') : w.SameHeld w' := h.names

instance : StoreRelation SameHeld where
  refl _ _ _ := rfl
  trans h k u y := (k u y).trans (h u y)
  beside h := (SameNames.of_beside h).held
  objects hs _ _ u y := by rw [World.scope, hs]; rfl
  description w u f hf := (StoreRelation.description (R := SameNames) w u hf).held
  assigned s x value declaring w :=
    (StoreRelation.assigned (R := SameNames) s x value declaring w).mono (fun _ _ h => h.held) fun _ _ h => h.held

theorem allowsPackage_sameHeld (u : ScopeId) : AllowsPackage SameHeld u := fun w p =>
  (SameNames.modifyScope w u fun _ => ⟨_, _, _, p, rfl⟩).held

def StaysStrict (w w' : World) : Prop := w.settings.strict = true → w'.settings.strict = true

instance : WorldRelation StaysStrict where
  refl _ := id
  trans h k strict := k (h strict)
  beside h strict := by rw [h.settings]; exact strict

/-- No variable is new or gone, and strictness has not been given up. -/
structure Quiet (w w' : World) : Prop where
  held : w.SameHeld w'
  strict : w.StaysStrict w'

namespace Quiet

theorem of_eq (scopes : w'.scopes = w.scopes) (settings : w'.settings = w.settings) : w.Quiet w' where
  held u y := by rw [World.scope, scopes]; rfl
  strict h := by rw [settings]; exact h

theorem refl (w : World) : w.Quiet w := .of_eq rfl rfl

theorem trans (h : w.Quiet w') (k : w'.Quiet w'') : w.Quiet w'' :=
  ⟨WorldRelation.trans h.held k.held, WorldRelation.trans h.strict k.strict⟩

theorem of_beside (h : w.Beside w') : w.Quiet w' := ⟨WorldRelation.beside h, WorldRelation.beside h⟩

theorem push (w : World) {x : Scope} (empty : x.vars = {}) : w.Quiet { w with scopes := w.scopes.push x } := by
  refine ⟨fun u y => ?_, id⟩
  simp only [World.scope, Array.getElem?_push]
  split
  · next last => simp [last, empty]
  · rfl

end Quiet

instance : WorldRelation Quiet where
  refl := .refl
  trans := .trans
  beside := .of_beside

end World

namespace Run.Relates

open World (Quiet)

variable {may : May} {tier : Tier} {α β : Type} {R : World → World → Prop}

theorem of_oblivious {x : Action may tier α} (hx : Oblivious x) : Relates Quiet x := fun w =>
  (hx.keeps w).mono (fun _ _ h => .of_eq h.scopes h.settings) fun _ _ h => .of_eq h.scopes h.settings

theorem held {x : Action may tier α} (hx : Relates Quiet x) : Relates World.SameHeld x := fun w =>
  (hx w).mono (fun _ _ h => h.held) fun _ _ h => h.held

theorem firstSome [WorldRelation R] {xs : List α} {f : α → Action may tier (Option β)}
    (hf : ∀ x, Relates R (f x)) : Relates R (ScriptCore.firstSome xs f) := by
  induction xs with
  | nil => exact .pure none
  | cons x rest ih =>
    refine .bind (hf x) fun r => ?_
    cases r with
    | some y => exact .pure _
    | none => exact ih

theorem reflected [WorldRelation R] {x : Action may .any α} (hx : Relates R x) : Relates R (Run.reflected x) := by
  refine .converting hx fun w e y hy => ?_
  split at hy
  · cases hy; exact .lift (.fail _)
  · cases hy; exact .fail _
  · cases hy

theorem fault [WorldRelation R] (c : Cause) : Relates R (Run.fault c : Faulty α) := .fail _

theorem refuse [WorldRelation R] (before : String) (v : Value) (after : String) :
    Relates R (Run.refuse before v after : Plain α) := .bind (.read _) fun _ => .raise _

theorem hostFailure [WorldRelation R] (v : Value) : Relates R (Run.hostFailure v : Action .nothing .call α) :=
  WorldRelation.refl

variable (s : ScopeId)

theorem getClass (name : String) : Relates Quiet (Run.getClass s name) := by
  refine .bind (.read _) fun hit => ?_
  have search : Relates Quiet (Run.searchClass s name) := by
    refine .bind (.read _) fun w => .firstSome fun full => .bind (.read _) fun reg => ?_
    split
    · exact .pure _
    · exact .pure _
    · exact .pure _
    · exact .bind (.of_oblivious (.load full)) fun _ => .bind (fun _ => .of_eq rfl rfl) fun _ => .pure _
  cases hit with
  | some c => exact .pure _
  | none =>
    refine .bind search fun found => ?_
    cases found with
    | none => exact .pure _
    | some c => exact .bind (fun _ => .of_eq rfl rfl) fun _ => .pure _

theorem leadingClass (segments : List String) : Relates Quiet (Run.leadingClass s segments) := by
  refine .firstSome fun i => .bind (.getClass _ _) fun r => ?_
  cases r <;> exact .pure _

theorem resolverFor (name : String) : Relates Quiet (Run.resolverFor s name) := by
  refine .bind (.read _) fun w => ?_
  split
  · exact .pure _
  · exact .bind (fun _ => .of_eq rfl rfl) fun _ => .bind (fun _ => .of_eq rfl rfl) fun _ => .pure _

theorem newChild (name : Option String) : Relates Quiet (Run.newChild s name) := fun w => .push w rfl

theorem segmentValue (view : View) (k : Walk) (s : ScopeId) (name : String) (special : Bool) :
    Relates Quiet (Run.segmentValue view k s name special) := by
  have known : Relates Quiet (Run.getVariable s name true) := .of_oblivious (.getVariable s name true)
  have listed (names : List String) : Relates Quiet (Run.nameList names) := .of_adds (.newList _)
  refine .bind (.lift (.read _)) fun w => ?_
  extract_lets plain
  have plain : Relates Quiet plain := .bind known fun _ => .pure _
  repeat' split
  all_goals first
    | exact plain
    | exact .pure _
    | exact .fault _
    | exact .bind (x := liftM (Run.nameList _)) (listed _) fun _ => .pure _

theorem fieldBy {look : Value → String → Action may .bridge Attribute} (hl : ∀ v name, Relates Quiet (look v name))
    (target : Value) (name : String) : Relates Quiet (Run.fieldBy look target name) := by
  have given (a : Attribute) : Relates Quiet (do
      let v ← Run.ofAttribute a
      Run.read fun w => w.wrap v : Action may .bridge Value) :=
    .bind (.lift (.of_oblivious (.ofAttribute a))) fun _ => .lift (.read _)
  unfold Run.fieldBy
  split
  · exact .lift (.of_oblivious (.noSuchField name))
  · refine .bind (hl _ _) fun a => ?_
    cases a with
    | missing m => exact .lift (.of_oblivious (.noSuchField name))
    | broken e => exact .bind (.lift (.of_oblivious (.newHostError e))) fun _ => .lift (.hostFailure _)
    | _ => exact given _

theorem hasFieldBy {look : Value → String → Action may tier Attribute} (hl : ∀ v name, Relates Quiet (look v name))
    (target : Value) (name : String) : Relates Quiet (Run.hasFieldBy look target name) := by
  unfold Run.hasFieldBy
  split
  · exact .pure _
  · refine .bind (hl _ _) fun a => ?_
    cases a with
    | broken e => exact .lift (.raise e)
    | _ => exact .pure _

theorem freshMark : Relates Quiet Run.freshMark := fun _ => .of_eq rfl rfl

theorem coreSum (w : World) (a b : Value) : Relates Quiet (Evaluator.coreSum w a b) := by
  have real (x : Int ⊕ Float) : Relates Quiet (Evaluator.toReal x) := by
    unfold Evaluator.toReal
    repeat' split
    all_goals first
      | exact .pure _
      | exact .raise _
  have computed (x : Float) : Relates Quiet (Run.computedReal x) := by
    unfold Run.computedReal
    split
    · exact .bind .freshMark fun _ => .pure _
    · exact .pure _
  have text (s : String) : Relates Quiet (some <$> Run.freshText s) :=
    .bind (.bind .freshMark fun _ => .pure _) fun _ => .pure _
  unfold Evaluator.coreSum
  split
  · refine .bind ?_ fun _ => .pure _
    unfold Evaluator.combine
    split
    · exact .pure _
    · exact .bind (real _) fun x => .bind (real _) fun y => computed _
  · repeat' split
    all_goals first
      | exact .pure _
      | exact text _
  · split
    · exact .bind (.of_adds (.newList _)) fun _ => .pure _
    · exact .bind (.of_adds (.newTuple _)) fun _ => .pure _
    · exact .pure _

end Run.Relates

def Place.IsOfName : Place → Prop
  | .named .. | .field .. => True
  | _ => False

theorem Run.meets_fieldPlace (full : String) (k : Walk) (owner : Value) (name : String) (w : World) :
    (fieldPlace full k owner name).run.Meets w (fun p w' => p.IsOfName ∧ w.Quiet w') fun _ w' => w.Quiet w' := by
  refine Comp.meets_bind.mpr (meets_get.mpr ?_)
  split
  · split
    · exact .refl w
    · exact ⟨trivial, .refl w⟩
  · exact World.Quiet.of_eq rfl rfl
  · exact .refl w
  · exact .refl w
  · dsimp -zeta only
    extract_lets target placed
    have placed (static : Option ScopeId) {u : World} (h : w.Quiet u) :
        (placed static).run.Meets u (fun p w' => p.IsOfName ∧ w.Quiet w') fun _ w' => w.Quiet w' := by
      dsimp only [placed]
      repeat' split
      all_goals exact ⟨trivial, h⟩
    split
    · exact placed _ (.refl w)
    · simp only [Action.meets_bind, Action.run_lift]
      exact (Relates.of_adds (.findBinding _ _ _) w).imp fun _ _ h => placed _ h

namespace Evaluator

open World (Quiet)
open Run (Relates)

variable {ev : Evaluator} {α : Type}

/-- Nothing that is evaluated or asked for makes or removes variables or gives up strictness. -/
structure Discreet (ev : Evaluator) : Prop where
  exec : ∀ n σ, (ev.exec n).Meets σ (fun _ σ' => σ.world.Quiet σ'.world) fun _ σ' => σ.world.Quiet σ'.world
  answer : ∀ {α : Type} (r : Request α), Relates Quiet (ev.answer r)

namespace Discreet

variable (h : ev.Discreet)
include h

theorem request (r : Request α) : Relates Quiet (ev.request r) := h.answer r

theorem ask (f self : Value) (args : List Value) : Relates Quiet (ev.ask f self args) := by
  unfold Evaluator.ask
  split
  · exact h.request _
  · exact h.request _
  · exact h.request _

variable (target : Value) (name : String)

theorem lookUp : Relates Quiet (ev.lookUp target name) := by
  refine .bind (.lift (.read _)) fun a => ?_
  split
  · refine .catching (.bind (h.ask _ _ _) fun _ => .pure _) fun w e y hy => ?_
    cases hz : Run.hostException? w e with
    | none =>
      rw [hz] at hy
      cases hy
    | some z =>
      rw [hz] at hy
      dsimp only at hy
      split at hy
      · cases hy
        exact .bind (.lift (.of_adds (.hostException hz))) fun _ => .bind (.lift (.read _)) fun _ => .pure _
      · cases hy
  · exact .pure _

theorem getField : Relates Quiet (ev.getField target name) := by
  refine .fieldBy (fun target name => .catching (.lift (h.lookUp target name)) fun w e y hy => ?_) target name
  cases hy
  refine .bind (.lift (.of_adds ?_)) fun v => .bind (.lift (h.request _)) fun shown => .fail _
  unfold Run.exceptionOf Run.newFailure
  split
  · exact .pure _
  · exact .bind (.newTuple _) fun _ => .alloc rfl

theorem hasField : Relates Quiet (ev.hasField target name) :=
  .hasFieldBy h.lookUp target name

variable (v : Value)

theorem index : Relates Quiet (ev.index v) := by
  refine .bind (.lift (.read _)) fun w => ?_
  split
  · exact .pure _
  · refine .bind (h.ask _ _ _) fun r => .bind (.lift (.read _)) fun w' => ?_
    split
    · exact .pure _
    · exact .lift (.refuse _ _ _)
  · exact .lift (.refuse _ _ _)

theorem size : Relates Quiet (ev.size v) := by
  refine .bind (.lift (.read _)) fun w => ?_
  split
  · exact .lift (.refuse _ _ _)
  · exact .lift (.refuse _ _ _)
  · refine .bind (h.ask _ _ _) fun r => .bind (h.index r) fun n => ?_
    repeat' split
    all_goals first
      | exact .pure _
      | exact .lift (.raise _)
  · refine .lift ?_
    unfold coreSize
    repeat' split
    all_goals first
      | exact .pure _
      | exact .bind (.of_oblivious (.ofAttribute _)) fun _ => .pure _

theorem sizeOf? : Relates Quiet (ev.sizeOf? v) := by
  refine .bind (.lift (.read _)) fun w => ?_
  split
  · exact .bind (h.size v) fun _ => .pure _
  · exact .pure _

theorem hostField (base : Value) (name : String) : Relates Quiet (ev.hostField base name) := by
  unfold Evaluator.hostField
  refine .bind (.lift (.read _)) fun w => ?_
  extract_lets rest
  have rest (size : Option Nat) : Relates Quiet (rest size) := by
    cases size with
    | some n => exact .pure _
    | none =>
      refine .converting (h.getField base name) fun w e y hy => ?_
      split at hy
      · cases hy
        exact .bind (.lift (h.request _)) fun _ => .lift (.fault _)
      · cases hy
        exact .fail _
      · cases hy
  split
  · refine .bind (.lift (h.sizeOf? base)) fun found => ?_
    cases found with
    | none => exact rest none
    | some n => exact .bind (.lift (h.hasField _ _)) fun _ => .bind (.pure _) rest
  · exact .bind (.pure _) rest

theorem scriptText : Relates Quiet (ev.scriptText v) := by
  unfold Evaluator.scriptText
  repeat' split
  all_goals first
    | exact .pure _
    | exact .bind (h.request _) fun _ => .pure _

variable (l r : Value)

theorem joinTexts : Relates Quiet (ev.joinTexts l r) := by
  refine .bind (h.scriptText l) fun a => .bind (h.scriptText r) fun b => .lift ?_
  unfold concat
  repeat' split
  all_goals first
    | exact .pure _
    | exact .bind (fun _ => .of_eq rfl rfl) fun _ => .pure _

theorem byOperands (name mirrored : String) (a b : Value) {core : ev.Host (Option Value)}
    (known : Relates Quiet core) : Relates Quiet (ev.byOperands name mirrored a b core) := by
  have asked (f self : Value) (args : List Value) : Relates Quiet (some <$> ev.ask f self args) :=
    .bind (h.ask f self args) fun _ => .pure _
  refine .bind (.lift (.read _)) fun w => ?_
  dsimp only
  split
  · split
    · exact asked _ _ _
    · exact asked _ _ _
  · exact asked _ _ _
  · split
    · exact asked _ _ _
    · refine .bind known fun v => ?_
      cases v with
      | some v => exact .pure _
      | none => exact asked _ _ _
  · exact known

theorem hostAdd (a b : Value) : Relates Quiet (ev.hostAdd a b) := by
  refine .bind (.lift (.read _)) fun w => .bind (h.byOperands _ _ a b (.lift (.coreSum w a b))) fun v => ?_
  cases v with
  | some v => exact .pure _
  | none =>
    dsimp only
    split
    · exact .lift (.refuse _ _ _)
    · exact .lift (.refuse _ _ _)
    · exact .lift (.refuse _ _ _)
    · exact .lift (.bind (.read _) fun _ => .refuse _ _ _)

theorem appendText : Relates Quiet (ev.appendText l r) := .bind (h.scriptText r) fun _ => h.hostAdd _ _

theorem referenceOp (op : BinaryOp) : Relates Quiet (ev.referenceOp l r op) := by
  refine .bind (.lift (.read _)) fun w => ?_
  repeat' split
  all_goals first
    | exact .pure _
    | exact .lift (h.joinTexts l r)
    | exact .lift (.fault _)

theorem binaryOp (op : BinaryOp) : Relates Quiet (ev.binaryOp l r op) := by
  unfold Evaluator.binaryOp
  split
  · next p _ q _ =>
    have troubled : Relates Quiet (Run.ofTrouble (p.binary q op)) := by
      unfold Run.ofTrouble
      split
      · exact .pure _
      · exact .fault _
      · exact .of_adds (.throwInto _ _)
      · exact .lift (.raise _)
    refine .bind (.lift troubled) fun v => ?_
    split
    · exact .pure _
    · refine .lift ?_
      unfold Run.computedPrimitive
      split
      · exact .bind (fun _ => .of_eq rfl rfl) fun _ => .pure _
      · exact .pure _
  · exact h.referenceOp l r op

theorem compoundOp (op : BinaryOp) : Relates Quiet (ev.compoundOp l r op) := by
  refine .bind (.lift (.read _)) fun w => ?_
  repeat' split
  all_goals first
    | exact .lift (h.appendText l r)
    | exact h.binaryOp _ _ op
    | exact .lift (.fault _)

theorem setField (value : Value) :
    Relates World.SameHeld (ev.setField target name value) := by
  have set (v : Value) (name : String) (x : Value) : Relates World.SameHeld (ev.setAttr v name x) := by
    refine .bind (.lift (.read _)) fun w => ?_
    dsimp only
    split
    · exact .bind (h.ask _ _ _).held fun _ => .pure _
    · exact .lift (.of_setsField (.setAttr v name x) fun _ u _ => World.allowsPackage_sameHeld u)
  refine .catching (.lift (set _ _ _)) fun w e y hy => ?_
  cases hz : Run.hostException? w e with
  | none =>
    rw [hz] at hy
    cases hy
  | some z =>
    rw [hz] at hy
    dsimp only at hy
    split at hy
    · cases hy
      exact .bind (.lift (.of_adds (.hostException hz))) fun _ => .bind (.lift (.read _)) fun _ => .fail _
    · cases hy
      exact .bind (.lift (.of_adds (.hostException hz))) fun _ => .lift (.hostFailure _)

end Discreet

end Evaluator

end ScriptCore
