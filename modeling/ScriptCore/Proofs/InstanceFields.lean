import ScriptCore.Proofs.NameCaching
import ScriptCore.Proofs.ReadBack

namespace ScriptCore

namespace Path

variable {x y : String}

theorem segments_of_plain (h : '.' ∉ x.toList) : segments x = [x] := by
  rw [segments, split_eq_singleton h, List.map_singleton, String.ofList_toList]

theorem segments_dotted (hx : '.' ∉ x.toList) (hy : '.' ∉ y.toList) : segments (x ++ "." ++ y) = [x, y] := by
  have text : (x ++ "." ++ y).toList = x.toList ++ '.' :: y.toList := by simp
  rw [segments, text, split_append hx, split_eq_singleton hy, List.map_cons, List.map_singleton, String.ofList_toList,
    String.ofList_toList]

theorem isCompound_dotted (x y : String) : isCompound (x ++ "." ++ y) = true := by simp [isCompound]

end Path

theorem Run.Oblivious.of_done {may : May} {t : Tier} {α : Type} {x : Action may t α} (hx : Oblivious x) {w : World} {a : α}
    (h : x.run w = .done a w) (m : Array Memory) (n : Nat) : x.run (w.remembering m n) = .done a (w.remembering m n) := by
  rw [hx.blind w m n, h]
  rfl

namespace World

variable {w : World} {s inst t : ScopeId} {x f : String} {i : ObjectId}

structure HoldsInstance (w : World) (s : ScopeId) (x : String) (i : ObjectId) (inst : ScopeId) : Prop where
  name : '.' ∉ x.toList
  plain : x ∉ ["this", "super", "global"]
  value : (Run.getVariable s x true).run w = .done (.object i) w
  scope : w.instanceScope? (.object i) = some inst
  isObject : w.classId? (.object i) = none
  noArray : w.array? (.object i) = none
  noBlock : (w.scope inst).isBlock = false

/-- Nothing on the host side hides the variable of an instance that has the name. -/
structure Exposes (w : World) (i : ObjectId) (f : String) : Prop where
  name : f.startsWith "_" = false
  fixed : fixedAttribute? (w.obj i) f = none
  initial : initialAttribute? (w.obj i) f = none
  own : (w.obj i).attrs.get? f = none
  member : w.member (w.obj i).cls f = none
  reads : w.keeper (w.obj i).cls "__getattr__" = .variables
  writes : w.keeper (w.obj i).cls "__setattr__" = .variables
  unsized : f = "length" → w.isSized (.object i) = false

theorem HoldsInstance.remembering (h : w.HoldsInstance s x i inst) (m : Array Memory) (n : Nat) :
    (w.remembering m n).HoldsInstance s x i inst :=
  ⟨h.name, h.plain, (Run.Oblivious.getVariable s x true).of_done h.value m n, h.scope, h.isObject, h.noArray, h.noBlock⟩

/-- A value that comes back from the host as it went there. Of the numbers these are the types that
the host infers. -/
def Native (w : World) : Value → Prop
  | .void | .none | .bool _ | .int _ | .float .. => False
  | .boxed (.boolean _) mark => mark = 0
  | .boxed (.int n) mark => Value.inferInt n = .int ∧ mark = 0
  | .boxed (.long n) mark => Value.inferInt n ≠ .int ∧ Word.wrap 64 n = n ∧ mark = 0
  | .boxed (.double _) _ => True
  | .boxed .. => False
  | .object i => w.number? (.object i) = none
  | _ => True

theorem wrap_ne_none (w : World) (v : Value) : w.wrap v ≠ .none := by
  unfold World.wrap
  split
  · split <;> exact fun none => by cases none
  · cases v <;> exact fun none => by cases none

theorem wrap_unwrap_eq_iff (w : World) (v : Value) : w.wrap v.unwrap = v ↔ w.Native v := by
  cases v with
  | boxed p mark =>
    cases p with
    | boolean b => simp [Value.unwrap, Value.ofPrimitive, World.wrap, Value.wrap, Native, eq_comm]
    | byte n | short n | int n | long n =>
      by_cases fits : Value.inferInt n = .int <;>
        simp [Value.unwrap, Value.ofPrimitive, World.wrap, Value.wrap, Native, fits, eq_comm]
    | char c => simp [Value.unwrap, Value.ofPrimitive, Value.ofString, World.wrap, Value.wrap, Native]
    | float x | double x => simp [Value.unwrap, Value.ofPrimitive, World.wrap, Value.wrap, Native]
  | object i =>
    simp only [Value.unwrap, World.wrap, Native, number?]
    split <;> simp_all [Value.wrap]
  | _ => simp [Value.unwrap, World.wrap, Value.wrap, Native]

theorem variableValue_of_read {a : Value} (read : (Run.readBinding (.held t f)).run w = .done a w) :
    w.variableValue t f = a.unwrap := by
  have value : ((w.scope t).vars.get? f).elim .void (fun v => v.value.getD .none) = a := by
    cases read
    rfl
  rw [← value, variableValue]
  cases (w.scope t).vars.get? f <;> rfl

theorem Exposes.remembering (h : w.Exposes i f) (m : Array Memory) (n : Nat) : (w.remembering m n).Exposes i f :=
  ⟨h.name, h.fixed, h.initial, h.own, h.member, h.reads, h.writes, h.unsized⟩

theorem Exposes.plain (h : w.Exposes i f) : f.startsWith "__" = false := by
  have single := h.name
  rw [String.startsWith_string_eq_false_iff] at single ⊢
  exact fun double => single (.trans (by decide) double)

theorem objectDescription?_of_name (v : Value) (h : f.startsWith "_" = false) : w.objectDescription? v f = none := by
  have other {g : String} (hg : g.startsWith "_" = true) : f ≠ g := by
    rintro rfl
    rw [h] at hg
    cases hg
  have inherited : inheritedParts.contains f = false := by
    simp only [inheritedParts, List.contains_eq_mem, List.mem_cons, List.not_mem_nil, or_false, decide_eq_false_iff_not,
      not_or]
    exact ⟨other (by decide +kernel), other (by decide +kernel), other (by decide +kernel)⟩
  unfold objectDescription?
  dsimp only
  split
  case h_7 =>
    rw [inherited]
    rfl
  all_goals exact absurd rfl (other (by decide +kernel))

theorem Exposes.attributeOf (h : w.Exposes i f) (scope : w.instanceScope? (.object i) = some inst)
    (declared : w.classVariable? inst (w.obj i).cls f = some t) :
    w.attributeOf (.object i) f = .value (w.variableValue t f) := by
  have scope : (w.obj i).scope = some inst := scope
  have described := objectDescription?_of_name (w := w) (.object i) h.name
  have unclassed : f ≠ "__class__" := by
    rintro rfl
    exact absurd h.name (by decide +kernel)
  have seen : w.scriptedAttribute i f = .value (w.variableValue t f) := by
    unfold scriptedAttribute
    simp only [h.name, scope, declared, Bool.false_eq_true, if_false]
  have kept : w.ownAttribute? (.object i) f = none := by
    unfold ownAttribute?
    simp only [h.own, h.initial]
  have member : w.member (w.classOf (.object i)) f = none := h.member
  have fallback : w.fallbackAttribute (.object i) f = w.scriptedAttribute i f := by
    unfold fallbackAttribute
    simp only [h.reads]
  unfold World.attributeOf
  simp only [unclassed, if_false, h.fixed, member, kept, described, fallback, seen]

end World

theorem Comp.catching_of_done {σ α : Type} {x : Comp σ α} {handler : Failure → Comp σ α} {s s' : σ}
    {a : α} (h : x s = .done a s') : catching x handler s = .done a s' := by
  simp only [catching, h]

namespace Action

variable {may : May} {r t : Tier} {α : Type} {x : Action may r α} {handler : World → Failure → Option (Action may t α)}
  {rest : ∀ w e, r.Allows e → handler w e = none → t.Allows e} {w w' : World} {a : α}

theorem converting_done_iff
    (fails : ∀ w e y, handler w e = some y → y.run.Meets w (fun _ _ => False) fun _ _ => True) :
    (converting x handler rest).run w = .done a w' ↔ x.run w = .done a w' := by
  refine ⟨fun done => ?_, fun done => Comp.catching_of_done done⟩
  cases ran : x.run w with
  | done b v =>
    simp only [converting, Comp.catching, ran] at done
    exact done
  | exhausted =>
    simp only [converting, Comp.catching, ran] at done
    cases done
  | failed e v =>
    simp only [converting, Comp.catching, ran] at done
    cases handled : handler v e with
    | none =>
      rw [handled] at done
      cases done
    | some y =>
      rw [handled] at done
      exact ((fails v e y handled).of_done done).elim

theorem bind_pure_done_iff {y : Action may r Unit} {b : α} :
    (y >>= fun _ => pure b).run w = .done a w' ↔ a = b ∧ y.run w = .done () w' := by
  refine Comp.bind_done_iff.trans ⟨?_, ?_⟩
  · rintro ⟨u, v, ran, done⟩
    cases done
    exact ⟨rfl, ran⟩
  · rintro ⟨rfl, ran⟩
    exact ⟨(), w', ran, rfl⟩

end Action

namespace Run

variable {w : World} {s : ScopeId} {name : String} {v : Value} {b : Binding} {strict outwards : Bool}

theorem setVariable_of_noBlock (noBlock : (w.scope s).isBlock = false) :
    (setVariable s name v strict outwards).run w = (bindIn s name v strict outwards).run w := by
  have here : w.bindingScope s name = s := by
    obtain ⟨rest, head⟩ := w.head_ancestry s
    rw [World.bindingScope, head, List.find?_cons_of_pos (by simp [noBlock])]
    rfl
  unfold setVariable
  rw [Action.run_get_bind]
  simp only [here, noBlock, Bool.not_false, Bool.and_true]

theorem bindIn_of_found (given : v ≠ .none) (found : (findBinding s name outwards).run w = .done (some b) w) :
    (bindIn s name v strict outwards).run w = (writeBinding b v).run w := by
  unfold bindIn
  split
  · exact absurd rfl given
  · rw [Action.run_liftM_bind_of_done found]

theorem bindIn_of_unknown (given : v ≠ .none) (unknown : (findBinding s name outwards).run w = .done none w) :
    (bindIn s name v strict outwards).run w =
      if strict then (fault (.strictUndeclared name) : Faulty Unit).run w
      else (declareVariable s name .untyped (some v) {}).run w := by
  unfold bindIn
  split
  · exact absurd rfl given
  · rw [Action.run_liftM_bind_of_done unknown]
    cases strict <;> rfl

theorem findBinding_here (s : ScopeId) (name : String) :
    (findBinding s name false).run w = (localBindingOf s name).run w :=
  firstSome_singleton (f := fun t => localBindingOf t name) s

theorem findBinding_of_own (own : (localBindingOf s name).run w = .done (some b) w) :
    (findBinding s name true).run w = .done (some b) w := by
  obtain ⟨rest, head⟩ := w.head_ancestry s
  have split : w.ancestry s = [] ++ s :: rest := head
  exact findBinding_of_first split (fun _ none => by cases none) own

end Run

namespace Evaluator

variable (ev : Evaluator) (view : View) {w : World} {s inst t : ScopeId} {x f : String} {i : ObjectId} {v : Value}

theorem lookUp_of_exposes (h : w.Exposes i f) (scope : w.instanceScope? (.object i) = some inst)
    (declared : w.classVariable? inst (w.obj i).cls f = some t) :
    (ev.lookUp (.object i) f).run w = .done (.value (w.variableValue t f)) w := by
  unfold lookUp
  rw [Action.run_liftM_bind_of_done (x := Run.read _) rfl]
  dsimp only
  rw [h.attributeOf scope declared]
  rfl

theorem getField_of_exposes (h : w.Exposes i f) (scope : w.instanceScope? (.object i) = some inst)
    (declared : w.classVariable? inst (w.obj i).cls f = some t) :
    (ev.getField (.object i) f).run w = .done (w.wrap (w.variableValue t f)) w := by
  unfold getField Run.fieldBy
  simp only [h.plain, Bool.false_eq_true, if_false]
  rw [Action.run_bind]
  exact Comp.bind_of_done (Comp.catching_of_done (lookUp_of_exposes ev h scope declared))

theorem hostField_of_exposes (h : w.Exposes i f) (scope : w.instanceScope? (.object i) = some inst)
    (declared : w.classVariable? inst (w.obj i).cls f = some t) :
    (ev.hostField (.object i) f).run w = .done (w.wrap (w.variableValue t f)) w := by
  have read := getField_of_exposes ev h scope declared
  unfold hostField
  rw [Action.run_get_bind]
  dsimp only
  split
  · next length =>
    simp only [Bool.and_eq_true, decide_eq_true_eq] at length
    have none : (ev.sizeOf? (.object i)).run w = .done none w := by
      unfold sizeOf?
      rw [Action.run_get_bind]
      simp only [h.unsized length.1, Bool.false_and, Bool.false_eq_true, if_false]
      rfl
    rw [Action.run_liftM_bind_of_done none]
    exact Comp.catching_of_done read
  · exact Comp.catching_of_done read

theorem step_of_variable {w' : World} (plain : x ∉ ["this", "super", "global"])
    (read : (Run.getVariable s x true).run w = .done v w') (defined : v ≠ .void) (full : String) (allocating : Bool)
    (rest : List String) :
    (Run.step view ev.hostField s full false allocating { rest := x :: rest }).run w =
      (Run.stepTo { rest := x :: rest } x rest v).run w' := by
  have given : v.isVoid = false := by cases v <;> first | rfl | exact absurd rfl defined
  change (Run.firstStep view s false allocating { rest := x :: rest } x).run w = _
  unfold Run.firstStep
  simp only [Bool.false_eq_true, if_false]
  rw [Action.run_liftM_bind_of_done (Run.segmentValue_of_variable view _ plain read)]
  simp only [given, Bool.not_false, if_true]
  rfl

theorem nameIn_of_value (undotted : '.' ∉ x.toList) (plain : x ∉ ["this", "super", "global"])
    (read : (Run.getVariable s x true).run w = .done v w) (defined : v ≠ .void) (given : v ≠ .none) :
    (ev.nameIn view s x).run w = .done v w := by
  have first : (Run.step view ev.hostField s x false false { rest := [x] }).run w =
      .done (v, { rest := [], last := some x, base := some v }) w := by
    rw [step_of_variable ev view plain read defined]
    unfold Run.stepTo
    split
    · exact absurd rfl given
    · rfl
  unfold nameIn Run.resolveName
  simp only [Path.segments_of_plain undotted]
  unfold Run.walk
  rw [Action.run_bind_of_done first]
  rfl

theorem knownFrom_of_run (scope : w.instanceScope? (.object i) = some inst) {found : Option Binding}
    (run : (Run.findBinding inst f true).run w = .done found w) :
    (knownFrom (w.instanceScope? (.object i)) f).run w = .done (found.map fun _ => inst) w := by
  rw [scope]
  unfold knownFrom
  rw [Action.run_bind_of_done run]
  rfl

section

variable (holds : w.HoldsInstance s x i inst)
include holds

theorem step_of_holds (full : String) (allocating : Bool) (rest : List String) :
    (Run.step view ev.hostField s full false allocating { rest := x :: rest }).run w =
      .done (.object i, { rest, last := some x, base := some (.object i) }) w :=
  step_of_variable ev view holds.plain holds.value (fun h => by cases h) full allocating rest

theorem nameIn_dotted (name : '.' ∉ f.toList)
    (read : (ev.hostField (.object i) f).run w = .done v w) (given : v ≠ .none) :
    (ev.nameIn view s (x ++ "." ++ f)).run w = .done v w := by
  have second : (Run.step view ev.hostField s (x ++ "." ++ f) false false
      { rest := [f], last := some x, base := some (.object i) }).run w =
        .done (v, { rest := [], last := some f, base := some v }) w := by
    unfold Run.step Run.stepFrom
    dsimp only
    rw [Action.run_liftM_bind_of_done (x := Run.read _) rfl]
    dsimp only
    rw [holds.isObject]
    simp only [Bool.false_eq_true, if_false]
    refine (Action.run_bind_of_done read).trans ?_
    unfold Run.stepTo
    split
    · exact absurd rfl given
    · rfl
  unfold nameIn Run.resolveName
  simp only [Path.segments_dotted holds.name name]
  unfold Run.walk
  rw [Action.run_bind_of_done (step_of_holds ev view holds _ false [f])]
  unfold Run.walk
  refine (Action.run_bind_of_done second).trans ?_
  rfl

theorem nameIn_plain : (ev.nameIn view s x).run w = .done (.object i) w :=
  nameIn_of_value ev view holds.name holds.plain holds.value (fun h => by cases h) fun h => by cases h

theorem placeIn_dotted (name : '.' ∉ f.toList) :
    (ev.placeIn view s (x ++ "." ++ f)).run w = .done (.named inst f true) w := by
  have owner : (Run.walkToOwner view ev.hostField s (x ++ "." ++ f) 3 .void { rest := [x, f] }).run w =
      .done (.object i, { rest := [f], last := some x, base := some (.object i) }) w := by
    unfold Run.walkToOwner
    refine (Action.run_bind_of_done (step_of_holds ev view holds _ true [f])).trans ?_
    rfl
  have place : (Run.fieldPlace (x ++ "." ++ f) { rest := [f], last := some x, base := some (.object i) } (.object i) f).run w =
      .done (.named inst f true) w := by
    unfold Run.fieldPlace
    rw [Action.run_get_bind]
    simp only [holds.isObject, Option.getD_none, holds.scope]
    rfl
  unfold placeIn Run.resolvePlace
  simp only [Path.segments_dotted holds.name name, Path.isCompound_dotted, Bool.not_true, Bool.false_eq_true, if_false]
  rw [Action.run_bind]
  exact (Comp.bind_of_done (Comp.catching_of_done owner)).trans place

theorem fieldValue_of_found {b : Binding} (found : (Run.findBinding inst f true).run w = .done (some b) w) :
    (ev.fieldValue s (.object i) f).run w = (Run.readBinding b).run w := by
  have known := knownFrom_of_run holds.scope found
  unfold fieldValue
  refine (Action.run_liftM_bind_of_done (x := checkObject (.object i) f) rfl).trans ?_
  refine (Action.run_liftM_bind_of_done (x := Run.get) rfl).trans ?_
  simp only [holds.noArray, holds.isObject]
  refine (Action.run_liftM_bind_of_done known).trans ?_
  exact Run.getVariable_of_binding found

theorem fieldValue_of_unknown (h : w.Exposes i f) (declared : w.classVariable? inst (w.obj i).cls f = some t)
    (unknown : (Run.findBinding inst f true).run w = .done none w) :
    (ev.fieldValue s (.object i) f).run w = .done (w.wrap (w.variableValue t f)) w := by
  have known := knownFrom_of_run holds.scope unknown
  have read := getField_of_exposes ev h holds.scope declared
  unfold fieldValue
  refine (Action.run_liftM_bind_of_done (x := checkObject (.object i) f) rfl).trans ?_
  refine (Action.run_liftM_bind_of_done (x := Run.get) rfl).trans ?_
  simp only [holds.noArray, holds.isObject]
  refine (Action.run_liftM_bind_of_done known).trans ?_
  dsimp only [Option.map]
  split
  · next length =>
    subst length
    have own : (ev.hasField (.object i) "length").run w = .done true w := by
      unfold hasField Run.hasFieldBy
      simp only [h.plain, Bool.false_eq_true, if_false]
      exact Action.run_bind_of_done (lookUp_of_exposes ev h holds.scope declared)
    exact (Action.run_liftM_bind_of_done own).trans read
  · exact read

theorem fieldPlace_of_run {found : Option Binding}
    (run : (Run.findBinding inst f true).run w = .done found w) :
    (fieldPlace (.object i) f).run w =
      .done (if found.isSome then .named inst f false else .field (.object i) (.ofString f)) w := by
  have known := knownFrom_of_run holds.scope run
  have noArray : w.isArray (.object i) = false := by rw [World.isArray, holds.noArray]; rfl
  unfold fieldPlace
  refine (Action.run_bind_of_done (x := checkObject (.object i) f) rfl).trans ?_
  refine (Action.run_liftM_bind_of_done (x := Run.get) rfl).trans ?_
  simp only [holds.isObject, noArray, Bool.and_false, Bool.false_eq_true, if_false]
  refine (Action.run_liftM_bind_of_done known).trans ?_
  cases found <;> rfl

end

theorem assign_named_done_iff {isLocal strict : Bool} {a : Value} {w' : World} :
    ((Place.named inst f isLocal).assign ev v strict).run w = .done a w' ↔
      a = v ∧ (Run.setVariable inst f v strict (!isLocal)).run w = .done () w' :=
  Action.bind_pure_done_iff (y := liftM (Run.setVariable inst f v strict (!isLocal)))

theorem setAttr_done_iff (h : w.Exposes i f) (scope : w.instanceScope? (.object i) = some inst)
    (declared : w.classVariable? inst (w.obj i).cls f = some t) {w' : World} :
    (ev.setAttr (.object i) f v).run w = .done () w' ↔
      (Run.assignVariable t f (w.wrap v) false).run w = .done () w' := by
  have scripted : Run.scriptedVariable? w i f = some t := by
    have scope : (w.obj i).scope = some inst := scope
    unfold Run.scriptedVariable?
    simp only [h.name, scope, Bool.false_eq_true, if_false, Option.bind_some, declared]
  have own : (Run.setAttr (.object i) f v).run w = (Run.setScriptedAttr i f v).run w := by
    unfold Run.setAttr
    rw [Action.run_read_bind]
    simp only [h.writes]
  have host : (ev.setAttr (.object i) f v).run w = (Run.setAttr (.object i) f v).run w := by
    unfold setAttr
    rw [Action.run_get_bind]
    simp only [h.writes]
    rfl
  rw [host, own]
  unfold Run.setScriptedAttr
  rw [Action.run_read_bind]
  simp only [scripted]
  rw [Action.run_read_bind]
  refine Action.converting_done_iff fun w e y handled => ?_
  split at handled
  · cases handled
    trivial
  · cases handled

theorem assign_field_done_iff (h : w.Exposes i f) (scope : w.instanceScope? (.object i) = some inst)
    (declared : w.classVariable? inst (w.obj i).cls f = some t) {strict : Bool} {a : Value} {w' : World} :
    ((Place.field (.object i) (.ofString f)).assign ev v strict).run w = .done a w' ↔
      a = v ∧ (Run.assignVariable t f (w.wrap v.unwrap) false).run w = .done () w' := by
  refine (Action.bind_pure_done_iff (y := Run.reflected _)).trans (and_congr_right fun _ => ?_)
  refine (Action.converting_done_iff fun w e y handled => ?_).trans ?_
  · split at handled
    · cases handled
      trivial
    · cases handled
      trivial
    · cases handled
  have named : (Place.assignedName ev (.ofString f)).run w = .done f w := by
    unfold Place.assignedName
    rw [Action.run_get_bind]
    rfl
  rw [Action.run_liftM_bind_of_done named]
  change (Run.setFieldBy ev.setAttr (.object i) f v).run w = _ ↔ _
  unfold Run.setFieldBy Action.catching
  refine (Action.converting_done_iff fun w e y handled => ?_).trans (setAttr_done_iff ev h scope declared)
  split at handled
  · cases handled
  · split at handled
    · cases handled
      simp only [Action.meets_bind]
      exact Comp.meets_of_forall (fun _ _ => trivial) fun _ _ => trivial
    · cases handled
      simp only [Action.meets_bind]
      exact Comp.meets_of_forall (fun _ _ => trivial) fun _ _ => trivial

end Evaluator

end ScriptCore
