import ScriptCore.Cast
import ScriptCore.Proofs.Lasting
import ScriptCore.Proofs.Meets

namespace ScriptCore

namespace World

/-- Whether a value may stand in a variable of a type. A module is no type that anything but null
could have. -/
def conforms (w : World) (v : Value) : Ty → Bool
  | .untyped => true
  | .prim p =>
    match v with
    | .boxed q _ => decide (q.type = p)
    | _ => false
  | .array c => v.isNull || w.isArray v && w.isAssignable (w.typeOf v) (.array c)
  | .cls c =>
    match v with
    | .null => true
    | .boxed p _ => w.boxAssignable p.type (.cls c)
    | v => w.isInstance v c
  | .module _ => v.isNull

variable {w w' : World} {v : Value}

theorem typeOf_eq_array_iff {c : Ty} :
    w.typeOf v = .array c ↔
      ∃ i, v = .object i ∧ (w.obj i).payload.component? = some c ∧ w.isInstance (.object i) (.core .array) := by
  cases v with
  | object i =>
    simp only [typeOf, array?, payload?]
    cases hp : (w.obj i).payload with
    | array d elements =>
      by_cases hi : w.isInstance (.object i) (.core .array) <;> simp [hi, hp, Payload.component?]
    | _ => simp [hp, Payload.component?]
  | _ => simp [typeOf, array?, payload?]

theorem isArray_iff : w.isArray v ↔ ∃ c, w.typeOf v = .array c := by
  cases v with
  | object i =>
    simp only [isArray, typeOf]
    cases h : w.array? (.object i) <;> simp
  | _ => simp [isArray, typeOf, array?, payload?]

theorem Lasting.typeOf_array (h : w.Lasting w') {c : Ty} (hv : w.typeOf v = .array c) : w'.typeOf v = .array c := by
  obtain ⟨i, rfl, hc, hi⟩ := typeOf_eq_array_iff.mp hv
  exact typeOf_eq_array_iff.mpr ⟨i, rfl, h.component hc, h.isInstance hi⟩

theorem Lasting.conforms (h : w.Lasting w') {t : Ty} (hv : w.conforms v t) : w'.conforms v t := by
  cases t with
  | array c =>
    simp only [World.conforms, Bool.or_eq_true, Bool.and_eq_true, isArray_iff] at hv ⊢
    refine hv.imp_right fun ⟨⟨d, hd⟩, ha⟩ => ⟨⟨d, h.typeOf_array hd⟩, ?_⟩
    rw [h.typeOf_array hd]
    exact h.isAssignable (hd ▸ ha)
  | cls c =>
    cases v with
    | null => rfl
    | boxed p m => exact h.boxAssignable (p := p.type) (t := .cls c) hv
    | _ => exact h.isInstance hv
  | _ => exact hv

end World

namespace Primitive

theorem type_of_ofInt {t : PrimType} {n : Int} {q : Primitive} (h : ofInt t n = .ok q) : q.type = t := by
  cases t with
  | float | double =>
    simp only [ofInt] at h
    split at h
    · cases h
    · cases h; rfl
  | void => cases h
  | _ => cases h; rfl

theorem type_of_ofFloat {t : PrimType} {x : Float} {q : Primitive} (h : ofFloat t x = .ok q) : q.type = t := by
  cases t with
  | char =>
    simp only [ofFloat] at h
    cases hi : integerPart x with
    | error e => rw [hi] at h; cases h
    | ok n => rw [hi] at h; cases h; rfl
  | void => cases h
  | _ => cases h; rfl

theorem type_of_convert {p q : Primitive} {t : PrimType} (h : p.convert t = .ok q) : q.type = t := by
  cases p with
  | char c =>
    simp only [convert, ofCode] at h
    split at h
    · cases h; rfl
    · cases h; rfl
    · exact type_of_ofInt h
  | float x | double x => exact type_of_ofFloat h
  | _ => exact type_of_ofInt h

end Primitive

namespace Run

variable {w : World}

theorem meets_castFailure {α : Type} {target source : Ty} {mode : Conversion}
    {Q : α → World → Prop} : (castFailure target source mode).run.Meets w Q fun _ _ => True := by
  cases mode <;> trivial

theorem meets_raise {α : Type} {e : HostError} {Q : α → World → Prop} {F : Failure → World → Prop}
    (h : ∀ e w', w.Calm w' → F e w') : (raise e).run.Meets w Q F := by
  have failed : (raise e : Plain α).run.Meets w Q fun _ _ => True := trivial
  exact (failed.and (Action.meets_calm _ w)).mono (fun _ _ h => h.1) fun e w' hw => h e w' hw.2

theorem isSubclass_made_of_mem {n : Nat} {c : ClassRef} (h : c ∈ (w.made n).bases) : w.isSubclass (.made n) c := by
  have : c ∈ w.mro (.made n) := List.mem_cons_of_mem _ ((w.made n).bases_mem c h)
  simp [World.isSubclass, this]

theorem made_to_spec {spec : ClassSpec} {c : MadeClass} (h : spec.build w = .ok c) :
    c.bases = spec.bases ∧ c.isProxy = spec.isProxy := by
  unfold ClassSpec.build at h
  repeat' split at h
  all_goals first
    | cases h; exact ⟨rfl, rfl⟩
    | cases h

theorem meets_make (spec : ClassSpec) (w : World) :
    spec.make.run.Meets w (fun r w' => ∀ c, r = .ok c → ∀ b ∈ spec.bases, w'.isSubclass c b) fun _ _ => True := by
  unfold ClassSpec.make
  simp only [Action.meets_bind, meets_read]
  cases hb : spec.build w with
  | error m => exact fun _ h => by cases h
  | ok c =>
    rintro _ ⟨⟩ b hmem
    refine isSubclass_made_of_mem ?_
    simpa [World.made, (made_to_spec hb).1] using hmem

theorem meets_proxyClass (c : ClassRef) (w : World) :
    (proxyClass [c]).run.Meets w (fun r w' => w'.isSubclass r c) fun _ _ => True := by
  have anything {α : Type} {t : Tier} (x : Action .nothing t α) {w : World} {Q : α → World → Prop}
      (h : ∀ a w', Q a w') : x.run.Meets w Q fun _ _ => True :=
    Comp.meets_of_forall h fun _ _ => trivial
  unfold proxyClass
  simp only [Action.meets_bind, meets_read]
  cases hk : knownProxyClass? w [c] with
  | some r =>
    obtain ⟨n, hn, rfl⟩ := Option.map_eq_some_iff.mp hk
    obtain ⟨hl, hp, -⟩ := Array.findIdx?_eq_some_iff_getElem.mp hn
    simp only [Bool.and_eq_true, beq_iff_eq] at hp
    exact isSubclass_made_of_mem (by simp [World.made, hl, hp.2])
  | none =>
    simp only [Action.meets_bind, meets_read]
    refine anything _ fun members w => anything _ fun members w => anything _ fun members w =>
      anything _ fun members w => anything _ fun members w => ?_
    refine (meets_make _ w).imp fun r w' hr => ?_
    cases r with
    | error m => exact meets_raise fun _ _ _ => trivial
    | ok r => exact hr r rfl c List.mem_cons_self

theorem meets_newInstance (c : ClassRef) (w : World) :
    (newInstance c).run.Meets w (fun r w' => ∃ i, r = .object i ∧ (w'.obj i).cls = c) fun _ _ => True := by
  unfold newInstance
  simp only [Action.meets_bind, meets_alloc]
  refine Comp.meets_of_forall (fun _ w' => ?_) fun _ _ => trivial
  exact Comp.meets_of_forall (fun _ w' => ⟨_, rfl, by simp [World.obj]⟩) fun _ _ => trivial

theorem meets_proxyOf (s : ScopeId) (c : ClassRef) (w : World) :
    (proxyOf s [c]).run.Meets w (fun r w' => ∃ i, r = .object i ∧ w'.isInstance r c) fun _ _ => True := by
  unfold proxyOf
  simp only [List.isEmpty_cons, Bool.false_eq_true, if_false, Action.meets_bind, meets_read]
  refine (meets_proxyClass c w).imp fun r w hr => ?_
  split
  · next i hi =>
    have hc : (w.obj i).cls = r := by simpa using List.find?_some hi
    exact ⟨i, rfl, by rw [World.isInstance, World.classOf, hc]; exact hr⟩
  · simp only [Action.meets_bind]
    refine ((meets_newInstance r w).and (Action.meets_calm _ w)).impDone ?_
    rintro _ w' ⟨⟨i, rfl, hc⟩, calm⟩
    have made : w'.isInstance (.object i) c := by
      rw [World.isInstance, World.classOf, hc]
      exact calm.lasting.isSubclass hr
    simp only [Action.meets_bind, meets_updateObj, meets_updateScope]
    refine ⟨i, rfl, ?_⟩
    refine ((World.calm_modifyObj i fun _ => ?_).trans (World.calm_modifyScope s fun _ => ?_)).lasting.isInstance made
    · exact ⟨rfl, rfl, rfl⟩
    · exact .of_eq rfl rfl

theorem meets_castPrimitive (p : Primitive) (mark : Nat) (t : PrimType) (mode : Conversion) (w : World) :
    (castPrimitive p mark t mode).run.Meets w (fun r w' => w'.conforms r (.prim t)) fun _ _ => True := by
  unfold castPrimitive
  split
  · next h => simpa [World.conforms] using h
  split
  · exact meets_castFailure
  split
  · exact meets_castFailure
  cases h : p.convert t with
  | error e => exact meets_raise fun _ _ _ => trivial
  | ok q =>
    have type := Primitive.type_of_convert h
    simpa [World.conforms, ofHost] using type

theorem meets_castToPrimitive (v : Value) (t : PrimType) (mode : Conversion) (w : World) :
    (castToPrimitive v t mode).run.Meets w (fun r w' => w'.conforms r (.prim t)) fun _ _ => True := by
  unfold castToPrimitive
  have refused (x : Value) : (do
      let source ← read fun w => Ty.cls (w.classOf x)
      castFailure (.prim t) source mode : Faulty Value).run.Meets w (fun r w' => w'.conforms r (.prim t))
        fun _ _ => True := by
    simp only [Action.meets_bind, Action.run_lift, meets_read]
    exact meets_castFailure
  simp only [Action.meets_bind, Action.run_lift, meets_get]
  split
  · exact meets_castPrimitive _ _ t mode w
  · split
    · exact meets_castFailure
    · exact refused v
  · exact refused _

theorem meets_castReference {v : Value} (hv : v.isPrimitive = false) (t : Ty) (mode : Conversion) (w : World) :
    (castReference v t mode).run.Meets w (fun r w' => w'.conforms r t) fun _ _ => True := by
  unfold castReference
  simp only [Action.meets_bind, Action.run_lift, meets_read]
  cases t with
  | untyped => rfl
  | prim p => exact meets_castToPrimitive v p mode w
  | array c =>
    simp only [Action.meets_bind, Action.run_lift, meets_read]
    split
    · next h => simpa [World.conforms] using .inr (by simpa using h)
    · exact meets_castFailure
  | cls c =>
    simp only [Action.meets_bind, Action.run_lift, meets_read]
    by_cases h : w.isInstance v c
    · rw [if_pos h]
      cases v with
      | null => rfl
      | boxed p m => cases hv
      | _ => exact h
    · rw [if_neg h]
      cases v with
      | closure s =>
        simp only [Action.meets_bind, Action.run_lift, meets_read]
        split
        · refine (meets_proxyOf s c w).imp ?_
          rintro _ w' ⟨i, rfl, hi⟩
          exact hi
        · exact meets_castFailure
      | _ => exact meets_castFailure
  | module m => trivial

theorem meets_cast (v : Value) (t : Ty) (mode : Conversion) (w : World) :
    (cast v t mode).run.Meets w (fun r w' => w'.conforms r t) fun _ _ => True := by
  unfold cast
  split
  · rfl
  · trivial
  · trivial
  · exact meets_castToPrimitive v _ mode w
  · next hu _ hp =>
    cases t with
    | untyped => exact (hu rfl).elim
    | prim p => exact (hp p rfl).elim
    | _ => rfl
  · next p m _ _ _ =>
    simp only [Action.meets_bind, Action.run_lift, meets_read]
    split
    · next hb =>
      cases t with
      | cls c => exact hb
      | _ => cases hb
    · exact meets_castFailure
  · exact meets_castReference (by grind [Value.isPrimitive]) t mode w

end Run

end ScriptCore
