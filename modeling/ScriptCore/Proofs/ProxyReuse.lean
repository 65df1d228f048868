import ScriptCore.Proofs.Beside
import ScriptCore.Proofs.Conformance
import ScriptCore.Proofs.Gives

namespace ScriptCore

namespace Run

variable {α β : Type} {t : Tier} {w w' : World}

def LeavesClasses (x : Action .nothing t α) : Prop :=
  ∀ w, x.run.Meets w (fun _ w' => w'.classes = w.classes ∧ w'.assigned = w.assigned) fun _ _ => True

namespace LeavesClasses

theorem pure (a : α) : LeavesClasses (Pure.pure a : Action .nothing t α) := fun _ => ⟨rfl, rfl⟩

theorem bind {x : Action .nothing t α} {f : α → Action .nothing t β} (hx : LeavesClasses x)
    (hf : ∀ a, LeavesClasses (f a)) : LeavesClasses (x >>= f) := by
  intro w
  simp only [Action.meets_bind]
  refine (hx w).imp fun a w' h => ?_
  exact (hf a w').imp fun _ _ k => ⟨k.1.trans h.1, k.2.trans h.2⟩

theorem read (f : World → α) : LeavesClasses (Run.read f) := fun _ => ⟨rfl, rfl⟩

theorem alloc (o : Obj) : LeavesClasses (Run.alloc o) := fun _ => ⟨rfl, rfl⟩

theorem raise (e : HostError) : LeavesClasses (Run.raise e : Plain α) := fun _ => meets_raise fun _ _ _ => trivial

theorem addMember (members : Table Value) (name : String) (g : Generated) : LeavesClasses (Run.addMember members name g) :=
  .bind (fun _ => ⟨rfl, rfl⟩) fun _ => .pure _

theorem addAnswers (members : Table Value) (answered : List (String × Option Value)) :
    LeavesClasses (Run.addAnswers members answered) := by
  induction answered generalizing members with
  | nil => exact .pure _
  | cons e rest ih =>
    unfold Run.addAnswers
    split
    · exact ih members
    · exact .bind (.addMember _ _ _) fun more => ih more

theorem checkInstance (c : ClassRef) (given : Nat) : LeavesClasses (Run.checkInstance c given) := by
  refine .bind (.read _) fun w => ?_
  split
  · split <;> exact .raise _
  · exact .raise _
  · refine .bind (.read _) fun _ => ?_
    split
    · exact .pure _
    · exact .raise _

theorem emptyPayload (c : ClassRef) : LeavesClasses (Run.emptyPayload c) := by
  refine .bind (.read _) fun chain => ?_
  dsimp only
  repeat' split
  all_goals first
    | exact .pure _
    | exact .bind (.alloc _) fun _ => .pure _

theorem newInstance (c : ClassRef) : LeavesClasses (Run.newInstance c) :=
  .bind (.checkInstance c 0) fun _ => .bind (.emptyPayload c) fun _ => .alloc _

end LeavesClasses

theorem meets_make_known {spec : ClassSpec} (proxy : spec.isProxy) (new : knownProxyClass? w spec.bases = none) :
    spec.make.run.Meets w (fun r w' => ∀ c, r = .ok c → knownProxyClass? w' spec.bases = some c) fun _ _ => True := by
  unfold ClassSpec.make
  simp only [Action.meets_bind, meets_read]
  cases hb : spec.build w with
  | error m => exact fun _ h => by cases h
  | ok c =>
    rintro _ ⟨⟩
    have absent : w.classes.findIdx? (fun c => c.isProxy && c.bases == spec.bases) = none := by
      simpa [knownProxyClass?] using new
    have fits : (c.isProxy && c.bases == spec.bases) = true := by
      rw [(made_to_spec hb).1, (made_to_spec hb).2, proxy, beq_self_eq_true]
      rfl
    simp [knownProxyClass?, Array.findIdx?_push, absent, fits]

theorem meets_proxyClass_known (classes : List ClassRef) (w : World) :
    (proxyClass classes).run.Meets w (fun k w' => knownProxyClass? w' classes = some k) fun _ _ => True := by
  unfold proxyClass
  simp only [Action.meets_bind, meets_read]
  cases hk : knownProxyClass? w classes with
  | some k => exact hk
  | none =>
    simp only [Action.meets_bind, meets_read]
    have same {w' : World} (h : w'.classes = w.classes) : knownProxyClass? w' classes = none := by
      rw [← hk, knownProxyClass?, h]
      rfl
    -- The members of the new class are made before it, one after the other.
    refine (LeavesClasses.addAnswers _ _ w).imp fun members w₁ h₁ => ?_
    refine (LeavesClasses.addMember members _ _ w₁).imp fun members w₂ h₂ => ?_
    refine (LeavesClasses.addMember members _ _ w₂).imp fun members w₃ h₃ => ?_
    refine (LeavesClasses.addMember members _ _ w₃).imp fun members w₄ h₄ => ?_
    refine (LeavesClasses.addMember members _ _ w₄).imp fun members w₅ h₅ => ?_
    refine (meets_make_known rfl (same (h₅.1.trans (h₄.1.trans (h₃.1.trans (h₂.1.trans h₁.1)))))).mono (fun r w₆ made => ?_)
      fun _ _ h => h
    cases r with
    | error m => exact meets_raise fun _ _ _ => trivial
    | ok k => exact made k rfl

theorem proxyOf_of_known {s : ScopeId} {classes : List ClassRef} {k : ClassRef} {i : ObjectId}
    (asked : classes.isEmpty = false) (known : knownProxyClass? w classes = some k)
    (held : ((w.scope s).proxies.find? fun i => (w.obj i).cls = k) = some i) :
    (proxyOf s classes).run w = .done (.object i) w := by
  have cls : (proxyClass classes).run w = .done k w := by
    unfold proxyClass
    refine (Action.run_bind_of_done (a := knownProxyClass? w classes) rfl).trans ?_
    rw [known]
    rfl
  unfold proxyOf
  rw [asked, if_neg Bool.false_ne_true]
  refine (Action.run_bind_of_done cls).trans ?_
  refine (Action.run_bind_of_done (a := (w.scope s).proxies.find? fun i => (w.obj i).cls = k) rfl).trans ?_
  rw [held]
  rfl

theorem proxyOf_again {s : ScopeId} {classes : List ClassRef} {r : Value} (inside : s < w.scopes.size)
    (h : (proxyOf s classes).run w = .done r w') : (proxyOf s classes).run w' = .done r w' := by
  have found : (proxyOf s classes).run.Meets w
      (fun r w' => ∃ i k, r = .object i ∧ classes.isEmpty = false ∧ knownProxyClass? w' classes = some k ∧
        ((w'.scope s).proxies.find? fun i => (w'.obj i).cls = k) = some i) fun _ _ => True := by
    unfold proxyOf
    split
    · exact meets_raise fun _ _ _ => trivial
    · next asked =>
      have asked := Bool.eq_false_iff.mpr asked
      simp only [Action.meets_bind, meets_read]
      refine ((meets_proxyClass_known classes w).and (OnlyAdds.proxyClass classes w)).impDone ?_
      rintro k w₁ ⟨known, beside⟩
      split
      · next i held => exact ⟨i, k, rfl, asked, known, held⟩
      · simp only [Action.meets_bind]
        refine (((meets_newInstance k w₁).and (LeavesClasses.newInstance k w₁)).and
          (OnlyAdds.newInstance k w₁)).impDone ?_
        rintro _ w₂ ⟨⟨⟨i, rfl, hc⟩, same⟩, beside', -⟩
        simp only [Action.meets_bind, meets_updateObj, meets_updateScope]
        refine ⟨i, k, rfl, asked, ?_, ?_⟩
        · rw [← known, knownProxyClass?, knownProxyClass?, ← same.1]
          rfl
        · have size : s < w₂.scopes.size := by rw [beside'.size, beside.size]; exact inside
          have cls : ((w₂.modifyObj i fun o => { o with target := some s }).obj i).cls = k := by
            rw [World.obj_modifyObj]
            split <;> exact hc
          rw [World.scope_modifyScope, if_pos ⟨rfl, size⟩]
          exact List.find?_cons_of_pos (decide_eq_true cls)
  obtain ⟨i, k, rfl, asked, known, held⟩ := found.of_done h
  exact proxyOf_of_known asked known held

end Run

end ScriptCore
