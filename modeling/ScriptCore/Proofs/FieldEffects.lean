import ScriptCore.Proofs.Beside
import ScriptCore.Scope.Binding

namespace ScriptCore

inductive World.FieldSet (target : Value) (field : String) (x : Value) (w w' : World) : Prop
  | beside (h : w.Beside w')
  | configured {v : World} (h : w.Beside v) (run : (Run.reconfigure field x).run v = .done () w')
  | described (u : ScopeId) {f : Scope → Scope} (only : ∀ y, ∃ n c m, f y =
      { y with name := n, isClass := c, isMethod := m })
      (h : w' = w.modifyScope u f)
  | packaged (u : ScopeId) (p : Option String) (named : field = "package") (scope : target = .scope u)
      (h : w' = w.modifyScope u fun y => { y with package := p })
  | assigned (t : ScopeId) (given : Value) (run : (Run.assignVariable t field given false).run w = .done () w')

namespace Run

variable {may : May} {tier : Tier} {α β : Type}

namespace OnlyAdds

theorem firstSome {xs : List α} {f : α → Action .nothing tier (Option β)}
    (hf : ∀ x, OnlyAdds (f x)) : OnlyAdds (ScriptCore.firstSome xs f) := by
  induction xs with
  | nil => exact .pure none
  | cons x rest ih =>
    refine .bind (hf x) fun r => ?_
    cases r with
    | some y => exact .pure _
    | none => exact ih

theorem resolveMember (b : Bridge) (target : Value) (name : String) : OnlyAdds (Run.resolveMember b target name) := by
  unfold Run.resolveMember memberBy heldAttribute
  split
  · exact .pure _
  split
  · exact .pure _
  refine .bind (.read _) fun a => ?_
  split
  · exact .pure _
  · exact .raise _
  · exact .bind (.read _) fun _ => .pure _
  all_goals exact .pure _

theorem localBinding (fuel : Nat) (s : ScopeId) (name : String) : OnlyAdds (Run.localBinding fuel s name) := by
  induction fuel generalizing s with
  | zero => exact fun _ => trivial
  | succ fuel ih =>
    refine .bind (.read _) fun w => ?_
    have imported : OnlyAdds (ScriptCore.firstSome (w.importTargets s)
        (importedBinding (Run.localBinding fuel · name) (w.bridge s) name)) := by
      refine .firstSome fun target => ?_
      unfold importedBinding
      split
      · exact ih _
      · refine .bind (.resolveMember _ _ _) fun r => ?_
        cases r <;> exact .pure _
    dsimp only
    split
    · refine .bind imported fun r => ?_
      cases r <;> exact .pure _
    · split
      · exact .pure _
      · exact imported

theorem findBinding (s : ScopeId) (name : String) (outwards : Bool) : OnlyAdds (Run.findBinding s name outwards) :=
  .bind (.read _) fun _ => .firstSome fun _ => .bind (.read _) fun _ => .localBinding _ _ name

theorem hostException {w : World} {e : Failure} {z : Plain Value} (hz : hostException? w e = some z) : OnlyAdds z := by
  unfold hostException? at hz
  split at hz
  · cases hz
  · cases hz
    unfold exceptionOf newFailure
    split
    · exact .pure _
    · exact .bind (.newTuple _) fun _ => .alloc rfl

theorem noSetter (v : Value) (field : String) : OnlyAdds (Run.noSetter v field : Plain α) :=
  .bind (.read _) fun _ => .raise _

theorem refuseAttribute (v : Value) (field : String) : OnlyAdds (Run.refuseAttribute v field : Plain α) := by
  refine .bind (.read _) fun _ => .bind (.read _) fun _ => .bind (.read _) fun _ => ?_
  split <;> exact .raise _

end OnlyAdds

def SetsField (target : Value) (field : String) (x : Value) (act : Action may tier α) : Prop :=
  ∀ w, act.run.Meets w (fun _ w' => w.FieldSet target field x w') fun _ w' => w.Adds w'

variable {target : Value} {field : String} {x : Value}

theorem adds_assignVariable (s : ScopeId) (name : String) (value : Value) (declaring : Bool) (w : World) :
    (assignVariable s name value declaring).run.Meets w (fun _ _ => True) fun _ w' => w.Adds w' := by
  unfold assignVariable
  simp only [Action.meets_bind, Action.run_lift, meets_read]
  split
  · trivial
  · split
    · exact .refl w
    · simp only [Action.meets_bind, Action.run_lift]
      exact (OnlyAdds.cast _ _ _ w).imp fun _ _ _ => trivial

theorem setArguments_beside (i : ObjectId) (x : Value) (w : World) :
    (setArguments i x).run.Meets w (fun _ w' => w.Beside w') fun _ w' => w.Adds w' := by
  unfold setArguments
  simp only [Action.meets_bind, Action.run_lift, meets_get]
  split
  · exact ((OnlyAdds.bind (.read _) fun _ => .raise _ : OnlyAdds (refuse "'" x "' object is not iterable")) w).mono
      (fun _ _ h => h.toBeside) fun _ _ h => h
  · simp only [Action.meets_bind, Action.run_lift]
    refine (OnlyAdds.newTuple _ w).imp fun held v added => ?_
    split <;> exact added.toBeside.trans (.of_eq rfl rfl rfl rfl)

theorem setInitial_beside (i : ObjectId) (field : String) (x : Value) (w : World) :
    (setInitial i field x).run.Meets w (fun set w' => w.Beside w' ∧ (set = true ∨ w' = w)) fun _ w' => w.Adds w' := by
  have arguments : (do setArguments i x; pure true : Action .retype .proper Bool).run.Meets w
      (fun set w' => w.Beside w' ∧ (set = true ∨ w' = w)) fun _ w' => w.Adds w' := by
    simp only [Action.meets_bind]
    exact (setArguments_beside i x w).imp fun _ _ h => ⟨h, .inl rfl⟩
  have same (p : Payload) : w.Beside (w.modifyObj i fun o => { o with payload := p }) := .of_eq rfl rfl rfl rfl
  unfold setInitial
  simp only [Action.meets_bind, Action.run_lift, meets_get]
  split
  · exact ⟨same _, .inl rfl⟩
  · exact ⟨same _, .inl rfl⟩
  · exact ⟨same _, .inl rfl⟩
  · exact ⟨same _, .inl rfl⟩
  · exact arguments
  · exact arguments
  · exact ⟨.refl w, .inr rfl⟩

namespace SetsField

theorem of_adds {x : Value} {act : Action .nothing tier α} (h : OnlyAdds act) : SetsField target field x act := fun w =>
  (h w).imp fun _ _ h => .beside h.toBeside

theorem lift {may' : May} {tier' : Tier} [May.Within may may'] [Tier.Within tier tier'] {act : Action may tier α}
    (h : SetsField target field x act) : SetsField target field x (liftM act : Action may' tier' α) := h

theorem afterRead [May.Within .nothing may] [Tier.Within .proper tier] {f : World → α}
    {rest : α → Action may tier β} (h : ∀ a, SetsField target field x (rest a)) :
    SetsField target field x ((liftM (Run.read f) : Action may tier α) >>= rest) := fun w => h (f w) w

theorem converting {other : Tier} {act : Action may other α} {handler : World → Failure → Option (Action may tier α)}
    {rest : ∀ w e, other.Allows e → handler w e = none → tier.Allows e} (h : SetsField target field x act)
    (handled : ∀ w e y, handler w e = some y → y.run.Meets w (fun _ w' => w.Adds w') fun _ w' => w.Adds w') :
    SetsField target field x (Action.converting act handler rest) := by
  intro w
  refine Action.meets_converting.mpr ((h w).mono (fun _ _ h => h) fun e v added => ?_)
  cases hy : handler v e with
  | none => exact added
  | some y =>
    exact (handled v e y hy).mono (fun _ _ h => .beside (added.trans h).toBeside) fun _ _ h => added.trans h

theorem catching {act : Action may tier α} {handler : World → Failure → Option (Action may tier α)}
    (h : SetsField target field x act)
    (handled : ∀ w e y, handler w e = some y → y.run.Meets w (fun _ w' => w.Adds w') fun _ w' => w.Adds w') :
    SetsField target field x (Action.catching act handler) := converting h handled

theorem setOwnAttr (i : ObjectId) (field : String) (x : Value) :
    SetsField target field x (Run.setOwnAttr i field x) := by
  refine .afterRead fun o => .afterRead fun found => ?_
  split
  · exact .lift (.of_adds (.raise _))
  · exact .lift (.of_adds (.noSetter _ _))
  · intro w
    simp only [Action.meets_bind]
    refine (setInitial_beside i field x w).imp ?_
    rintro set w' ⟨beside, kept⟩
    split
    · exact .beside beside
    · next unset =>
      obtain rfl : w' = w := kept.resolve_left unset
      split
      · simp only [Action.meets_bind, Action.run_lift, meets_updateObj]
        have changed : w'.Beside (w'.modifyObj i fun o => { o with attrs := o.attrs.put field x }) := .of_eq rfl rfl rfl rfl
        split
        · exact .configured changed rfl
        · exact .beside changed
      · exact of_adds (.refuseAttribute _ _) w'

theorem setPartAttr {owner : AttributeOwner} (field : String) (x : Value)
    (h : ∀ u, owner = .scope u → target = .scope u) : SetsField target field x (Run.setPartAttr owner field x) := by
  unfold Run.setPartAttr
  split
  · exact fun w => .described _ (fun y => ⟨_, _, _, rfl⟩) rfl
  · exact fun w => .packaged _ _ rfl (h _ rfl) rfl
  · exact fun w => .packaged _ _ rfl (h _ rfl) rfl
  · exact fun w => .described _ (fun y => ⟨_, _, _, rfl⟩) rfl
  · exact fun w => .described _ (fun y => ⟨_, _, _, rfl⟩) rfl
  · exact fun w => .beside (.of_eq rfl rfl rfl rfl)

theorem setScriptedAttr (i : ObjectId) (field : String) (x : Value) :
    SetsField target field x (Run.setScriptedAttr i field x) := by
  refine .afterRead fun scripted => ?_
  split
  · exact .setOwnAttr _ _ _
  · next t =>
    refine .afterRead fun given => .converting ?_ fun w e y hy => ?_
    · refine fun w => ((Comp.meets_self _ w).and (adds_assignVariable t field given false w)).mono
        (fun _ _ h => .assigned t given h.1) fun _ _ h => h.2
    · split at hy
      · cases hy
        exact OnlyAdds.raise _ w
      · cases hy

theorem setAttr (target : Value) (field : String) (x : Value) : SetsField target field x (Run.setAttr target field x) := by
  unfold Run.setAttr
  split
  · refine .afterRead fun computed => ?_
    split
    · exact .lift (.of_adds (.noSetter _ _))
    · exact .lift (.of_adds (.raise _))
    · exact .lift (.setPartAttr _ _ fun _ => nofun)
    · exact fun w => .beside (.of_eq rfl rfl rfl rfl)
  · exact .lift (.setPartAttr _ _ fun _ => nofun)
  · refine .afterRead fun keeper => ?_
    split
    · exact .setScriptedAttr _ _ _
    · exact .setOwnAttr _ _ _
  · exact .lift (.of_adds (.raise _))
  · exact .lift (.of_adds (.raise _))
  · exact .lift (.of_adds (.raise _))
  · refine .afterRead fun computed => ?_
    split
    · exact .lift (.of_adds (.noSetter _ _))
    · next owner _ hv =>
      refine .lift (.setPartAttr _ _ fun u hu => ?_)
      subst hu
      unfold World.owner? at hv
      split at hv <;> cases hv
      rfl
    · exact .lift (.of_adds (.refuseAttribute _ _))

theorem setField (target : Value) (field : String) (x : Value) :
    SetsField target field x.unwrap (Run.setField target field x) := by
  refine .catching (.lift (.setAttr _ _ _)) fun w e y hy => ?_
  cases hz : hostException? w e with
  | none =>
    rw [hz] at hy
    cases hy
  | some z =>
    have made := OnlyAdds.hostException hz w
    rw [hz] at hy
    dsimp only at hy
    split at hy
    · cases hy
      simp only [Action.meets_bind, Action.run_lift, meets_read]
      exact made
    · cases hy
      simp only [Action.meets_bind, Action.run_lift]
      exact made

theorem writeField (target : Value) (field : String) (x : Value) :
    SetsField target field x.unwrap (Run.writeField target field x) := by
  unfold Run.writeField
  split
  · exact .lift (.of_adds (.fail _))
  · exact .lift (.of_adds (.fail _))
  · refine .converting (.lift (.setField _ _ _)) fun w e y hy => ?_
    split at hy
    · cases hy
      exact .refl w
    · cases hy
      exact .refl w
    · cases hy

end SetsField

end Run

end ScriptCore
