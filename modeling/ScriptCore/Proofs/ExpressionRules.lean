import ScriptCore.Proofs.ClassRules
import ScriptCore.Proofs.Owners

namespace ScriptCore.Evaluator.Sound

variable {α : Type} {ev : Evaluator} {c : Terms} {t : Tier} {suffix : Node} {suffixes : List Node}

theorem atSuffix {x : Eval α} {P : α → Prop} (hx : x.Sound c .any P) :
    (Evaluator.atSuffix suffix x).Sound c .proper P := by
  refine .catching hx (fun w e y hy => ?_) (fun w e he hn => ?_) fun _ _ => rfl
  · split at hy
    · cases hy; exact .locate
    · cases hy; exact .stop
    · cases hy; exact .stopWith
    · cases hy
  · cases e <;> first | exact Tier.allows_of_not_isLow rfl | cases hn

section

variable (h : ev.Sound c)
include h

theorem condition {n : Node} (hn : c.Allows .expression n) : (ev.condition n).Sound c .proper fun _ => True :=
  .bind (h.eval hn) fun _ _ => .located (h.lift _)

theorem indexValue (suffix : Node) {index : Node} (hi : c.Allows .expression index) :
    (ev.indexValue suffix index).Sound c .proper fun _ => True := by
  refine .bind (h.eval hi) fun v _ => .bind (.located (h.lift _)) fun i _ => ?_
  split <;> exact .pure trivial

theorem propertyKey (suffix : Node) (obj : Value) {key : Node} (hk : c.Allows .expression key) :
    (ev.propertyKey suffix obj key).Sound c .proper fun _ => True := by
  unfold Evaluator.propertyKey
  split
  · exact .stop
  · exact .stop
  · exact .stop
  · refine .bind (h.eval hk) fun k _ => .bind (h.lift _) fun w _ => ?_
    split
    · exact .pure trivial
    · exact .stop

theorem callValueOf (suffix : Node) (obj : Value) (name : String) {args : List Node}
    (ha : ∀ a ∈ args, c.Allows .expression a) : (ev.callValueOf suffix obj name args).Sound c .any fun _ => True :=
  .bind (.weaken (h.evalArgs ha)) fun values _ => .bind .top fun top _ =>
    .weaken (h.invokeOn top obj name values suffix)

theorem suffixValue (hs : c.Allows .suffix suffix) (obj : Value) :
    (ev.suffixValue suffix obj).Sound c .proper fun _ => True := by
  cases suffix with
  | fieldSuffix => exact atSuffix (.bind .top fun top _ => h.lift _)
  | callSuffix => exact atSuffix (h.callValueOf _ obj _ fun a ha => hs.part (by simp [Node.parts, ha]))
  | indexSuffix =>
    exact atSuffix (.bind (h.lift _) fun _ _ =>
      .bind (.weaken (h.indexValue _ (hs.part (by simp [Node.parts])))) fun n _ => h.lift _)
  | propertySuffix =>
    refine atSuffix (.bind (.weaken (h.propertyKey _ obj (hs.part (by simp [Node.parts])))) fun k _ =>
      .catching_lift (h.lift (t := .any) _) (fun w e y hy => ?_) fun w e he hn => he)
    split at hy
    · cases hy; exact .bind (h.lift _) fun _ _ => .stop
    · cases hy
  | classSuffix => exact .stop
  | _ => exact .internal (hs.incomplete rfl)

theorem suffixPlace (hs : c.Allows .suffix suffix) (obj : Value) :
    (ev.suffixPlace suffix obj).Sound c .proper fun _ => True := by
  cases suffix with
  | fieldSuffix => exact atSuffix (h.lift _)
  | callSuffix =>
    exact atSuffix (.bind (h.callValueOf _ obj _ fun a ha => hs.part (by simp [Node.parts, ha])) fun _ _ => .pure trivial)
  | indexSuffix =>
    exact atSuffix (.bind (h.lift _) fun _ _ =>
      .bind (.weaken (h.indexValue _ (hs.part (by simp [Node.parts])))) fun n _ => .pure trivial)
  | propertySuffix =>
    exact atSuffix (.bind (.weaken (h.propertyKey _ obj (hs.part (by simp [Node.parts])))) fun k _ => .pure trivial)
  | classSuffix => exact .stop
  | _ => exact .internal (hs.incomplete rfl)

theorem suffixesValue (hs : ∀ s ∈ suffixes, c.Allows .suffix s) (obj : Value) :
    (ev.suffixesValue obj suffixes).Sound c .proper fun _ => True := by
  induction suffixes generalizing obj with
  | nil => exact .pure trivial
  | cons s rest ih =>
    exact .bind (h.suffixValue (hs s List.mem_cons_self) obj) fun v _ => ih (fun r hr => hs r (List.mem_cons_of_mem _ hr)) v

theorem suffixesPlace (hs : ∀ s ∈ suffixes, c.Allows .suffix s) (obj : Value) :
    (ev.suffixesPlace obj suffixes).Sound c .proper fun _ => True := by
  induction suffixes generalizing obj with
  | nil => exact .pure trivial
  | cons s rest ih =>
    have hfirst := hs s List.mem_cons_self
    cases rest with
    | nil => exact h.suffixPlace hfirst obj
    | cons s' rest =>
      exact .bind (h.suffixValue hfirst obj) fun v _ => ih (fun r hr => hs r (List.mem_cons_of_mem _ hr)) v

theorem typeBeforeClass (suffix base : Node) :
    (Evaluator.typeBeforeClass suffix base).Sound c .proper fun _ => True := by
  unfold Evaluator.typeBeforeClass
  split
  · exact h.resolveType _
  · exact h.resolveType _
  · exact .stop

theorem primaryValue {base : Node} (hb : c.Allows .expression base)
    (hs : ∀ s ∈ suffixes, c.Allows .suffix s) : (ev.primaryValue base suffixes).Sound c .proper fun _ => True := by
  unfold Evaluator.primaryValue
  split
  · exact h.eval hb
  · refine .bind (h.typeBeforeClass _ base) fun ty _ => ?_
    split
    · exact h.lift _
    · exact .bind (h.lift _) fun v _ => h.suffixesValue (fun r hr => hs r (List.mem_cons_of_mem _ hr)) v
  · exact .bind (h.eval hb) fun v _ => h.suffixesValue hs v

theorem primaryPlace {base : Node} (hb : c.Allows .expression base)
    (hs : ∀ s ∈ suffixes, c.Allows .suffix s) : (ev.primaryPlace base suffixes).Sound c .proper fun _ => True := by
  unfold Evaluator.primaryPlace
  split
  · refine .bind (h.typeBeforeClass _ base) fun ty _ => ?_
    split
    · exact .stop
    · exact .bind (h.lift _) fun v _ => h.suffixesPlace (fun r hr => hs r (List.mem_cons_of_mem _ hr)) v
  · exact .bind (h.eval hb) fun v _ => h.suffixesPlace hs v

theorem resolveName (r : ScopeId) {path : String} (hp : c.names path) :
    (ev.resolveName r path).Sound c .fault fun _ => True :=
  .view hp (fun _ => h.lift _) fun unasked view view' => by
    rw [Evaluator.nameIn, Evaluator.nameIn, Run.resolveName_view (Run.unasking_segments unasked) view view']

theorem resolvePlace (r : ScopeId) {path : String} (hp : c.names path) :
    (ev.resolvePlace r path).Sound c .fault fun _ => True :=
  .view hp (fun view => h.lift_passing _ fun w => Run.resolvePlace_passes view w) fun unasked view view' => by
    rw [Evaluator.placeIn, Evaluator.placeIn, Run.resolvePlace_view (Run.unasking_segments unasked) view view']

variable (n : Node)

theorem placeOf (hn : c.Allows .expression n) : (ev.placeOf n).Sound c .proper fun _ => True := by
  fun_induction Evaluator.placeOf ev n with
  | case1 l path => exact .located (.bind .top fun top _ => .bind (h.lift _) fun _ _ => h.resolvePlace top hn.names)
  | case2 o base ih => exact ih (hn.part (by simp [Node.parts]))
  | case3 o base suffixes _ =>
    exact h.primaryPlace (hn.part (by simp [Node.parts])) fun s hs => hn.part (by simp [Node.parts, hs])
  | case4 n => exact .stop

theorem assignment {target value : Node} (op : AssignOp) (ht : c.Allows .expression target)
    (hv : c.Allows .expression value) : (ev.assignment n target op value).Sound c .proper fun _ => True := by
  unfold Evaluator.assignment
  refine .bind (h.placeOf target ht) fun place _ => ?_
  extract_lets assigned
  have after (old : Option (Value × BinaryOp)) : (assigned old).Sound c .proper fun _ => True := by
    dsimp only [assigned]
    split
    · exact .stop
    · refine .bind (h.eval hv) fun v _ => ?_
      split
      · exact .stop
      · refine .bind (h.lift _) fun strict _ => .located ?_
        split
        · exact .pure_bind (h.lift _)
        · exact .bind (h.lift _) fun result _ => h.lift _
  split
  · exact .pure_bind (after none)
  · exact .bind (.located (P := fun _ => True) (.bind (h.lift _) fun _ _ => .pure trivial)) fun old _ => after old

theorem binary {left right : Node} (op : BinaryOp) (hl : c.Allows .expression left)
    (hr : c.Allows .expression right) : (ev.binary n left op right).Sound c .proper fun _ => True := by
  unfold Evaluator.binary
  split
  · refine .bind (h.eval hl) fun v _ => ?_
    split
    · exact .bind (h.resolveType _) fun ty _ => .bind (h.lift _) fun _ _ => .pure trivial
    · exact .stop
  · refine .bind (h.condition hl) fun b _ => ?_
    split
    · exact .bind (h.condition hr) fun _ _ => .pure trivial
    · exact .pure trivial
  · refine .bind (h.condition hl) fun b _ => ?_
    split
    · exact .pure trivial
    · exact .bind (h.condition hr) fun _ _ => .pure trivial
  · exact .bind (h.eval hl) fun l _ => .bind (h.eval hr) fun r _ => .located (h.lift _)

theorem unary (op : UnaryOp) {operand : Node} (ho : c.Allows .expression operand)
    (trailing : Bool) : (ev.unary n op operand trailing).Sound c .proper fun _ => True := by
  unfold Evaluator.unary
  split
  · exact .located (.bind (.weaken (h.placeOf operand ho)) fun place _ => .bind (h.lift _) fun before _ =>
      .bind (h.lift _) fun after _ => .bind (h.lift _) fun strict _ => .bind (h.lift _) fun _ _ => .pure trivial)
  · exact .located (.bind (.weaken (h.eval ho)) fun v _ => h.lift _)

theorem castExpr (n type : Node) {expr : Node} (he : c.Allows .expression expr) :
    (ev.castExpr n type expr).Sound c .proper fun _ => True :=
  .bind (h.resolveType type) fun _ _ => .bind (h.eval he) fun _ _ => .located (h.lift _)

theorem constructHost (target : Value) (args : List Value) :
    (ev.constructHost n target args).Sound c .proper fun _ => True := by
  refine .catching (s := .bridge) (.bind (h.lift _) fun v _ => h.lift _) (fun w e y hy => ?_) (fun w e he hn => ?_)
    fun _ _ => rfl
  · split at hy
    · cases hy; exact .stop
    · cases hy; exact .stopWith
    · cases hy
  · cases e <;> first | exact Tier.allows_of_not_isLow rfl | exact he.elim | cases hn

theorem extendModule (m : Module) : (Evaluator.extendModule m).Sound c .proper fun _ => True :=
  .bind (h.lift _) fun _ _ => .bind (h.lift _) fun _ _ => .bind .top fun _ _ => .fail trivial

theorem allocation (n type : Node) {args : List Node} {body : Node}
    (ha : ∀ a ∈ args, c.Allows .expression a) (hb : c.Allows .branch body) :
    (ev.allocation n type args body).Sound c .proper fun _ => True := by
  unfold Evaluator.allocation
  refine .bind (h.resolveType type) fun ty _ => .bind (h.evalArgs ha) fun values _ => ?_
  split
  · next k =>
    have after : ∀ k : ClassRef, (do
        let w ← Run.get
        if (w.inheritedScript? k).isSome then ev.constructScripted k values n
        else if w.isInterface k then Eval.stop n (.interfaceInstance (w.qualname k))
        else ev.constructHost n (.cls k) values : Eval Value).Sound c .proper fun _ => True := by
      intro k
      refine .bind (h.lift _) fun w _ => ?_
      split
      · exact h.constructScripted k values n
      · split
        · exact .stop
        · exact h.constructHost n _ values
    dsimp only
    split
    · exact .pure_bind (after k)
    · exact .bind (h.generateAnonymous k hb n) fun k _ => after k
  · split
    · exact h.constructHost n _ values
    · exact h.extendModule _
  · exact .bind (h.lift _) fun _ _ => .stop

end

mutual

theorem initElement (h : ev.Sound c) (component : Ty) (n : Node) (hn : c.Allows .expression n) :
    (Evaluator.initElement ev component n).Sound c .proper fun _ => True := by
  cases n with
  | arrayInit l es =>
    have hes : ∀ e ∈ es, c.Allows .expression e := fun e he => hn.part (by simp [Node.parts, he])
    simp only [Evaluator.initElement]
    split
    · exact .bind (h.initElements _ es hes) fun _ _ => h.lift _
    · split
      · exact .bind (h.initElements _ es hes) fun _ _ => h.lift _
      · exact .stop
  | _ =>
    simp only [Evaluator.initElement]
    refine .bind (h.eval hn) fun v _ => ?_
    split
    · exact .stop
    · exact .bind (h.lift _) fun _ _ => .located (h.lift _)

theorem initElements (h : ev.Sound c) (component : Ty) (ns : List Node) (hn : ∀ n ∈ ns, c.Allows .expression n) :
    (Evaluator.initElements ev component ns).Sound c .proper fun _ => True := by
  cases ns with
  | nil => exact .pure trivial
  | cons n rest =>
    simp only [Evaluator.initElements]
    refine .bind (h.initElement component n (hn n List.mem_cons_self)) fun v _ => ?_
    exact .bind (h.initElements component rest fun m hm => hn m (List.mem_cons_of_mem _ hm)) fun vs _ => .pure trivial

end

theorem initArray (h : ev.Sound c) (component : Ty) {init : Node} {r : Role}
    (hi : c.Allows r init) : (ev.initArray component init).Sound c .proper fun _ => True := by
  unfold Evaluator.initArray
  split
  · exact .bind (h.initElements component _ fun e he => hi.part (by simp [Node.parts, he])) fun _ _ => h.lift _
  · exact h.lift _

theorem evalLengths (h : ev.Sound c) (n : Node) (acc : List (Option Int)) (dims : List Node)
    (hd : ∀ d ∈ dims, c.Allows .optional d) : (ev.evalLengths n acc dims).Sound c .proper fun _ => True := by
  induction dims generalizing acc with
  | nil => unfold Evaluator.evalLengths; exact .pure trivial
  | cons d rest ih =>
    have hrest := fun m hm => hd m (List.mem_cons_of_mem _ hm)
    unfold Evaluator.evalLengths
    split
    · next he => cases he
    · next he => cases he; exact ih _ hrest
    · next given he =>
      cases he
      split
      · exact .stop
      · have present : d.isAbsent = false := Bool.eq_false_iff.mpr fun absent =>
          by cases d <;> first | exact given rfl | cases absent
        exact .bind (h.eval ((hd d List.mem_cons_self).given present)) fun v _ =>
          .bind (.located (h.lift _)) fun i _ => ih _ hrest

theorem arrayAllocation (h : ev.Sound c) (n type : Node) {dims : List Node} {init : Node}
    (hd : ∀ d ∈ dims, c.Allows .optional d) (hi : c.Allows .optional init) :
    (ev.arrayAllocation n type dims init).Sound c .proper fun _ => True := by
  unfold Evaluator.arrayAllocation
  refine .bind (h.resolveType type) fun resolved _ => ?_
  dsimp only
  split
  · exact .stop
  · split
    · exact h.initArray _ hi
    · refine .bind (h.evalLengths n [] dims hd) fun lengths _ => ?_
      split
      · exact .stop
      · refine .catching_lift (h.lift (t := .proper) _) (fun w e y hy => ?_) fun w e he hn => he
        split at hy
        · split at hy
          · cases hy; exact .stopWith
          · cases hy
        · cases hy

end ScriptCore.Evaluator.Sound
