import ScriptCore.Host.Boxing
import ScriptCore.Proofs.ConversionLaws
import ScriptCore.Proofs.PrimitiveFailures

namespace ScriptCore

def Narrow (s : String) : Prop := ∀ c ∈ s.toList, c.toNat < 2 ^ 16

theorem PrimType.ne_of_widening {a b : PrimType} (wide : a.widening? b ≠ none) :
    a ≠ b ∧ ¬(a = .boolean ∨ b = .boolean) := by
  revert wide
  cases a <;> cases b <;> decide

namespace Primitive

/-- The value lies in the range of its type. -/
def Fits : Primitive → Prop
  | byte n => -2 ^ 7 ≤ n ∧ n < 2 ^ 7
  | short n => -2 ^ 15 ≤ n ∧ n < 2 ^ 15
  | char c => c < 2 ^ 16
  | int n => -2 ^ 31 ≤ n ∧ n < 2 ^ 31
  | long n => -2 ^ 63 ≤ n ∧ n < 2 ^ 63
  | _ => True

variable {p q l r : Primitive} {t : PrimType} {ε : Type}

def Yields (x : Except ε Primitive) : Prop := ∀ p, x = .ok p → p.Fits

namespace Yields

theorem ok (h : p.Fits) : Yields (.ok p : Except ε Primitive) := by
  intro q hq
  cases hq
  exact h

theorem error (e : ε) : Yields (.error e) := by
  intro p h
  cases h

theorem hosted {x : Except HostError Primitive} (h : Yields x) : Yields (Primitive.hosted x) := by
  cases x with
  | ok p => exact .ok (h p rfl)
  | error e => exact .error _

end Yields

theorem bounds_wrap (bits : Nat) (n : Int) : -2 ^ bits ≤ Word.wrap (bits + 1) n ∧ Word.wrap (bits + 1) n < 2 ^ bits :=
  wrap_eq_self_iff.mp Int.bmod_bmod

theorem fits_unsigned (n : Int) : (char (Word.unsigned 16 n)).Fits := by
  show Word.unsigned 16 n < 2 ^ 16
  unfold Word.unsigned
  omega

theorem yields_ofInt (t : PrimType) (n : Int) : Yields (ofInt t n) := by
  cases t with
  | boolean => exact .ok trivial
  | byte | short | int | long => exact .ok (bounds_wrap _ n)
  | char => exact .ok (fits_unsigned n)
  | float | double =>
    simp only [ofInt]
    split
    · exact .error _
    · exact .ok trivial
  | void => exact .error _

theorem yields_ofFloat (t : PrimType) (x : Float) : Yields (ofFloat t x) := by
  cases t with
  | byte | short | int | long => exact .ok (bounds_wrap _ _)
  | char =>
    unfold ofFloat
    cases integerPart x with
    | error e => exact .error e
    | ok n => exact .ok (fits_unsigned n)
  | boolean | float | double => exact .ok trivial
  | void => exact .error _

theorem yields_ofNumber (t : PrimType) : (n : Number) → Yields (ofNumber t n)
  | .int n => yields_ofInt t n
  | .float x => yields_ofFloat t x

theorem yields_ofCode {code : Nat} (narrow : code < 2 ^ 16) (t : PrimType) : Yields (ofCode t code) := by
  unfold ofCode
  split
  · exact .ok trivial
  · exact .ok narrow
  · exact yields_ofInt _ _

theorem yields_ofText {s : String} (narrow : Narrow s) (t : PrimType) : Yields (ofText t s) := by
  unfold ofText
  split
  · exact .error _
  · next c _ only => exact yields_ofCode (narrow c (by simp [only])) _
  · exact .ok trivial
  · exact .error _
  · exact .error _

theorem yields_convert (hp : p.Fits) (t : PrimType) : Yields (p.convert t) := by
  cases p with
  | char c => exact yields_ofCode hp t
  | float x | double x => exact yields_ofFloat t x
  | _ => exact yields_ofInt t _

theorem fits_promote (h : p.promote q = .ok (l, r, t)) : l.Fits ∧ r.Fits := by
  simp only [promote, bind, Except.bind] at h
  repeat' split at h
  all_goals first | cases h; done | skip
  next hl _ _ _ _ _ hr =>
    cases h
    exact ⟨yields_ofNumber _ _ _ hl, yields_ofNumber _ _ _ hr⟩

theorem fits_ofWord (t : PrimType) (n : Int) : (ofWord t n).Fits := by
  unfold ofWord
  split <;> exact bounds_wrap _ n

theorem fits_ofReal (t : PrimType) (x : Float) : (ofReal t x).Fits := by
  unfold ofReal
  split <;> trivial

theorem yields_integralOp (a b : Int) (op : BinaryOp) (t : PrimType) : Yields (integralOp a b op t) := by
  unfold integralOp
  split
  · exact .ok trivial
  · extract_lets
    split <;> first | exact .ok (fits_ofWord _ _) | exact .error _ | skip
    all_goals split <;> first | exact .ok (fits_ofWord _ _) | exact .error _

theorem yields_floatingOp (x y : Float) (op : BinaryOp) (t : PrimType) : Yields (floatingOp x y op t) := by
  cases op with
  | rem =>
    show Yields ((hosted (modulo x y)).map (ofReal t))
    cases modulo x y with
    | error e => exact .error _
    | ok z => exact .ok (fits_ofReal t z)
  | _ => first | exact .ok trivial | exact .ok (fits_ofReal _ _) | exact .error _

theorem yields_shiftOp (l r : Primitive) (op : BinaryOp) : Yields (shiftOp l r op) := by
  unfold shiftOp
  split
  · exact .error _
  · cases l <;> cases r <;> first | exact .error _ | (cases op <;> exact .ok (fits_ofWord _ _))

theorem yields_binary (l r : Primitive) (op : BinaryOp) : Yields (l.binary r op) := by
  unfold binary
  split
  · cases op <;> first | exact .ok trivial | exact .error _
  · split
    · split <;> first | exact .ok trivial | exact .error _
    · split
      · exact yields_shiftOp _ _ _
      · split
        · exact .error _
        · split
          · exact yields_integralOp _ _ _ _
          · exact yields_floatingOp _ _ _ _
          · exact .error _

theorem yields_mapNumber (t : PrimType) (f : Int → Int) (g : Float → Float) : (n : Number) → Yields (mapNumber t f g n)
  | .int n => (yields_ofInt t (f n)).hosted
  | .float x => (yields_ofFloat t (g x)).hosted

theorem yields_unary (p : Primitive) (op : UnaryOp) : Yields (p.unary op) := by
  unfold unary
  split
  · split <;> first | exact .ok trivial | exact .error _
  · extract_lets t pt
    split
    · exact .error _
    · split <;> first | exact .error _ | exact yields_mapNumber _ _ _ _ | skip
      split <;> first | exact .error _ | exact yields_mapNumber _ _ _ _

theorem inRange_of_fits (hp : p.Fits) : p.inRange := by
  cases p with
  | char c => exact decide_eq_true (Nat.lt_trans hp (by decide))
  | byte n | short n | int n | long n => exact decide_eq_true (wrap_eq_self_iff.mpr hp)
  | _ => rfl

theorem ofInt_of_fits {n : Int} (hp : p.Fits) (hn : p.number = .ok (.int n)) : ofInt p.type n = .ok p := by
  cases p with
  | char c =>
    cases hn
    have same : Word.unsigned 16 c = c := by
      have narrow : c < 2 ^ 16 := hp
      unfold Word.unsigned
      omega
    simp only [type, ofInt, same]
  | byte m | short m | int m | long m =>
    cases hn
    simp only [type, ofInt, wrap_eq_self_iff.mpr hp]
  | _ => cases hn

/-- Nothing widens to `char`, so the wider value is a signed word with the same number. -/
theorem convert_back (hp : p.Fits) (ht : t.isIntegral) (wide : p.type.widening? t ≠ none)
    (h : p.convert t = .ok q) : q.convert p.type = .ok p := by
  have number := number_of_widening (inRange_of_fits hp) ht wide h
  have type := type_of_convert h
  cases q with
  | byte n | short n | int n | long n => exact ofInt_of_fits hp number.symm
  | char c =>
    subst type
    cases p <;> exact absurd rfl wide
  | boolean | float | double =>
    subst type
    cases ht

end Primitive

def Value.Fits : Value → Prop
  | boxed p _ => p.Fits
  | _ => True

variable {w w' : World}

theorem World.fits_wrap {v : Value} (hv : v.Fits) : (w.wrap v).Fits := by
  have host (n : Int) : (Value.wrap (.int n)).Fits := by
    show (if Value.inferInt n = .int then Primitive.int n else .long (Word.wrap 64 n)).Fits
    split
    · next small =>
      unfold Value.inferInt at small
      split at small
      · assumption
      · cases small
    · exact Primitive.bounds_wrap _ n
  cases v with
  | int n => exact host n
  | object i =>
    simp only [World.wrap]
    split
    · exact host _
    · trivial
    · trivial
  | boxed => exact hv
  | _ => trivial

theorem Run.fits_cast {v r : Value} {t : Ty} {mode : Conversion} (hv : v.Fits)
    (h : (cast v t mode).run w = .done r w') : r.Fits := by
  have wrapped {p : Primitive} {m : Nat} (same : w.wrap v = .boxed p m) : p.Fits :=
    (congrArg Value.Fits same).mp (w.fits_wrap hv)
  cases cast_done_iff.mp h with
  | asIs => exact hv
  | boxed same => exact wrapped same
  | converted same _ reboxed => exact Primitive.yields_convert (wrapped same) _ _ reboxed.content
  | presented _ _ _ _ made =>
    obtain ⟨i, rfl, -⟩ := (meets_proxyOf _ _ w).of_done made
    trivial

namespace Comp

open Primitive (Yields)

/-- What the computation gives fits, if it is a boxed value. -/
def Boxes (x : Comp World Value) (w : World) : Prop := x.Meets w (fun v _ => v.Fits) fun _ _ => True

variable {f : Primitive → Comp World Value}

theorem boxes_bind {α : Type} {x : Comp World α} {f : α → Comp World Value}
    (next : ∀ a w, (f a).Boxes w) : (x >>= f).Boxes w :=
  meets_bind.mpr (meets_of_forall next fun _ _ => trivial)

theorem boxes_ofHost {x : Except HostError Primitive} (h : Yields x)
    (next : ∀ p, p.Fits → (f p).Boxes w) : ((Run.ofHost x).run >>= f).Boxes w := by
  cases x with
  | ok p => exact next p (h p rfl)
  | error e => trivial

theorem boxes_ofTrouble {x : Except Trouble Primitive} (h : Yields x)
    (next : ∀ p, p.Fits → (f p).Boxes w) : ((Run.ofTrouble x).run >>= f).Boxes w := by
  rcases x with e | p
  · cases e <;> trivial
  · exact next p (h p rfl)

theorem boxes_computedPrimitive {p : Primitive} (hp : p.Fits) : (Run.computedPrimitive p).run.Boxes w := by
  unfold Run.computedPrimitive
  split <;> exact hp

end Comp

theorem Run.boxes_unary (v : Value) (op : UnaryOp) : (unary v op).run.Boxes w := by
  unfold unary
  split
  · trivial
  · trivial
  · next p m =>
    refine Comp.boxes_ofTrouble (p.yields_unary op) fun q hq => ?_
    split
    · exact hq
    · exact Comp.boxes_computedPrimitive hq
  · trivial

namespace Evaluator

open ScriptCore.Comp

variable (ev : Evaluator)

theorem boxes_joinTexts (l r : Value) : (ev.joinTexts l r).run.Boxes w := by
  refine boxes_bind fun a w => boxes_bind fun b w => ?_
  show (concat a b).run.Boxes w
  unfold concat
  repeat' split
  all_goals trivial

theorem boxes_binaryOp (l r : Value) (op : BinaryOp) : (ev.binaryOp l r op).run.Boxes w := by
  unfold binaryOp
  split
  · next p _ q _ =>
    refine boxes_ofTrouble (p.yields_binary q op) fun v hv => ?_
    split
    · exact hv
    · exact boxes_computedPrimitive hv
  · unfold referenceOp
    refine boxes_bind fun w w' => ?_
    dsimp only
    split
    · trivial
    · trivial
    · split
      · exact ev.boxes_joinTexts _ _
      · split
        · trivial
        · split <;> trivial

theorem meets_inferredType (v : Value) : (ev.inferredType v).run.Meets w (fun _ w' => w' = w) fun _ _ => True := by
  unfold inferredType
  simp only [Action.meets_bind, Action.run_lift, Run.meets_get]
  split
  · rfl
  · rfl
  · rfl
  · simp only [Action.meets_bind]
    exact Comp.meets_of_forall (fun _ _ => trivial) fun _ _ => trivial

theorem boxes_box_some {v : Value} (held : ∀ s, w.text? v = some s → Narrow s) (t : PrimType) :
    (ev.box v (some t)).run.Boxes w := by
  unfold box Boxes
  simp only [Action.meets_bind, Action.run_pure, Action.run_lift, Comp.meets_pure, Run.meets_get]
  split
  · exact boxes_bind fun b w => trivial
  · next s _ text => exact boxes_ofHost (Primitive.yields_ofText (held s text) _) fun p hp => boxes_computedPrimitive hp
  · refine boxes_bind fun r w => ?_
    dsimp only
    split
    · exact boxes_ofHost (Primitive.yields_ofFloat _ _) fun p hp => boxes_computedPrimitive hp
    · exact boxes_ofHost (Primitive.yields_ofInt _ _) fun p hp => hp
  · refine boxes_bind fun r w => ?_
    dsimp only
    split
    · exact boxes_ofHost (Primitive.yields_ofFloat _ _) fun p hp => hp
    · exact boxes_ofHost (Primitive.yields_ofInt _ _) fun p hp => hp
  · exact boxes_ofHost (Primitive.yields_ofFloat _ _) fun p hp => hp
  · exact boxes_ofHost (Primitive.yields_ofInt _ _) fun p hp => hp
  · exact boxes_bind fun n w => boxes_ofHost (Primitive.yields_ofInt _ _) fun p hp => hp

theorem boxes_box {v : Value} (held : ∀ s, w.text? v = some s → Narrow s) (t : Option PrimType) :
    (ev.box v t).run.Boxes w := by
  cases t with
  | some t => exact ev.boxes_box_some held t
  | none =>
    refine Comp.meets_bind.mpr ((ev.meets_inferredType v).imp fun t w' same => ?_)
    subst same
    exact ev.boxes_box_some held t

end Evaluator

/-- What boxing, conversions, operators, defaults and iteration come to, where texts are taken from
the given ones. -/
inductive Made (texts : String → Prop) : Value → Prop
  | box {ev : Evaluator} {v r : Value} {t : Option PrimType} {w w' : World} (held : ∀ s, w.text? v = some s → texts s)
      (h : (ev.box v t).run w = .done r w') : Made texts r
  | wrap {v : Value} (w : World) (host : v.isPrimitive = false) : Made texts (w.wrap v)
  | promote {p q x y : Primitive} {t : PrimType} {v : Value} (m : Nat) (h : p.promote q = .ok (x, y, t))
      (either : v = .boxed x m ∨ v = .boxed y m) : Made texts v
  | cast {v r : Value} {t : Ty} {mode : Conversion} {w w' : World} (held : v.isPrimitive → Made texts v)
      (h : (Run.cast v t mode).run w = .done r w') : Made texts r
  | binary {ev : Evaluator} {l r v : Value} {op : BinaryOp} {w w' : World}
      (h : (ev.binaryOp l r op).run w = .done v w') : Made texts v
  | unary {v r : Value} {op : UnaryOp} {w w' : World} (h : (Run.unary v op).run w = .done r w') : Made texts r
  | default (t : Ty) : Made texts (Value.default t)
  | element {ev : Evaluator} {node : Node} {s : String} {k : Nat} {σ σ' : EvalState} {items : List Value}
      {kind : Evaluator.Elements} {v : Value} (w : World) (held : texts s)
      (loop : ev.loopItems node (.str s k) σ = .done (.items items, kind) σ') (inside : v ∈ items) :
      Made texts (kind.value w v)

theorem Evaluator.loopItems_of_text (ev : Evaluator) (node : Node) (s : String) (k : Nat)
    (σ : EvalState) :
    ev.loopItems node (.str s k) σ =
      .done (.items (s.toList.map fun c => Value.ofString (String.singleton c)), .characters) σ := rfl

theorem Evaluator.value_of_character (w : World) (c : Char) :
    Elements.characters.value w (Value.ofString (String.singleton c)) = .boxed (.char c.toNat) 0 := by
  simp [Elements.value, Value.ofString]

theorem Value.fits_of_not_primitive {v : Value} (h : v.isPrimitive = false) : v.Fits := by
  cases v <;> trivial

theorem Made.fits {texts : String → Prop} (narrow : ∀ s, texts s → Narrow s) {v : Value} (h : Made texts v) : v.Fits := by
  induction h with
  | box held h => exact (Evaluator.boxes_box _ (fun s hs => narrow s (held s hs)) _).of_done h
  | wrap w host => exact w.fits_wrap (Value.fits_of_not_primitive host)
  | promote m h either =>
    have both := Primitive.fits_promote h
    rcases either with rfl | rfl
    · exact both.1
    · exact both.2
  | @cast v _ _ _ _ _ _ h ih =>
    refine Run.fits_cast ?_ h
    cases prim : v.isPrimitive with
    | false => exact Value.fits_of_not_primitive prim
    | true => exact ih prim
  | binary h => exact (Evaluator.boxes_binaryOp _ _ _ _).of_done h
  | unary h => exact (Run.boxes_unary _ _).of_done h
  | default t =>
    cases t with
    | prim t => cases t <;> first | trivial | exact Nat.two_pow_pos 16
    | _ => trivial
  | element w held loop inside =>
    rw [Evaluator.loopItems_of_text] at loop
    cases loop
    obtain ⟨c, hc, rfl⟩ := List.mem_map.mp inside
    rw [Evaluator.value_of_character]
    exact narrow _ held c hc

/-- All values that come from some texts lie in the ranges of their types exactly if the texts have
no character beyond 16 bits. A value in range comes back unchanged from every integral type that it
widens to. -/
theorem boxed_values_fit_narrow_texts (texts : String → Prop) :
    ((∀ p m, Made texts (.boxed p m) → p.Fits) ↔ ∀ s, texts s → Narrow s) ∧
    ∀ (p : Primitive) (t : PrimType), p.Fits → t.isIntegral → p.type.widening? t ≠ none →
      ∀ (m : Nat) (w : World), ∃ q, q.type = t ∧
        (Run.cast (.boxed p m) (.prim t) .assignment).run w = .done (.boxed q m) w ∧
        (Run.cast (.boxed q m) (.prim p.type) .cast).run w = .done (.boxed p m) w := by
  refine ⟨⟨fun fits s held c hc => ?_, fun narrow p m made => made.fits narrow⟩, fun p t hp ht wide m w => ?_⟩
  · -- The loop over the text itself boxes each of its characters.
    have made : Made texts (.boxed (.char c.toNat) 0) := by
      rw [← Evaluator.value_of_character default c]
      exact .element _ held (Evaluator.loopItems_of_text .exhausted default s 0 ⟨default,
        .shared 0⟩) (List.mem_map_of_mem hc)
    exact fits _ _ made
  · have ok := Primitive.isOk_convert (Primitive.inRange_of_fits hp) (Option.isSome_iff_ne_none.mpr wide)
    cases hq : p.convert t with
    | error e =>
      rw [hq] at ok
      cases ok
    | ok q =>
      have type : q.type = t := Primitive.type_of_convert hq
      have apart := PrimType.ne_of_widening wide
      have there : p.Reboxed .assignment t q := ⟨apart.1, apart.2, fun _ => wide, hq⟩
      have back : q.Reboxed .cast p.type p :=
        ⟨type ▸ apart.1.symm, type ▸ fun h => apart.2 h.symm, fun h => (by cases h), Primitive.convert_back hp ht wide hq⟩
      exact ⟨q, type, Run.cast_prim_iff_casts.mpr (.converted rfl rfl there),
        Run.cast_prim_iff_casts.mpr (.converted rfl rfl back)⟩

theorem boxed_values_fit_narrow_texts_ascii :
    (∀ p m, Made (· = "a") (.boxed p m) → p.Fits) ∧ (Primitive.byte (-128)).Fits ∧
    ∃ q, q.type = .long ∧
      (Run.cast (.boxed (.byte (-128)) 0) (.prim .long) .assignment).run default = .done (.boxed q 0) default ∧
      (Run.cast (.boxed q 0) (.prim .byte) .cast).run default = .done (.boxed (.byte (-128)) 0) default := by
  have fits : (Primitive.byte (-128)).Fits := ⟨by decide, by decide⟩
  obtain ⟨texts, widened⟩ := boxed_values_fit_narrow_texts (· = "a")
  refine ⟨texts.mpr ?_, fits, widened _ .long fits rfl (by decide) 0 default⟩
  rintro s rfl c hc
  cases List.mem_singleton.mp hc
  decide

/-- The loop over a text of one wide character gives a value out of range, which comes back from
`int` as another one. -/
theorem wide_character_leaves_range :
    (Evaluator.exhausted.loopItems default (.str "😀" 0) ⟨default, .shared 0⟩ =
      .done (.items [.str "😀" 0], .characters) ⟨default, .shared 0⟩) ∧
    Evaluator.Elements.characters.value default (.str "😀" 0) = .boxed (.char 0x1f600) 0 ∧ ¬(Primitive.char 0x1f600).Fits ∧
    (Run.cast (.boxed (.char 0x1f600) 0) (.prim .int) .assignment).run default = .done (.boxed (.int 0x1f600) 0) default ∧
    (Run.cast (.boxed (.int 0x1f600) 0) (.prim .char) .cast).run default = .done (.boxed (.char 0xf600) 0) default := by
  refine ⟨rfl, rfl, ?_, rfl, rfl⟩
  show ¬0x1f600 < 2 ^ 16
  decide

end ScriptCore
