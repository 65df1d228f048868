import ScriptCore.Proofs.Programs
import ScriptCore.Proofs.StackDiscipline

namespace ScriptCore

/-- The code that the world keeps is orderly, no script has got hold of a signal, and none can make
one: the interpreter's own package is out of their reach. -/
structure World.Orderly (w : World) : Prop where
  code : w.KeepsOnly fun n => n.orderly .statement
  hidden : w.exposed = false
  signals : w.signals = #[]

instance (w : World) : Decidable w.Orderly :=
  decidable_of_iff ((w.KeepsOnly fun n => n.orderly .statement) ∧ w.exposed = false ∧ w.signals.size = 0)
    ⟨fun h => ⟨h.1, h.2.1, Array.eq_empty_of_size_eq_zero h.2.2⟩, fun h => ⟨h.code, h.hidden, by simp [h.signals]⟩⟩

theorem World.Orderly.signal?_eq_none {w : World} (h : w.Orderly) (v : Value) : w.signal? v = none := by
  cases v <;> simp [World.signal?, h.signals]

inductive World.Stores (w : World) (v : Value) : Prop
  | variable (s : ScopeId) (x : Variable) (hx : x ∈ (w.scope s).vars.values) (hv : x.value = some v)
  | element (array : Value) (c : Ty) (items : List Value) (ha : w.array? array = some (c, items)) (hv : v ∈ items)

def Outcome.endsWithSignal : Outcome EvalState Ending → Bool
  | done r _ => r.signal?.isSome
  | _ => false

theorem Outcome.exists_of_endsWithSignal {o : Outcome EvalState Ending} (h : o.endsWithSignal) :
    ∃ r σ, o = .done r σ ∧ r.signal?.isSome := by
  cases o with
  | done r σ => exact ⟨r, σ, rfl, h⟩
  | _ => cases h

namespace Terms

def orderlyCode : Terms := .lenient (fun _ => true) (fun _ => True) true

theorem allows_orderlyCode {n : Node} {r : Role} (h : n.orderly r.position) : orderlyCode.Allows r n :=
  ⟨n.usesOnly_true, fun _ => h, fun hc => by cases hc⟩

theorem fits_orderlyCode_iff {w : World} : orderlyCode.Fits w ↔ w.Orderly :=
  ⟨fun h => ⟨fun n hn => (h.code n hn).orderly rfl, h.hidden rfl, h.signals rfl⟩,
    fun h => .of_code (fun n hn => allows_orderlyCode (h.code n hn)) fun _ => ⟨h.hidden, h.signals⟩⟩

theorem kept_orderlyCode {σ : EvalState} (h : σ.world.Orderly) (k : CallStack) : orderlyCode.Kept σ.world k σ where
  fits := fits_orderlyCode_iff.mpr h
  since := .refl σ.world
  stack hd := absurd (hd "callStack" rfl) (by decide)
  started hc := by cases hc

end Terms

namespace Evaluator

open Terms

theorem sound_orderlyCode (n : Nat) : (ofFuel n).Sound orderlyCode := .ofFuel n fun _ _ _ _ => trivial

theorem orderly_of_leads {α : Type} {x : Eval α} {P : α → Prop} {t : Tier} (hx : x.Sound orderlyCode t P)
    {σ σ' : EvalState} (hσ : σ.world.Orderly) (hl : x.Leads σ σ') : σ'.world.Orderly := by
  have run := hx σ ⟨[]⟩ (kept_orderlyCode hσ _)
  refine Comp.Meets.of_leads (P := fun σ => σ.world.Orderly) ?_ hl
  exact run.mono (fun _ _ h => fits_orderlyCode_iff.mp h.1.fits) fun _ _ h => fits_orderlyCode_iff.mp h.1.fits

/-- Nor does it hold without the condition on the interpreter's own package: an expression that
makes an object of the class of signals ends with a signal. -/
theorem reachable_class_gives_signal :
    ¬∀ (n : Nat) (node : Node) (σ σ' : EvalState) (r : Ending), node.orderly .expression →
      (σ.world.KeepsOnly fun n => n.orderly .statement) → σ.world.signals = #[] →
      (ofFuel n).exec node σ = .done r σ' → r.signal? = none := by
  intro always
  let node : Node := .allocation {} (.typeRef {} (.named "jive.jive_nodes.ReturnControl") 0)
    [.literal {} (.ofString "return"), .literal {} (.ofInt 5), .literal {} .null] .absent
  let σ : EvalState := ⟨.declaring .absent, .own ⟨[0]⟩⟩
  have run : ((ofFuel 12).exec node σ).endsWithSignal := by decide +kernel
  obtain ⟨r, σ', hr, hs⟩ := Outcome.exists_of_endsWithSignal run
  rw [always 12 node σ σ' r (by decide +kernel) (by decide +kernel) rfl hr] at hs
  cases hs

end Evaluator

end ScriptCore
