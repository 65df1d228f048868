import ScriptCore.Proofs.Hosting

namespace ScriptCore

def Node.lexical (n : Node) : Bool := n.usesOnly fun path => !View.asks path

def World.Lexical (w : World) : Prop := ∀ n, w.Holds n → n.lexical

instance (w : World) : Decidable w.Lexical :=
  decidable_of_iff (∀ n ∈ w.scopes.toList.flatMap Scope.code ++ w.objects.toList.flatMap Obj.code ++
    w.classes.toList.flatMap MadeClass.code, n.lexical) (forall_congr' fun _ => by rw [World.holds_iff])

namespace Terms

def unasking : Terms := .lenient (fun path => !View.asks path) (fun _ => True) false

theorem lexical_unasking : unasking.Lexical := fun path h => by simpa [unasking, lenient] using h

theorem allows_unasking {n : Node} (hn : n.lexical) (r : Role) : unasking.Allows r n where
  names := hn
  orderly ho := by cases ho
  complete hc := by cases hc

theorem fits_unasking_iff {w : World} : unasking.Fits w ↔ w.Lexical where
  mp h n hn := (h.code n hn).names
  mpr h := .of_code (fun n hn => allows_unasking (h n hn) _) fun ho => by cases ho

theorem kept_unasking {w : World} (hw : unasking.Fits w) (k : CallStack) : unasking.Kept w k ⟨w, .own k⟩ where
  fits := hw
  since := .refl w
  stack _ := rfl
  started hc := by cases hc

end Terms

namespace Evaluator

open Terms

theorem own_respects_lexical : Embedding.own.Respects World.Lexical :=
  Embedding.own_respects fits_unasking_iff fun n => .ofFuel n fun _ _ _ _ => trivial

theorem sound_unasking {E : Embedding} (host : E.Respects World.Lexical) (n : Nat) : (hosted E n).Sound unasking :=
  Embedding.sound_hosted fits_unasking_iff host (fun _ _ _ _ _ _ _ _ _ => trivial) (fun _ _ _ _ _ _ _ => trivial) n

end Evaluator

end ScriptCore
