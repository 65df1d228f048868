import ScriptCore.Proofs.Orderly

namespace ScriptCore

/-- What is asked of an evaluation: the names that code may use, the classes of which host code may
raise exceptions although the interpreter keeps them for itself, whether trees have to be orderly or
complete, whether what scripts have declared has to be upheld, and the outright errors that may come
up. Located errors may only be restricted if no name mentions the running call stack. -/
structure Terms where
  names : String → Bool
  raises : CoreClass → Prop
  orderly : Bool := false
  complete : Bool := false
  steady : Bool := false
  passes : Failure → Prop
  reports : (∀ path, names path → View.mentions path = false) ∨ ∀ r, passes (.report r)
  halts : (complete = true ∧ ∀ path, names path → View.mentions path = false) ∨ ∀ m, passes (.internal m)
  lapses : ∀ e : Failure, e.IsLapse → passes e

namespace Terms

variable {c : Terms}

def lenient (names : String → Bool) (raises : CoreClass → Prop) (orderly : Bool) : Terms where
  names
  raises
  orderly
  passes _ := True
  reports := .inr fun _ => trivial
  halts := .inr fun _ => trivial
  lapses _ _ := trivial

def Discreet (c : Terms) : Prop := ∀ path, c.names path → View.mentions path = false

/-- What became of a world: scopes are what they were made as, and if the terms ask for it, what
scripts have declared is upheld. -/
structure Since (c : Terms) (w w' : World) : Prop where
  frames : w.SameFrames w'
  upheld : c.steady → w.Upholds w'

/-- The tree may stand in the place of such a part. -/
structure Allows (c : Terms) (r : Role) (n : Node) : Prop where
  names : n.usesOnly c.names
  orderly : c.orderly → n.orderly r.position
  complete : c.complete → n.complete r

/-- What the world keeps may run; if trees have to be orderly, no script has got hold of a signal or
can make one. -/
structure Fits (c : Terms) (w : World) : Prop where
  code : w.KeepsOnly (c.Allows .branch)
  members : ∀ n, w.HoldsMember n → c.Allows .statement n
  hidden : c.orderly → w.exposed = false
  signals : c.orderly → w.signals = #[]

namespace Since

variable {w w' w'' : World}

theorem refl (w : World) : c.Since w w := ⟨.refl w, fun _ => .refl w⟩

theorem trans (h : c.Since w w') (k : c.Since w' w'') : c.Since w w'' :=
  ⟨h.frames.trans k.frames, fun hc => (h.upheld hc).trans (k.upheld hc)⟩

theorem classes (h : c.Since w w') (steady : c.steady) : w.SameClasses w' := (h.upheld steady).classes

theorem of_eq (scopes : w'.scopes = w.scopes) (classes : w'.classes = w.classes) (objects : w'.objects = w.objects)
    (calls : w.SparesSuper w' := by exact .of_eq rfl) : c.Since w w' where
  frames := by
    rw [World.SameFrames, scopes]
    exact .refl .refl _
  upheld _ := .of_eq scopes classes objects calls

theorem of_inert (h : w.Inert w') : c.Since w w' := ⟨h.frames, fun _ => h.upheld⟩

theorem of_calm (h : w.Calm w') : c.Since w w' := of_inert h.inert

theorem modifyScope (w : World) (s : ScopeId) {f : Scope → Scope} (hf : ∀ x : Scope, x.SameFrame (f x))
    (hb : ∀ x : Scope, x.SameBody (f x)) : c.Since w (w.modifyScope s f) :=
  ⟨.modifyScope w s hf, fun _ => { World.Upholds.refl w with bodies := .modifyScope w s hb }⟩

theorem modifyObj (w : World) (i : ObjectId) {f : Obj → Obj}
    (hf : ∀ o : Obj, o.KeepsMethods (f o)) : c.Since w (w.modifyObj i f) :=
  ⟨.refl w, fun _ => { World.Upholds.refl w with methods := .modifyObj w i hf }⟩

end Since

namespace Allows

variable {n : Node} {r : Role}

theorem statement (h : c.Allows .expression n) : c.Allows .statement n :=
  ⟨h.names, fun ho => n.orderly_statement (h.orderly ho), h.complete⟩

theorem branch (h : c.Allows .statement n) : c.Allows .branch n where
  names := h.names
  orderly := h.orderly
  complete hc := by
    obtain ⟨admitted, arranged⟩ := Node.complete_iff.mp (h.complete hc)
    exact Node.complete_iff.mpr ⟨Bool.or_eq_true_iff.mpr (.inr admitted), arranged⟩

theorem part {m : Node} {q : Role} (h : c.Allows r n) (hm : (q, m) ∈ n.parts) : c.Allows q m where
  names := n.usesOnly_of_part h.names hm
  orderly ho := n.orderly_of_part (h.orderly ho) hm
  complete hc := n.complete_of_part (Node.complete_iff.mp (h.complete hc)).2 hm

theorem statements {ss : List Node} (h : c.Allows r n) (hs : n.statements? = some ss) :
    ∀ m ∈ ss, c.Allows .statement m := by
  cases n <;> cases hs
  exact fun m hm => h.part (by simp [Node.parts, hm])

theorem ofClassDecl (h : c.Allows r n) (hn : n.isClassDecl) : c.Allows .expression n := by
  cases n <;> cases hn
  exact ⟨h.names, h.orderly, fun hc => Node.complete_iff.mpr ⟨rfl, (Node.complete_iff.mp (h.complete hc)).2⟩⟩

theorem absent : c.Allows .branch .absent := ⟨rfl, fun _ => rfl, fun _ => rfl⟩

/-- Only where trees need not be complete can a node stand in a place that is not for its kind. -/
theorem incomplete (h : c.Allows r n) (hn : r.admits n = false) : c.complete = false := by
  refine Bool.eq_false_iff.mpr fun hc => ?_
  have admitted := (Node.complete_iff.mp (h.complete hc)).1
  rw [hn] at admitted
  cases admitted

end Allows

theorem Allows.given {n : Node} (h : c.Allows .optional n) (given : n.isAbsent = false) : c.Allows .expression n where
  names := h.names
  orderly := h.orderly
  complete hc := by
    obtain ⟨admitted, arranged⟩ := Node.complete_iff.mp (h.complete hc)
    refine Node.complete_iff.mpr ⟨?_, arranged⟩
    simpa [Role.admits, given] using admitted

theorem Allows.taken {n : Node} (h : c.Allows .branch n) (given : n.isAbsent = false) : c.Allows .statement n where
  names := h.names
  orderly := h.orderly
  complete hc := by
    obtain ⟨admitted, arranged⟩ := Node.complete_iff.mp (h.complete hc)
    refine Node.complete_iff.mpr ⟨?_, arranged⟩
    simpa [Role.admits, given] using admitted

namespace Fits

variable {w w' : World}

theorem of_code (code : w.KeepsOnly (c.Allows .statement))
    (signals : c.orderly → w.exposed = false ∧ w.signals = #[]) : c.Fits w where
  code n hn := (code n hn).branch
  members n held := by
    obtain ⟨k, hk, hn⟩ := held
    exact code n (.cls k hk hn)
  hidden ho := (signals ho).1
  signals ho := (signals ho).2

theorem of_inert (h : c.Fits w) (k : w.Inert w') : c.Fits w' where
  code := h.code.of_inert k
  members n hn := h.members n (k.members n hn)
  hidden ho := k.exposed.trans (h.hidden ho)
  signals ho := (k.signals (h.hidden ho)).trans (h.signals ho)

theorem of_calm (h : c.Fits w) (k : w.Calm w') : c.Fits w' := h.of_inert k.inert

theorem pushSignal (h : c.Fits w) (hc : c.orderly = false) (s : Signal) : c.Fits { w with signals := w.signals.push s } where
  code := by
    rintro n (⟨x, hx, hn⟩ | ⟨x, hx, hn⟩ | ⟨x, hx, hn⟩)
    · exact h.code n (.scope x hx hn)
    · exact h.code n (.object x hx hn)
    · exact h.code n (.cls x hx hn)
  members := h.members
  hidden := h.hidden
  signals ho := by rw [hc] at ho; cases ho

theorem modifyScope (h : c.Fits w) (s : ScopeId) {f : Scope → Scope}
    (hf : ∀ x, ∀ n ∈ (f x).code, n ∈ x.code ∨ c.Allows .branch n) : c.Fits (w.modifyScope s f) :=
  ⟨h.code.modifyScope s hf, h.members, h.hidden, h.signals⟩

theorem modifyObj (h : c.Fits w) (i : ObjectId) {f : Obj → Obj}
    (hf : ∀ o, ∀ n ∈ (f o).code, n ∈ o.code ∨ c.Allows .branch n) : c.Fits (w.modifyObj i f) :=
  ⟨h.code.modifyObj i hf, h.members, h.hidden, h.signals⟩

theorem modifyMade (h : c.Fits w) (k : Nat) {f : MadeClass → MadeClass}
    (hf : ∀ x, ∀ n ∈ (f x).code, n ∈ x.code ∨ c.Allows .statement n) : c.Fits (w.modifyMade k f) where
  code := h.code.modifyMade k fun x n hn => (hf x n hn).imp_right .branch
  members n := by
    rintro ⟨y, hy, hn⟩
    rcases World.code_modify hf y hy n hn with ⟨x, hx, hn⟩ | hn
    · exact h.members n ⟨x, hx, hn⟩
    · exact hn
  hidden := h.hidden
  signals := h.signals

end Fits

end Terms

end ScriptCore
