import ScriptCore.Proofs.Beside
import ScriptCore.Proofs.Convertible
import ScriptCore.Proofs.Selection
import ScriptCore.Proofs.TypedStorage
import ScriptCore.Script.Method

namespace ScriptCore

namespace World

variable {w w' : World} {s : ScopeId}

structure IsFrame (w : World) (s : ScopeId) : Prop where
  inside : s < w.scopes.size
  block : (w.scope s).isBlock = false
  imports : w.importTargets s = []

def declare (w : World) (s : ScopeId) (name : String) (x : Variable) : World :=
  (w.setVars s (·.put name x)).modifyMemory s Memory.forgotten

theorem scope_declare (hs : s < w.scopes.size) (name : String) (x : Variable) :
    (w.declare s name x).scope s = { w.scope s with vars := (w.scope s).vars.put name x } := by
  change (w.setVars s (·.put name x)).scope s = _
  rw [scope_setVars, if_pos ⟨rfl, hs⟩]

theorem lasting_declare (w : World) (s : ScopeId) (name : String) (x : Variable) : w.Lasting (w.declare s name x) := by
  have forget : (w.setVars s (·.put name x)).Calm (w.declare s name x) := calm_modifyMemory s .forgotten
  exact (w.lasting_setVars s _).trans forget.lasting

namespace IsFrame

theorem beside (h : w.IsFrame s) (k : w.Beside w') : w'.IsFrame s := by
  obtain ⟨proxies, hs⟩ := k.scope s
  refine ⟨k.size ▸ h.inside, ?_, ?_⟩
  · rw [hs]
    exact h.block
  · rw [importTargets, hs]
    exact h.imports

theorem declare (h : w.IsFrame s) (name : String) (x : Variable) : (w.declare s name x).IsFrame s := by
  have hs := scope_declare h.inside name x
  refine ⟨by simpa [World.declare, setVars, modifyScope, modifyMemory] using h.inside, ?_, ?_⟩
  · rw [hs]
    exact h.block
  · rw [importTargets, hs]
    exact h.imports

end IsFrame

end World

namespace Run

variable {w : World} {s : ScopeId} {name : String}

theorem findBinding_frame (hf : w.IsFrame s) (new : (w.scope s).vars.contains name = false) :
    (findBinding s name false).run w = .done none w := by
  simp only [findBinding, Bool.false_eq_true, if_false]
  rw [Action.run_bind_of_done (x := read _) rfl]
  simp only [firstSome]
  rw [Action.run_bind_of_done (localBindingOf_unknown hf.imports new)]
  rfl

theorem given_of_ne {v : Value} (h : v ≠ .none) : given v = some v := by
  cases v with
  | none => exact absurd rfl h
  | _ => rfl

theorem declareVariable_of_conforms {v : Value} {t : Ty} (hv : v ≠ .void) (h : w.conforms v t)
    (modifiers : Modifiers) :
    (declareVariable s name t (some v) modifiers).run w =
      .done () (w.declare s name { type := t, value := some v, modifiers }) := by
  have value : (declaredValue t (some v) modifiers).run w = .done (some v) w := by
    simp only [declaredValue, Option.isNone_some, Bool.and_false, Bool.false_eq_true, if_false, Option.getD_some]
    rw [Action.run_bind_of_done (cast_of_conforms hv h .cast)]
    rfl
  unfold declareVariable
  rw [Action.run_liftM_bind_of_done value]
  rfl

theorem setTypedVariable_frame (hf : w.IsFrame s) (new : (w.scope s).vars.contains name = false)
    {v : Value} {t : Ty} (hv : v ≠ .void) (h : w.conforms v t) (modifiers : Modifiers) :
    (setTypedVariable s name t (some v) modifiers).run w =
      .done () (w.declare s name { type := t, value := some v, modifiers }) := by
  unfold setTypedVariable
  rw [Action.run_liftM_bind_of_done (findBinding_frame hf new)]
  exact declareVariable_of_conforms hv h modifiers

theorem setVariable_frame (hf : w.IsFrame s) (new : (w.scope s).vars.contains name = false)
    {v : Value} (hv : v ≠ .void) (hn : v ≠ .none) :
    (setVariable s name v false false).run w = .done () (w.declare s name { value := some v }) := by
  have bound : (bindIn s name v false false).run w = .done () (w.declare s name { value := some v }) := by
    have loose : (declareVariable s name .untyped (some v) {}).run w = .done () (w.declare s name { value := some v }) :=
      declareVariable_of_conforms hv rfl {}
    cases v with
    | none => exact absurd rfl hn
    | _ =>
      unfold bindIn
      dsimp only
      rw [Action.run_liftM_bind_of_done (findBinding_frame hf new)]
      exact loose
  obtain ⟨rest, ancestry⟩ := w.head_ancestry s
  have owner : w.bindingScope s name = s := by
    simp [World.bindingScope, ancestry, hf.block]
  unfold setVariable
  rw [Action.run_get_bind]
  simp only [owner, Bool.false_and]
  exact bound

theorem cast_steady {a : Value} {t : Ty} (hs : w.Suits a t) (ha : a ≠ .void) (hn : ∀ k, a ≠ .closure k) :
    ∃ v, v ≠ .void ∧ (a ≠ .none → v ≠ .none) ∧ ∀ w', w.Lasting w' → (cast a t .assignment).run w' = .done v w' := by
  cases hs with
  | asIs h => exact ⟨a, ha, id, fun w' hl => cast_of_conforms ha (hl.conforms h) .assignment⟩
  | widened p mark q hb ht hp wide =>
    subst hb ht
    obtain ⟨r, hr⟩ := cast_widening mark hp wide
    exact ⟨.boxed r mark, nofun, fun _ => nofun, fun w' _ => hr w'⟩
  | presented k c hk => exact absurd hk (hn k)

theorem cast_of_suits {a : Value} {t : Ty} (hs : w.Suits a t) (ha : a ≠ .void)
    (hp : ∀ k c, a = .closure k → t = .cls c → w.isInterface c → (proxyOf k [c]).run.Gives w fun _ _ => True) :
    ∃ v w', (cast a t .assignment).run w = .done v w' ∧ v ≠ .void ∧ (a ≠ .none → v ≠ .none) ∧ w.Beside w' := by
  by_cases closure : ∃ k, a = .closure k
  · obtain ⟨k, rfl⟩ := closure
    cases hs with
    | asIs h => exact ⟨.closure k, w, cast_of_conforms ha h .assignment, ha, id, .refl w⟩
    | widened p mark q hb => cases hb
    | presented k' c hk ht hc =>
      cases hk
      subst ht
      by_cases inside : w.isInstance (.closure k) c
      · exact ⟨.closure k, w, cast_of_conforms (t := .cls c) ha inside .assignment, ha, id, .refl w⟩
      · obtain ⟨v, w', hv, -⟩ := Comp.gives_iff.mp (hp k c rfl rfl hc)
        obtain ⟨i, rfl, -⟩ := (meets_proxyOf k c w).of_done hv
        refine ⟨.object i, w', ?_, nofun, fun _ => nofun, ((OnlyAdds.proxyOf k [c] w).of_done hv).toBeside⟩
        rw [cast_closure hc (Bool.eq_false_iff.mpr inside), hv]
  · obtain ⟨v, hv, there, run⟩ := cast_steady hs ha fun k hk => closure ⟨k, hk⟩
    exact ⟨v, w, run w (.refl w), hv, there, .refl w⟩

end Run

/-- The value that an argument is converted to on the way from one world to another. Only closures
have to wait for their turn, since proxies may have to be made for them. -/
def World.Converts (w w' : World) (a : Value) (t : Ty) (v : Value) : Prop :=
  ∃ w₁ w₂, (Run.cast a t .assignment).run w₁ = .done v w₂ ∧ w.Lasting w₁ ∧ w₂.Lasting w' ∧
    ((∀ k, a ≠ .closure k) → w₁ = w)

theorem World.Converts.eq_of_untyped {w w' : World} {a v : Value} (h : w.Converts w' a .untyped v) : v = a := by
  obtain ⟨w₁, w₂, run, -⟩ := h
  cases run
  rfl

theorem World.Converts.earlier {w w₁ w' : World} {a v : Value} {t : Ty} (h : w₁.Converts w' a t v) (before : w.Lasting w₁)
    (after : w₁.Lasting w') (hs : w.Suits a t) (ha : a ≠ .void) : w.Converts w' a t v := by
  obtain ⟨w₂, w₃, run, h₂, h₃, first⟩ := h
  by_cases closure : ∃ k, a = .closure k
  · obtain ⟨k, rfl⟩ := closure
    exact ⟨w₂, w₃, run, before.trans h₂, h₃, fun hn => absurd rfl (hn k)⟩
  · have open' : ∀ k, a ≠ .closure k := fun k hk => closure ⟨k, hk⟩
    obtain ⟨v', -, -, steady⟩ := Run.cast_steady hs ha open'
    have same := steady w₂ (before.trans h₂)
    rw [run] at same
    cases same
    exact ⟨w, w, steady w (.refl w), .refl w, before.trans after, fun _ => rfl⟩

structure Scope.Plain (x : Scope) : Prop where
  block : x.isBlock = false
  objects : x.importedObjects = []
  statics : x.importedStatic = []

theorem Run.isFrame_of_newScope {x : Scope} (hx : x.Plain) {w w' : World} {s : ScopeId}
    (h : (newScope x).run w = .done s w') : w'.IsFrame s ∧ (w'.scope s).vars = {} ∧ w'.settings = w.settings := by
  cases h
  refine ⟨⟨?_, ?_, ?_⟩, ?_, rfl⟩
  · simp
  · simpa [World.scope] using hx.block
  · simpa [World.importTargets, World.scope] using ⟨hx.objects, hx.statics⟩
  · simp [World.scope]

theorem Method.takes_of_signatureAssignable {w w' : World} {m : Method} {args : List Value}
    (h : w'.signatureAssignable (w.typesOf args) m.paramTypes) :
    m.params.length = args.length ∧ ∀ e ∈ m.params.zip args, w'.isAssignable (w.typeOf e.2) e.1.type := by
  simp only [World.signatureAssignable, World.typesOf, Method.paramTypes, Bool.and_eq_true, beq_iff_eq, List.length_map,
    List.all_eq_true, List.zip_map, List.mem_map, forall_exists_index, and_imp] at h
  refine ⟨h.1.symm, fun e he => ?_⟩
  have swapped : (e.2, e.1) ∈ args.zip m.params := by
    obtain ⟨i, hi⟩ := List.mem_iff_getElem?.mp he
    exact List.mem_iff_getElem?.mpr ⟨i, List.getElem?_zip_eq_some.mpr (List.getElem?_zip_eq_some.mp hi).symm⟩
  exact h.2 _ (e.2, e.1) swapped rfl

def MethodParam.variable (p : MethodParam) (v : Value) : Variable :=
  { type := p.type, value := some v, modifiers := if p.type = .untyped then {} else p.modifiers }

namespace Evaluator

variable {w : World} {s : ScopeId}

theorem bindParameter_frame {p : MethodParam} {a : Value} (hf : w.IsFrame s) (lax : w.settings.strict = false)
    (new : (w.scope s).vars.contains p.name = false) (ha : a ≠ .void) (hn : a ≠ .none) (hs : w.Suits a p.type)
    (hp : ∀ k c, a = .closure k → p.type = .cls c → (Run.proxyOf k [c]).run.Gives w fun _ _ => True)
    (method : String) (caller : Node) (r : StackRef) :
    ∃ v w', (Run.cast a p.type .assignment).run w = .done v w' ∧ w.Beside w' ∧ w.Lasting w' ∧
      bindParameter s method caller p a ⟨w, r⟩ = .done () ⟨w'.declare s p.name (p.variable v), r⟩ := by
  obtain ⟨v, w', run, hv, there, beside⟩ := Run.cast_of_suits hs ha fun k c hk ht _ => hp k c hk ht
  have lasting : w.Lasting w' := ((Action.meets_calm _ w).of_done run).lasting
  refine ⟨v, w', run, beside, lasting, ?_⟩
  by_cases loose : p.type = .untyped
  · have same : v = a ∧ w' = w := by
      rw [loose] at run
      cases run
      exact ⟨rfl, rfl⟩
    obtain ⟨rfl, rfl⟩ := same
    have stored : (Run.setVariable s p.name v false false).run w' = .done () (w'.declare s p.name (p.variable v)) := by
      simpa [MethodParam.variable, loose] using Run.setVariable_frame hf new ha hn
    have strict : (Run.read fun w => w.settings.strict).run w' = .done false w' := by
      rw [← lax]
      rfl
    have run : (do
        let strict ← Run.read fun w => w.settings.strict
        Eval.located (some "Local method parameter assignment") caller (Run.setVariable s p.name v strict false) : Eval Unit)
          ⟨w', r⟩ = .done () ⟨w'.declare s p.name (p.variable v), r⟩ := by
      rw [Comp.bind_of_done (Eval.liftM_of_done strict r)]
      exact Eval.catching_of_done (Eval.liftM_of_done stored r)
    simp only [bindParameter, loose, if_true]
    cases v with
    | void => exact absurd rfl ha
    | _ => exact run
  · have stored : (Run.setTypedVariable s p.name p.type (Run.given v) p.modifiers).run w' =
        .done () (w'.declare s p.name (p.variable v)) := by
      have free : (w'.scope s).vars.contains p.name = false := by
        obtain ⟨proxies, same⟩ := beside.scope s
        rw [same]
        exact new
      have fits : w'.conforms v p.type := (Run.meets_cast a p.type .assignment w).of_done run
      rw [Run.given_of_ne (there hn)]
      simpa [MethodParam.variable, loose] using Run.setTypedVariable_frame (hf.beside beside) free hv fits p.modifiers
    simp only [bindParameter, loose, if_false]
    rw [Comp.bind_of_done (Eval.catching_of_done (Eval.liftM_of_done run r))]
    exact Eval.catching_of_done (Eval.liftM_of_done stored r)

/-- When its turn comes, a proxy can be made for a closure that an interface is asked of. -/
def MakesProxies (s : ScopeId) (method : String) (caller : Node) (l : List (MethodParam × Value)) (σ : EvalState) : Prop :=
  ∀ before p k after c σ', l = before ++ (p, .closure k) :: after → p.type = .cls c →
    (forEach before fun e => bindParameter s method caller e.1 e.2) σ = .done () σ' →
      (Run.proxyOf k [c]).run.Gives σ'.world fun _ _ => True

theorem bindParameters_frame {l : List (MethodParam × Value)} (hf : w.IsFrame s) (lax : w.settings.strict = false)
    (hl : ∀ e ∈ l, e.2 ≠ .void ∧ e.2 ≠ .none ∧ w.Suits e.2 e.1.type) (distinct : (l.map fun e => e.1.name).Nodup)
    (new : ∀ e ∈ l, (w.scope s).vars.get? e.1.name = none) (method : String) (caller : Node) (r : StackRef)
    (hp : MakesProxies s method caller l ⟨w, r⟩) :
    ∃ w', (forEach l fun e => bindParameter s method caller e.1 e.2) ⟨w, r⟩ = .done () ⟨w', r⟩ ∧ w.Lasting w' ∧
      (∀ name, name ∉ l.map (fun e => e.1.name) → (w'.scope s).vars.get? name = (w.scope s).vars.get? name) ∧
      ∀ e ∈ l, ∃ v, (w'.scope s).vars.get? e.1.name = some (e.1.variable v) ∧ w.Converts w' e.2 e.1.type v := by
  induction l generalizing w with
  | nil => exact ⟨w, rfl, .refl w, fun _ _ => rfl, fun _ he => by cases he⟩
  | cons e rest ih =>
    obtain ⟨p, a⟩ := e
    obtain ⟨ha, hn, hs⟩ := hl (p, a) List.mem_cons_self
    have unheld : (w.scope s).vars.contains p.name = false := by
      simpa [Table.contains] using new (p, a) List.mem_cons_self
    have first : ∀ k c, a = .closure k → p.type = .cls c → (Run.proxyOf k [c]).run.Gives w fun _ _ => True := by
      rintro k c rfl ht
      exact hp [] p k rest c ⟨w, r⟩ rfl ht rfl
    obtain ⟨v, w₁, run, beside, lasting, bound⟩ := bindParameter_frame hf lax unheld ha hn hs first method caller r
    have later : w.Lasting (w₁.declare s p.name (p.variable v)) := lasting.trans (w₁.lasting_declare _ _ _)
    have frame := hf.beside beside
    have vars : ((w₁.declare s p.name (p.variable v)).scope s).vars = (w.scope s).vars.put p.name (p.variable v) := by
      obtain ⟨proxies, same⟩ := beside.scope s
      rw [World.scope_declare frame.inside, same]
    have names := List.nodup_cons.mp distinct
    have apart : ∀ e ∈ rest, p.name ≠ e.1.name := fun e he same => names.1 (List.mem_map.mpr ⟨e, he, same.symm⟩)
    have step (l : List (MethodParam × Value)) : (forEach ((p, a) :: l) fun e =>
      bindParameter s method caller e.1 e.2) ⟨w, r⟩ =
        (forEach l fun e => bindParameter s method caller e.1 e.2) ⟨w₁.declare s p.name (p.variable v), r⟩ :=
      Comp.bind_of_done bound
    obtain ⟨w', ran, lasts, others, bindings⟩ := ih (frame.declare _ _) (beside.settings ▸ lax)
      (fun e he => ⟨(hl e (by simp [he])).1, (hl e (by simp [he])).2.1, later.suits (hl e (by simp [he])).2.2⟩)
      names.2
      (fun e he => by rw [vars, Table.get?_put_ne _ _ (apart e he)]; exact new e (by simp [he]))
      fun before q k after c σ' hsplit ht hb =>
        hp ((p, a) :: before) q k after c σ' (by rw [hsplit]; rfl) ht ((step before).trans hb)
    refine ⟨w', (step rest).trans ran, later.trans lasts, fun name hname => ?_, fun e he => ?_⟩
    · have hn : p.name ≠ name ∧ name ∉ rest.map fun e => e.1.name := by simpa [eq_comm] using hname
      rw [others name hn.2, vars, Table.get?_put_ne _ _ hn.1]
    · rcases List.mem_cons.mp he with rfl | he
      · refine ⟨v, ?_, w, w₁, run, .refl w, (w₁.lasting_declare _ _ _).trans lasts, fun _ => rfl⟩
        rw [others p.name names.1, vars, Table.get?_put_self]
      · obtain ⟨x, stored, converts⟩ := bindings e he
        have suits := hl e (by simp [he])
        exact ⟨x, stored, converts.earlier later lasts suits.2.2 suits.1⟩

/-- The best method for the types of some arguments takes these arguments. The parameters become
variables of the scope that is made for the call, each with its declared type and the value that its
argument converts to. -/
theorem found_method_binds {w w₁ w₂ : World} {s t : ScopeId} {name : String} {args : List Value} {m : Method} {frame : Scope}
    (found : (Run.findMethod s name (w.typesOf args)).run w = .done (some m) w₁) (scripted : m.member = none)
    (wrapped : ∀ a ∈ args, w₁.isWrapped a) (distinct : (m.params.map MethodParam.name).Nodup)
    (lax : w₁.settings.strict = false) (plain : frame.Plain) (entered : (Run.newScope frame).run w₁ = .done t w₂)
    (caller : Node) (r : StackRef) (proxies : MakesProxies t m.name caller (m.params.zip args) ⟨w₂, r⟩) :
    m.params.length = args.length ∧
      ∃ w', bindArguments t m args caller ⟨w₂, r⟩ = .done () ⟨w', r⟩ ∧
        ∀ e ∈ m.params.zip args, ∃ v, (w'.scope t).vars.get? e.1.name = some (e.1.variable v) ∧
          w₂.Converts w' e.2 e.1.type v ∧ (e.1.type = .untyped → v = e.2) := by
  have applicable := ((Run.findMethod_findsOffered s w).of_done found m rfl).applicable scripted
  have searched : w.Lasting w₁ := ((Action.meets_calm _ w).of_done found).lasting
  have lasting : w₁.Lasting w₂ := ((Action.meets_calm _ w₁).of_done entered).lasting
  obtain ⟨length, assignable⟩ := Method.takes_of_signatureAssignable applicable
  have suits : ∀ e ∈ m.params.zip args, e.2 ≠ .void ∧ e.2 ≠ .none ∧ w₂.Suits e.2 e.1.type := by
    intro e he
    have wrap := wrapped e.2 (List.of_mem_zip he).2
    refine ⟨fun hv => ?_, fun hv => ?_, lasting.suits (World.suits_of_isWrapped searched wrap (assignable e he))⟩
    · rw [hv] at wrap
      cases wrap
    · rw [hv] at wrap
      cases wrap
  obtain ⟨isFrame, empty, settings⟩ := Run.isFrame_of_newScope plain entered
  have names : ((m.params.zip args).map fun e => e.1.name).Nodup := by
    have params : (m.params.zip args).map Prod.fst = m.params := List.map_fst_zip (Nat.le_of_eq length)
    rw [← params, List.map_map] at distinct
    exact distinct
  obtain ⟨w', ran, -, -, bindings⟩ := bindParameters_frame isFrame (settings ▸ lax) suits names
    (fun e _ => by rw [empty]; rfl) m.name caller r proxies
  refine ⟨length, w', ?_, fun e he => ?_⟩
  · unfold bindArguments
    rw [if_neg (by simp [length]), ran]
  · obtain ⟨v, stored, converts⟩ := bindings e he
    refine ⟨v, stored, converts, fun loose => ?_⟩
    rw [loose] at converts
    exact converts.eq_of_untyped

/-- A world whose global scope declares a method `f` for any values, and one for a walk, a long
number and any value. -/
def overloaded : World where
  scopes := #[{
    name := "global", registry := some 0
    methods := .ofList [("f", [
      { name := "f", home := 0, params := [⟨"a", .untyped, {}⟩, ⟨"n", .untyped, {}⟩, ⟨"x", .untyped, {}⟩] },
      { name := "f", home := 0
        params := [⟨"a", .cls (.core .iterable), {}⟩, ⟨"n", .prim .long, {}⟩, ⟨"x", .untyped, {}⟩] }])] }]
  registries := #[{}]

theorem found_method_binds_converting :
    let args : List Value := [.closure 0, .boxed (.int 5) 0, .null]
    let params : List MethodParam := [⟨"a", .cls (.core .iterable), {}⟩, ⟨"n", .prim .long, {}⟩, ⟨"x", .untyped, {}⟩]
    let frame : Scope := { parent := some 0, isMethod := true }
    ∃ m t w w', (Run.findMethod 0 "f" (overloaded.typesOf args)).run overloaded = .done (some m) overloaded ∧
      m.params = params ∧ (Run.newScope frame).run overloaded = .done t w ∧
      bindArguments t m args .absent ⟨w, .own ⟨[0]⟩⟩ = .done () ⟨w', .own ⟨[0]⟩⟩ ∧
      (w'.scope t).vars.get? "n" = some { type := .prim .long, value := some (.boxed (.long 5) 0) } ∧
      (w'.scope t).vars.get? "x" = some { value := some .null } := by
  intro args params frame
  let m : Method := { name := "f", home := 0, params }
  have found : (Run.findMethod 0 "f" (overloaded.typesOf args)).run overloaded = .done (some m) overloaded := rfl
  let w : World := { overloaded with scopes := overloaded.scopes.push frame }
  have entered : (Run.newScope frame).run overloaded = .done 1 w := rfl
  have made : ((Run.proxyOf 0 [.core .iterable]).run w).isDone := by decide +kernel
  have proxies : MakesProxies 1 m.name .absent (m.params.zip args) ⟨w, .own ⟨[0]⟩⟩ := by
    intro before p k after c σ' split type ran
    cases before with
    | nil =>
      cases split
      cases type
      cases ran
      obtain ⟨v, w', done⟩ := Outcome.exists_of_isDone made
      exact Comp.gives_iff.mpr ⟨v, w', done, trivial⟩
    | cons e rest => cases rest with
      | nil => cases split
      | cons e rest => cases rest with
        | nil => cases split
        | cons e rest => cases rest <;> cases split
  obtain ⟨-, w', bound, bindings⟩ :=
    found_method_binds found rfl (by decide) (by decide) rfl ⟨rfl, rfl, rfl⟩ entered .absent (.own ⟨[0]⟩) proxies
  refine ⟨m, 1, w, w', found, rfl, entered, bound, ?_, ?_⟩
  · have second : (⟨"n", .prim .long, {}⟩, .boxed (.int 5) 0) ∈ m.params.zip args := by simp [m, params, args]
    obtain ⟨v, stored, ⟨w₁, w₂, run, -, -, first⟩, -⟩ := bindings _ second
    cases first nofun
    cases run
    exact stored
  · have third : (⟨"x", .untyped, {}⟩, .null) ∈ m.params.zip args := by simp [m, params, args]
    obtain ⟨v, stored, -, loose⟩ := bindings _ third
    cases loose rfl
    exact stored

end Evaluator

end ScriptCore
