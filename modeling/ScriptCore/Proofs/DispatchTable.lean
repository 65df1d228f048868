import Mathlib.Data.List.Forall2
import ScriptCore.Proofs.Cloning

namespace ScriptCore

namespace Table

variable {α : Type}

theorem keys_update (l : List (String × α)) (k : String) (v : α) :
    (update l k v).map Prod.fst = if k ∈ l.map Prod.fst then l.map Prod.fst else l.map Prod.fst ++ [k] := by
  induction l with
  | nil => rfl
  | cons e rest ih =>
    obtain ⟨n, x⟩ := e
    by_cases same : n = k
    · simp [update, same]
    · simp only [update, if_neg same, List.map_cons, ih, List.mem_cons, Ne.symm same, false_or]
      split <;> rfl

theorem nodup_keys_put {t : Table α} (h : t.keys.Nodup) (k : String) (v : α) : (t.put k v).keys.Nodup := by
  rw [keys, put, keys_update]
  split
  · exact h
  · next new => exact List.nodup_append.mpr ⟨h, by simp, fun a ha b hb same => new (by simp_all [keys])⟩

end Table

namespace ClassBody

/-- Whether a statement in the body of a class declares a method of its instances that has a body:
one that is not static, not abstract, not a constructor, and in an interface a default method. -/
def declaresMethod (cls : String) (isInterface : Bool) : Node → Bool
  | .methodDecl _ method _ _ returnType modifiers =>
    !modifiers.contains "static" && !(method = cls && returnType.isAbsent) && !modifiers.contains
      "abstract" && (!isInterface || modifiers.contains "default")
  | _ => false

theorem methods_add (cls : String) (isInterface : Bool) (b : ClassBody) (n : Node) :
    (add cls isInterface b n).methods = b.methods ++ [n].filter (declaresMethod cls isInterface) := by
  unfold add
  split
  · simp [declaresMethod]
  · split
    · next static => simp_all [declaresMethod]
    · split
      · next constructs => simp_all [declaresMethod]
      · split
        · next bodiless =>
          rcases (Bool.or_eq_true _ _).mp bodiless with marked | bare <;> simp_all [declaresMethod]
        · rw [List.filter_cons_of_pos, List.filter_nil]
          cases isInterface <;> simp_all [declaresMethod] <;> exact Decidable.imp_iff_not_or.mp ‹_›
  · split <;> simp [declaresMethod]
  · next other _ _ => simp [declaresMethod]

theorem methods_ofStatements (cls : String) (isInterface : Bool) (statements : List Node) :
    (ofStatements cls isInterface statements).methods = statements.filter (declaresMethod cls isInterface) := by
  have fold (b : ClassBody) : (statements.foldl (add cls isInterface) b).methods =
      b.methods ++ statements.filter (declaresMethod cls isInterface) := by
    induction statements generalizing b with
    | nil => simp
    | cons n rest ih =>
      rw [List.foldl_cons, ih, methods_add, List.append_assoc, ← List.filter_append]
      rfl
  exact fold {}

end ClassBody

namespace Method

def hasSignature (name : String) (types : List Ty) (m : Method) : Bool := m.name = name && m.paramTypes = types

end Method

namespace Run

variable {ms : List Method} {m : Method} {types : List Ty}

theorem filter_addOverload_self (distinct : (ms.map Method.paramTypes).Nodup) (m : Method) :
    (addOverload ms m).filter (fun x => x.paramTypes = m.paramTypes) = [m] := by
  induction ms with
  | nil => simp [addOverload]
  | cons x rest ih =>
    obtain ⟨new, distinct⟩ := List.nodup_cons.mp distinct
    unfold addOverload
    split
    · next same =>
      rw [List.filter_cons_of_pos (by simp), List.filter_eq_nil_iff.mpr fun y hy => ?_]
      rw [decide_eq_true_eq]
      exact fun equal => new (List.mem_map.mpr ⟨y, hy, equal.trans same.symm⟩)
    · next other => rw [List.filter_cons_of_neg (by simpa using other), ih distinct]

theorem filter_addOverload_ne (other : m.paramTypes ≠ types) :
    (addOverload ms m).filter (fun x => x.paramTypes = types) = ms.filter fun x => x.paramTypes = types := by
  induction ms with
  | nil => simp [addOverload, other]
  | cons x rest ih =>
    unfold addOverload
    split
    · next same => simp [other, same]
    · rw [List.filter_cons, List.filter_cons, ih]

theorem nodup_addOverload (distinct : (ms.map Method.paramTypes).Nodup) (m : Method) :
    ((addOverload ms m).map Method.paramTypes).Nodup := by
  induction ms with
  | nil => simp [addOverload]
  | cons x rest ih =>
    obtain ⟨new, later⟩ := List.nodup_cons.mp distinct
    unfold addOverload
    split
    · next same => simpa [← same] using distinct
    · next other =>
      refine List.nodup_cons.mpr ⟨fun hx => ?_, ih later⟩
      obtain ⟨y, hy, types⟩ := List.mem_map.mp hx
      rcases mem_addOverload hy with rfl | hy
      · exact other types.symm
      · exact new (List.mem_map.mpr ⟨y, hy, types⟩)

end Run

namespace World

variable {w w' : World} {s : ScopeId} {m : Method}

theorem Filed.overloads (h : w.Filed s) (name : String) :
    (∀ m ∈ w.overloads s name, m.name = name) ∧ ((w.overloads s name).map Method.paramTypes).Nodup := by
  unfold World.overloads
  cases found : (w.scope s).methods.get? name with
  | none => simp
  | some ms => exact ⟨h.named _ (Table.mem_of_lookup found), h.distinct _ (Table.mem_of_lookup found)⟩

theorem methods_setMethod (inside : s < w.scopes.size) (plain : (w.scope s).isBlock = false)
    (h : Run.setMethod s m w = .done () w') :
    (w'.scope s).methods = (w.scope s).methods.put m.name (Run.addOverload (w.overloads s m.name) m) := by
  rw [Run.run_setMethod, enclosing_of_not_isBlock plain] at h
  cases h
  rw [scope_forgetting, withMethod, scope_modifyScope, if_pos ⟨rfl, inside⟩]
  rfl

theorem Filed.setMethod (h : w.Filed s) (inside : s < w.scopes.size) (plain : (w.scope s).isBlock = false)
    (run : Run.setMethod s m w = .done () w') : w'.Filed s := by
  have table := methods_setMethod inside plain run
  obtain ⟨own, apart⟩ := h.overloads m.name
  refine ⟨?_, fun e he => ?_, fun e he => ?_⟩
  · rw [table]
    exact Table.nodup_keys_put h.keys _ _
  · rw [table] at he
    rcases Table.mem_update he with rfl | old
    · intro x hx
      rcases Run.mem_addOverload hx with rfl | hx
      · rfl
      · exact own x hx
    · exact h.named e old
  · rw [table] at he
    rcases Table.mem_update he with rfl | old
    · exact Run.nodup_addOverload apart m
    · exact h.distinct e old

end World

namespace Evaluator

def scriptedMro (w : World) (c : ClassRef) : List (ClassRef × ScriptPart) :=
  (w.mro c).filterMap fun k => (w.script? k).map fun s => (k, s)

theorem scriptedChain_eq (w : World) (c : ClassRef) :
    scriptedChain w c = (scriptedMro w c).reverse := List.filterMap_reverse

/-- The method for a signature, given the methods that each class of a hierarchy declares: the first
class that declares one provides it, and within the class the last declaration. -/
def dispatched (built : List (List Method)) (name : String) (types : List Ty) : Option Method :=
  built.findSome? fun ms => ms.findRev? (Method.hasSignature name types)

theorem dispatched_eq (built : List (List Method)) (name : String) (types : List Ty) :
    dispatched built name types = (built.map List.reverse).flatten.find? (Method.hasSignature name types) := by
  simp only [dispatched, List.find?_flatten, List.findSome?_map, List.findRev?_eq_find?_reverse, Function.comp_def]

/-- The scope holds the latest declaration of each signature, and nothing else. The declarations are
listed from the latest to the first. -/
structure Stocked (w : World) (s : ScopeId) (latest : List Method) : Prop where
  inside : s < w.scopes.size
  plain : (w.scope s).isBlock = false
  filed : w.Filed s
  held : ∀ name types, (w.overloads s name).filter (fun m => m.paramTypes = types) =
    (latest.find? (Method.hasSignature name types)).toList

namespace Stocked

variable {w w' : World} {s : ScopeId} {latest : List Method} {m : Method}

theorem of_scopes (h : Stocked w s latest) (same : w'.scopes = w.scopes) : Stocked w' s latest := by
  have scope : w'.scope s = w.scope s := by rw [World.scope, World.scope, same]
  refine ⟨same ▸ h.inside, scope ▸ h.plain, h.filed.of_scope (by rw [scope]), fun name types => ?_⟩
  rw [World.overloads, scope]
  exact h.held name types

theorem setMethod (h : Stocked w s latest) (run : Run.setMethod s m w = .done () w') : Stocked w' s (m :: latest) := by
  have table := Run.overloads_setMethod h.inside h.plain run
  have moved : w.scopes.size ≤ w'.scopes.size ∧ (w'.scope s).isBlock = (w.scope s).isBlock := by
    rw [Run.run_setMethod] at run
    cases run
    constructor
    · exact (w.anchored_withMethod (w.enclosing s) m).size
    · rw [World.scope_forgetting, World.withMethod, World.scope_modifyScope]
      split <;> rfl
  refine ⟨Nat.lt_of_lt_of_le h.inside moved.1, moved.2.trans h.plain, h.filed.setMethod h.inside
    h.plain run, fun name types => ?_⟩
  rw [table]
  by_cases here : name = m.name
  · subst here
    rw [if_pos rfl]
    by_cases same : m.paramTypes = types
    · subst same
      rw [Run.filter_addOverload_self (h.filed.overloads m.name).2, List.find?_cons_of_pos (by simp [Method.hasSignature])]
      rfl
    · rw [Run.filter_addOverload_ne same, h.held, List.find?_cons_of_neg (by simp [Method.hasSignature, same])]
  · rw [if_neg here, h.held, List.find?_cons_of_neg (by simp [Method.hasSignature, Ne.symm here])]

end Stocked

variable {σ : EvalState} {inst : ScopeId} {latest : List Method}

theorem stocked_declareOne (h : Stocked σ.world inst latest) (k : ClassRef) (decl : Node) :
    (declareOne inst k decl).Meets σ
    (fun m σ' => Stocked σ'.world inst (m :: latest) ∧ BuiltFor inst k decl m) fun _ _ => True := by
  unfold declareOne
  rw [Comp.meets_bind]
  refine ((Comp.meets_self _ σ).and (keepsMembers_buildMethod decl inst σ)).impDone ?_
  rintro m' τ ⟨built, same, -⟩
  exact ⟨(h.of_scopes same).setMethod rfl, m', σ, τ, built, rfl⟩

theorem stocked_declareAll (h : Stocked σ.world inst latest) (k : ClassRef) (decls : List Node) :
    (collect decls (declareOne inst k)).Meets σ (fun ms σ' =>
      Stocked σ'.world inst (ms.reverse ++ latest) ∧ List.Forall₂ (BuiltFor inst k) decls ms) fun _ _ => True := by
  induction decls generalizing σ latest with
  | nil => exact ⟨h, .nil⟩
  | cons decl rest ih =>
    unfold collect
    simp only [Comp.meets_bind]
    refine (stocked_declareOne h k decl).impDone fun m τ ⟨first, built⟩ => ?_
    refine (ih first).impDone fun ms υ ⟨later, others⟩ => ?_
    exact ⟨by simpa using later, .cons built others⟩

theorem stocked_chain (h : Stocked σ.world inst latest) (i : ObjectId) (chain : List (ClassRef × ScriptPart)) :
    (forEach chain fun e => declareMethods i inst e.1 e.2.body).Meets σ (fun _ σ' => ∃ built,
      List.Forall₂ (fun e ms => List.Forall₂ (BuiltFor inst e.1) e.2.body.methods ms) chain.reverse built ∧
        Stocked σ'.world inst ((built.map List.reverse).flatten ++ latest)) fun _ _ => True := by
  induction chain generalizing σ latest with
  | nil => exact ⟨[], .nil, h⟩
  | cons e rest ih =>
    unfold forEach declareMethods
    simp only [Comp.meets_bind]
    refine (stocked_declareAll h e.1 e.2.body.methods).impDone fun ms τ ⟨stocked, own⟩ => ?_
    -- The list of methods that the object keeps is not in a scope.
    have kept : Stocked (τ.world.modifyObj i fun o => { o with classMethods := o.classMethods ++ [(e.1, ms)] }) inst
        (ms.reverse ++ latest) := stocked.of_scopes rfl
    refine (ih (σ := ⟨_, τ.running⟩) kept).impDone fun _ υ ⟨built, others, all⟩ => ?_
    refine ⟨built ++ [ms], ?_, by simpa using all⟩
    rw [List.reverse_cons]
    exact List.rel_append others (.cons own .nil)

variable {w w' : World} {c : ClassRef} {i : ObjectId}

theorem SetUp.stocked (h : SetUp c i inst w w') : ∃ built,
    List.Forall₂ (fun e ms => List.Forall₂ (BuiltFor inst e.1) e.2.body.methods ms) (scriptedMro w c) built ∧
      Stocked w' inst (built.map List.reverse).flatten := by
  obtain ⟨made, linked, entered, declared⟩ := h
  rename_i w₁ w₂ σ σ'
  obtain ⟨-, inside, empty, notBlock⟩ := blank_of_linked made linked
  have start : Stocked w₂ inst [] := by
    refine ⟨inside, notBlock, ⟨?_, ?_, ?_⟩, fun name types => ?_⟩
    · rw [empty]
      exact List.nodup_nil
    · simp [empty]
    · simp [empty]
    · rw [World.overloads, empty]
      rfl
  obtain ⟨built, parts, all⟩ := (stocked_chain (start.of_scopes entered) i (scriptedChain w c)).of_done declared
  rw [scriptedChain_eq, List.reverse_reverse] at parts
  exact ⟨built, parts, by simpa using all⟩

theorem Stocked.find?_eq_some {s : ScopeId} {m : Method} (h : Stocked w s latest)
    (hm : m ∈ (w.scope s).methods.values.flatten) : latest.find? (Method.hasSignature m.name m.paramTypes) = some m := by
  have here : m ∈ w.overloads s m.name := by
    rw [← h.filed.filter]
    exact List.mem_filter.mpr ⟨hm, by simp⟩
  have only : m ∈ (w.overloads s m.name).filter fun x => x.paramTypes = m.paramTypes := List.mem_filter.mpr ⟨here, by simp⟩
  rw [h.held, Option.mem_toList] at only
  exact only

/-- The construction of an instance begins with its scope as the dispatch table of its class. The
scope has, for each name and parameter types, the method that the first scripted class in the order
of lookup declares, the last one if that class declares several. It has no other methods, and each
stands under its own name. -/
theorem instance_scope_is_dispatch_table (ev : Evaluator) (setUp : SetUp c i inst w w') :
    (∀ args caller σ σ', ev.setUpScripted (.object i) c args caller σ = .done () σ' →
      ∃ inst w', SetUp c i inst σ.world w') ∧
    (∀ cls isInterface statements, (ClassBody.ofStatements cls isInterface statements).methods =
      statements.filter (ClassBody.declaresMethod cls isInterface)) ∧
    ∃ built : List (List Method),
      List.Forall₂ (fun e ms => List.Forall₂ (BuiltFor inst e.1) e.2.body.methods ms) (scriptedMro w c) built ∧
      (∀ name types, (w'.overloads inst name).filter (fun m => m.paramTypes = types) =
        (dispatched built name types).toList) ∧
      (∀ m ∈ (w'.scope inst).methods.values.flatten, dispatched built m.name m.paramTypes = some m) ∧ w'.Filed inst := by
  obtain ⟨built, parts, stocked⟩ := setUp.stocked
  refine ⟨fun args caller σ σ' done => (setUp_of_setUpScripted ev c i args caller σ).of_done done,
    ClassBody.methods_ofStatements, built, parts, fun name types => ?_, fun m hm => ?_, stocked.filed⟩
  · rw [dispatched_eq]
    exact stocked.held name types
  · rw [dispatched_eq]
    exact stocked.find?_eq_some hm

/-- An interface with default methods `rank` and `label`, a class with `rank` and an overload of it
for a number, and a class that extends the one and implements the other and declares `rank` twice.
Their static scopes are 1, 2 and 3. -/
def layeredWorld : World where
  scopes := #[{ registry := some 0 }, { parent := some 0, isClass := true }, { parent := some 0, isClass := true },
    { parent := some 0, isClass := true }]
  objects := #[{ cls := .made 2 }]
  classes := #[
    { (default : MadeClass) with
      name := "I"
      script := some { (default : ScriptPart) with
        staticScope := 1, isInterface := true, body := { methods := [givingMethod "rank" 1, givingMethod "label" 2] } } },
    { (default : MadeClass) with
      name := "A"
      script := some { (default : ScriptPart) with
        staticScope := 2
        body := { methods := [givingMethod "rank" 3,
          .methodDecl {} "rank" [.param {} "n" (.typeRef {} (.named "int") 0) []] (.blockOf []) .absent []] } } },
    { name := "B", qualname := "B", module := "m", bases := [.made 1, .made 0]
      ancestors := [.made 1, .made 0, .core .object]
      bases_mem := by simp, object_mem := by simp, metaclass := .core .type
      script := some { (default : ScriptPart) with
        staticScope := 3, body := { methods := [givingMethod "rank" 5, givingMethod "rank" 6] } } }]
  registries := #[{}]

/-- What the scope of an instance has there for `rank`: the second declaration of the class itself
and the overload for a number of the class that it extends. The method `label` is that of the
interface. -/
theorem instance_scope_is_dispatch_table_layered : ∃ w',
    SetUp (.made 2) 0 4 layeredWorld w' ∧
    (scriptedMro layeredWorld (.made 2)).map Prod.fst = [.made 2, .made 1, .made 0] ∧
    (w'.overloads 4 "rank").map (fun m => (m.declaringClass, m.paramTypes)) =
      [(some (.made 2), []), (some (.made 1), [.prim .int])] ∧
    (w'.overloads 4 "label").map (fun m => (m.declaringClass, m.paramTypes)) = [(some (.made 0), [])] ∧
    ∃ built : List (List Method),
      List.Forall₂ (fun e ms => List.Forall₂ (BuiltFor 4 e.1) e.2.body.methods ms)
        (scriptedMro layeredWorld (.made 2)) built ∧
      (w'.overloads 4 "rank").filter (fun m => m.paramTypes = []) = (dispatched built "rank" []).toList := by
  obtain ⟨w₁, w₂, made, linked, run⟩ : ∃ w₁ w₂,
      (instanceScope (.made 2)).run layeredWorld = .done 4 w₁ ∧
      (Run.setClassInstance 4 (.object 0)).run w₁ = .done () w₂ ∧
      ((forEach (scriptedChain layeredWorld (.made 2)) fun e => declareMethods 0 4 e.1 e.2.body)
        ⟨w₂, .own ⟨[4, 0]⟩⟩).doneWith fun _ τ =>
          (τ.world.overloads 4 "rank").map (fun m => (m.declaringClass, m.paramTypes)) =
            [(some (.made 2), []), (some (.made 1), [.prim .int])] ∧
          (τ.world.overloads 4 "label").map (fun m => (m.declaringClass, m.paramTypes)) = [(some (.made 0), [])] :=
    ⟨_, _, rfl, rfl, by decide +kernel⟩
  obtain ⟨_, τ, declared, shape⟩ := Outcome.exists_of_doneWith run
  obtain ⟨rank, label⟩ := of_decide_eq_true shape
  have setUp : SetUp (.made 2) 0 4 layeredWorld τ.world := .mk made linked rfl declared
  obtain ⟨-, -, built, parts, held, -⟩ := instance_scope_is_dispatch_table (ofFuel 1) setUp
  exact ⟨τ.world, setUp, rfl, rank, label, built, parts, held "rank" []⟩

end Evaluator

end ScriptCore
