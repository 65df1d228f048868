import ScriptCore.Interpreter
import ScriptCore.Proofs.Selection

namespace ScriptCore

namespace Node

variable {p : String → Bool}

mutual

def usesOnly (p : String → Bool) : Node → Bool
  | name _ path => p path
  | invocation _ path args => p path && allUseOnly p args
  | absent | hostCall | unknown _ | literal .. | typeRef .. | fieldSuffix .. | classSuffix _ | param ..
  | «break» .. | «continue» .. | importDecl .. | packageDecl .. => true
  | indexSuffix _ n | propertySuffix _ n | unary _ _ n _ | cast _ _ n | label _ n | «return» _ n | throw _ n
  | catchClause _ _ n | declarator _ _ n _ | methodDecl _ _ _ n _ _ | classDecl _ _ n _ _ _ _ => usesOnly p n
  | callSuffix _ _ ns | arrayInit _ ns | varDecl _ _ ns _ | exprList _ ns => allUseOnly p ns
  | primary _ n ns | allocation _ _ ns n | arrayAlloc _ _ ns n | block _ ns n | switch _ n ns =>
    usesOnly p n && allUseOnly p ns
  | assignment _ m _ n | binary _ m _ n | whileLoop _ m n _ | forEach _ _ m n _ _ => usesOnly p m && usesOnly p n
  | ternary _ l m n | ifElse _ l m n => usesOnly p l && usesOnly p m && usesOnly p n
  | forLoop _ ls m ns n => allUseOnly p ls && usesOnly p m && allUseOnly p ns && usesOnly p n
  | tryCatch _ m ns n => usesOnly p m && allUseOnly p ns && usesOnly p n

def allUseOnly (p : String → Bool) : List Node → Bool
  | [] => true
  | n :: rest => usesOnly p n && allUseOnly p rest

end

@[simp] theorem allUseOnly_iff {ns : List Node} : allUseOnly p ns ↔ ∀ n ∈ ns, n.usesOnly p := by
  induction ns with
  | nil => simp [allUseOnly]
  | cons n rest ih => simp [allUseOnly, ih]

mutual

theorem usesOnly_true (n : Node) : n.usesOnly fun _ => true := by
  cases n <;> simp only [usesOnly, Bool.and_eq_true] <;>
    first
      | trivial
      | simp only [usesOnly_true, allUseOnly_true, and_self]

theorem allUseOnly_true (ns : List Node) : allUseOnly (fun _ => true) ns := by
  cases ns with
  | nil => rfl
  | cons n rest => simp only [allUseOnly, usesOnly_true n, allUseOnly_true rest, Bool.and_self]

end

end Node

namespace ClassBody

theorem nodes_add (cls : String) (isInterface : Bool) (b : ClassBody) (n : Node) :
    (b.add cls isInterface n).nodes ⊆ n :: b.nodes := by
  intro m hm
  unfold add at hm
  split at hm
  · simp only [nodes, List.mem_append, List.mem_cons] at hm ⊢; grind
  · simp only [nodes, List.mem_append, List.mem_cons] at hm ⊢; grind
  · simp only [nodes, List.mem_append, List.mem_cons] at hm ⊢; grind
  · simp only [nodes, List.mem_append, List.mem_cons] at hm ⊢; grind

theorem nodes_ofStatements (cls : String) (isInterface : Bool) (ss : List Node) :
    (ofStatements cls isInterface ss).nodes ⊆ ss := by
  have fold : ∀ (ss : List Node) (b : ClassBody), (ss.foldl (add cls isInterface) b).nodes ⊆ b.nodes ++ ss := by
    intro ss
    induction ss with
    | nil => intro b; simp
    | cons n rest ih =>
      intro b m hm
      rcases List.mem_append.mp (ih (b.add cls isInterface n) hm) with h | h
      · rcases List.mem_cons.mp (nodes_add cls isInterface b n h) with rfl | h
        · simp
        · simp [h]
      · simp [h]
  exact fold ss {}

theorem isClassDecl_of_nested {cls : String} {isInterface : Bool} {ss : List Node} {n : Node}
    (h : n ∈ (ofStatements cls isInterface ss).nested) : n.isClassDecl := by
  have fold : ∀ (ss : List Node) (b : ClassBody), (∀ m ∈ b.nested, m.isClassDecl) →
      ∀ m ∈ (ss.foldl (add cls isInterface) b).nested, m.isClassDecl := by
    intro ss
    induction ss with
    | nil => exact fun b hb => hb
    | cons s rest ih =>
      refine fun b hb => ih _ fun m hm => ?_
      unfold add at hm
      repeat' split at hm
      all_goals simp only [List.mem_append, List.mem_singleton] at hm
      all_goals grind [Node.isClassDecl]
  exact fold ss {} nofun n h

end ClassBody

namespace World

variable {p : Node → Prop} {w : World}

theorem holds_iff {n : Node} :
    w.Holds n ↔ n ∈ w.scopes.toList.flatMap Scope.code ++ w.objects.toList.flatMap Obj.code ++
      w.classes.toList.flatMap MadeClass.code := by
  simp only [List.mem_append, List.mem_flatMap, Array.mem_toList_iff]
  constructor
  · rintro (⟨x, hx, hn⟩ | ⟨x, hx, hn⟩ | ⟨x, hx, hn⟩)
    · exact .inl (.inl ⟨x, hx, hn⟩)
    · exact .inl (.inr ⟨x, hx, hn⟩)
    · exact .inr ⟨x, hx, hn⟩
  · rintro ((⟨x, hx, hn⟩ | ⟨x, hx, hn⟩) | ⟨x, hx, hn⟩)
    · exact .scope x hx hn
    · exact .object x hx hn
    · exact .cls x hx hn

def KeepsOnly (p : Node → Prop) (w : World) : Prop := ∀ n, w.Holds n → p n

instance [DecidablePred p] (w : World) : Decidable (w.KeepsOnly p) :=
  decidable_of_iff (∀ n ∈ w.scopes.toList.flatMap Scope.code ++ w.objects.toList.flatMap Obj.code ++
    w.classes.toList.flatMap MadeClass.code, p n) (forall_congr' fun _ => by rw [holds_iff])

theorem KeepsOnly.of_inert {w w' : World} (h : w.KeepsOnly p) (k : w.Inert w') : w'.KeepsOnly p :=
  fun n hn => h n (k.code n hn)

theorem holdsMember_of_script {c : ClassRef} {part : ScriptPart} (hs : w.script? c = some part)
    {n : Node} (hn : n ∈ part.body.nodes) : w.HoldsMember n := by
  cases c with
  | made k =>
    cases hk : w.classes[k]? with
    | none => simp [script?, made, hk] at hs
    | some c =>
      simp only [script?, made, hk, Option.getD_some] at hs
      exact ⟨c, Array.mem_of_getElem? hk, by simpa [MadeClass.code, hs] using hn⟩
  | _ => cases hs

theorem KeepsOnly.classMethod (h : w.KeepsOnly p) {i : ObjectId} {e : ClassRef × List Method}
    {m : Method} (he : e ∈ (w.obj i).classMethods) (hm : m ∈ e.2) : p m.body := by
  cases hi : w.objects[i]? with
  | none => simp [obj, hi] at he; cases he
  | some o =>
    simp only [obj, hi, Option.getD_some] at he
    exact h _ (.object o (Array.mem_of_getElem? hi) (List.mem_map_of_mem (List.mem_flatMap.mpr ⟨e, he, hm⟩)))

theorem KeepsOnly.keptMethod (h : w.KeepsOnly p) {k : ClassRef} {self : Value} {m : Method}
    (hm : m ∈ Evaluator.keptMethods w k self) : p m.body := by
  cases self with
  | object i =>
    cases hf : (w.obj i).classMethods.find? fun e => decide (e.1 = k) with
    | none => simp [Evaluator.keptMethods, hf] at hm
    | some e =>
      simp only [Evaluator.keptMethods, hf, Option.map_some, Option.getD_some] at hm
      exact h.classMethod (List.mem_of_find?_eq_some hf) hm
  | _ => cases hm

theorem KeepsOnly.method (h : w.KeepsOnly p) {s : ScopeId} {m : Method}
    (hm : m ∈ (w.scope s).methods.values.flatten) : p m.body := by
  cases hs : w.scopes[s]? with
  | none => simp [scope, hs, Table.values] at hm
  | some x =>
    simp only [scope, hs, Option.getD_some] at hm
    exact h _ (.scope x (Array.mem_of_getElem? hs) (List.mem_map_of_mem hm))

theorem KeepsOnly.of_entries {w w' : World} (h : w.KeepsOnly p)
    (hs : ∀ y ∈ w'.scopes, ∀ n ∈ y.code, (∃ x ∈ w.scopes, n ∈ x.code) ∨ p n)
    (ho : ∀ y ∈ w'.objects, ∀ n ∈ y.code, (∃ x ∈ w.objects, n ∈ x.code) ∨ p n)
    (hc : ∀ y ∈ w'.classes, ∀ n ∈ y.code, (∃ x ∈ w.classes, n ∈ x.code) ∨ p n) : w'.KeepsOnly p := by
  rintro n (⟨y, hy, hn⟩ | ⟨y, hy, hn⟩ | ⟨y, hy, hn⟩)
  · rcases hs y hy n hn with ⟨x, hx, hn⟩ | hn
    · exact h n (.scope x hx hn)
    · exact hn
  · rcases ho y hy n hn with ⟨x, hx, hn⟩ | hn
    · exact h n (.object x hx hn)
    · exact hn
  · rcases hc y hy n hn with ⟨x, hx, hn⟩ | hn
    · exact h n (.cls x hx hn)
    · exact hn

theorem code_modify {α : Type} {code : α → List Node} {a : Array α} {i : Nat} {f : α → α}
    (hf : ∀ x, ∀ n ∈ code (f x), n ∈ code x ∨ p n) :
    ∀ y ∈ a.modify i f, ∀ n ∈ code y, (∃ x ∈ a, n ∈ code x) ∨ p n := by
  intro y hy n hn
  obtain ⟨j, hj⟩ := Array.mem_iff_getElem?.mp hy
  rw [Array.getElem?_modify] at hj
  split at hj
  · obtain ⟨x, hx, rfl⟩ := Option.map_eq_some_iff.mp hj
    exact (hf x n hn).imp_left fun hn => ⟨x, Array.mem_of_getElem? hx, hn⟩
  · exact .inl ⟨y, Array.mem_of_getElem? hj, hn⟩

theorem KeepsOnly.modifyScope (h : w.KeepsOnly p) (s : ScopeId) {f : Scope → Scope}
    (hf : ∀ x, ∀ n ∈ (f x).code, n ∈ x.code ∨ p n) : (w.modifyScope s f).KeepsOnly p :=
  h.of_entries (code_modify hf) (fun y hy _ hn => .inl ⟨y, hy, hn⟩) fun y hy _ hn => .inl ⟨y, hy, hn⟩

theorem KeepsOnly.modifyObj (h : w.KeepsOnly p) (i : ObjectId) {f : Obj → Obj}
    (hf : ∀ o, ∀ n ∈ (f o).code, n ∈ o.code ∨ p n) : (w.modifyObj i f).KeepsOnly p :=
  h.of_entries (fun y hy _ hn => .inl ⟨y, hy, hn⟩) (code_modify hf) fun y hy _ hn => .inl ⟨y, hy, hn⟩

theorem KeepsOnly.modifyMade (h : w.KeepsOnly p) (k : Nat) {f : MadeClass → MadeClass}
    (hf : ∀ c, ∀ n ∈ (f c).code, n ∈ c.code ∨ p n) : (w.modifyMade k f).KeepsOnly p :=
  h.of_entries (fun y hy _ hn => .inl ⟨y, hy, hn⟩) (fun y hy _ hn => .inl ⟨y, hy, hn⟩) (code_modify hf)

end World

namespace Run

theorem mem_addOverload {ms : List Method} {m x : Method} (h : x ∈ addOverload ms m) : x = m ∨ x ∈ ms := by
  induction ms with
  | nil => simpa [addOverload] using h
  | cons y rest ih =>
    unfold addOverload at h
    split at h
    · rcases List.mem_cons.mp h with rfl | h
      · exact .inl rfl
      · exact .inr (List.mem_cons_of_mem _ h)
    · rcases List.mem_cons.mp h with rfl | h
      · exact .inr List.mem_cons_self
      · exact (ih h).imp_right (List.mem_cons_of_mem _)

theorem code_addMethod (x : Scope) (m : Method) :
    ∀ n ∈ ({ x with methods := x.methods.put m.name (addOverload ((x.methods.get? m.name).getD []) m) } : Scope).code,
      n ∈ x.code ∨ n = m.body := by
  intro n hn
  obtain ⟨y, hy, rfl⟩ := List.mem_map.mp hn
  obtain ⟨ms, hms, hy⟩ := List.mem_flatten.mp hy
  rcases Table.mem_values_put hms with rfl | hms
  · rcases mem_addOverload hy with rfl | hy
    · exact .inr rfl
    · cases hg : x.methods.get? m.name with
      | none => rw [hg] at hy; cases hy
      | some old =>
        rw [hg] at hy
        exact .inl (List.mem_map_of_mem (List.mem_flatten.mpr ⟨old, Table.mem_values_of_get? hg, hy⟩))
  · exact .inl (List.mem_map_of_mem (List.mem_flatten.mpr ⟨ms, hms, hy⟩))

def FindsKept {may : May} {t : Tier} (x : Action may t (Option Method)) : Prop :=
  ∀ w, x.run.Meets w (fun r _ => ∀ m, r = some m → m.body = .absent ∨ w.Holds m.body) fun _ _ => True

theorem FindsOffered.kept {name : String} {types : List Ty} {x : Faulty (Option Method)}
    (h : FindsOffered name types x) : FindsKept x := by
  intro w
  refine ((h w).and (x.meets w)).impDone fun r w' hr m hm => ?_
  exact (hr.1 m hm).holds.imp_right (hr.2.toCalm.inert.code _)

end Run

end ScriptCore
