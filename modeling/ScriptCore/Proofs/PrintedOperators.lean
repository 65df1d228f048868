import ScriptCore.Node.Printer

namespace ScriptCore

namespace Printer

/-- The characters that do not part a printed tree; those of dotted names are among them. -/
def isNameChar (c : Char) : Bool := !(['"', '(', ')', ',', ' '].contains c)

def isPath (path : String) : Bool := !path.toList.isEmpty && path.toList.all isNameChar

end Printer

namespace Node

/-- Trees of names, texts, calls and operators. -/
inductive OperatorTree : Node → Prop
  | name {o : Origin} {path : String} (plain : Printer.isPath path) : OperatorTree (.name o path)
  | text {o : Origin} {s : String} {mark : Nat} : OperatorTree (.literal o (.str s mark))
  | call {o : Origin} {path : String} {args : List Node} (plain : Printer.isPath path) (parts :
      ∀ a ∈ args, OperatorTree a) :
      OperatorTree (.invocation o path args)
  | binary {o : Origin} {l r : Node} {op : BinaryOp} (left : OperatorTree l) (known : op ∈ BinaryOp.known)
      (right : OperatorTree r) : OperatorTree (.binary o l op r)

mutual

/-- The tree without where its nodes came from. -/
def bare : Node → Node
  | name _ path => name {} path
  | literal _ (.str s _) => literal {} (.ofString s)
  | invocation _ path args => invocation {} path (bareAll args)
  | binary _ l op r => binary {} l.bare op r.bare
  | n => n

def bareAll : List Node → List Node
  | [] => []
  | n :: rest => n.bare :: bareAll rest

end

end Node

namespace Printer

def unescape : Char → Char
  | 'n' => '\n'
  | 't' => '\t'
  | 'r' => '\r'
  | c => c

def readText : List Char → Option (List Char × List Char)
  | [] => none
  | '"' :: rest => some ([], rest)
  | '\\' :: c :: rest => (readText rest).map fun e => (unescape c :: e.1, e.2)
  | c :: rest => (readText rest).map fun e => (c :: e.1, e.2)

/-- What is read next, if it is shorter than what was read before. -/
def shorter? (cs rest : List Char) : Option { r : List Char // r.length < cs.length } :=
  if h : rest.length < cs.length then some ⟨rest, h⟩ else none

theorem shorter?_eq {cs rest : List Char} (h : rest.length < cs.length) : shorter? cs rest = some ⟨rest, h⟩ := dif_pos h

mutual

def readOperand (cs : List Char) : Option (Node × List Char) :=
  match cs with
  | '(' :: rest => do
    let e ← readTree rest
    pure (e.1, e.2.tail)
  | '"' :: rest => do
    let e ← readText rest
    pure (.literal {} (.ofString (.ofList e.1)), e.2)
  | cs =>
    let path := String.ofList (cs.takeWhile isNameChar)
    match cs.dropWhile isNameChar with
    | '(' :: rest => do
      let ⟨rest, _⟩ ← shorter? cs rest
      let e ← readArguments rest
      pure (.invocation {} path e.1, e.2)
    | rest => pure (.name {} path, rest)
termination_by (cs.length, 0)

def readTree (cs : List Char) : Option (Node × List Char) := do
  let e ← readOperand cs
  match e.2 with
  | ' ' :: rest => do
    let ⟨right, _⟩ ← shorter? cs (rest.dropWhile (· != ' ')).tail
    let e' ← readOperand right
    pure (.binary {} e.1 (.ofSymbol (.ofList (rest.takeWhile (· != ' ')))) e'.1, e'.2)
  | _ => pure e
termination_by (cs.length, 1)

def readArguments (cs : List Char) : Option (List Node × List Char) :=
  match cs with
  | ')' :: rest => pure ([], rest)
  | cs => do
    let e ← readTree cs
    match e.2 with
    | ',' :: rest => do
      let ⟨rest, _⟩ ← shorter? cs rest.tail
      let e' ← readArguments rest
      pure (e.1 :: e'.1, e'.2)
    | rest => pure ([e.1], rest.tail)
termination_by (cs.length, 2)

end

theorem readText_escapeChar (c : Char) (rest : List Char) :
    readText (escapeChar c ++ rest) = (readText rest).map fun e => (c :: e.1, e.2) := by
  unfold escapeChar
  split
  case h_7 backslash quote _ _ _ _ =>
    rw [List.singleton_append, readText]
    · exact quote
    · exact fun _ _ same => absurd same backslash
  all_goals rfl

theorem readText_escaped (s rest : List Char) : readText (s.flatMap escapeChar ++ '"' :: rest) = some (s, rest) := by
  induction s with
  | nil => rfl
  | cons c s ih => rw [List.flatMap_cons, List.append_assoc, readText_escapeChar, ih, Option.map_some]

/-- Where a stretch of characters of one kind ends does not depend on what follows, as long as that
is of another kind. -/
theorem stretch {kind : Char → Bool} {a r : List Char} (ha : ∀ c ∈ a, kind c) (hr : ∀ c ∈ r.head?, kind c = false) :
    (a ++ r).takeWhile kind = a ∧ (a ++ r).dropWhile kind = r := by
  have other : r.takeWhile kind = [] ∧ r.dropWhile kind = r := by
    cases r with
    | nil => exact ⟨rfl, rfl⟩
    | cons c r => simp [hr c rfl]
  rw [List.takeWhile_append_of_pos ha, List.dropWhile_append_of_pos ha, other.1, other.2, List.append_nil]
  exact ⟨rfl, rfl⟩

section

variable (st : Style) (level : Int)

def textOf (n : Node) : List Char := (format st level n).toList

def operandOf (n : Node) : List Char := (parenthesised n (format st level n)).toList

def argumentsOf (args : List Node) : List Char := [',', ' '].intercalate (args.map (textOf st level))

theorem operandOf_name (o : Origin) (path : String) : operandOf st level (.name o path) = path.toList := rfl

theorem operandOf_text (o : Origin) (s : String) (mark : Nat) :
    operandOf st level (.literal o (.str s mark)) = '"' :: (s.toList.flatMap escapeChar ++ ['"']) := by
  change (literalText st (.str s mark)).toList = _
  simp [literalText, escape]

theorem toList_formatAll (args : List Node) : (formatAll st level args).map String.toList = args.map (textOf st level) := by
  induction args with
  | nil => simp [formatAll]
  | cons n args ih => simp [formatAll, textOf, ih]

theorem operandOf_call (o : Origin) (path : String) (args : List Node) :
    operandOf st level (.invocation o path args) = path.toList ++ '(' :: (argumentsOf st level args ++ [')']) := by
  change (path ++ "(" ++ commas (formatAll st level args) ++ ")").toList = _
  simp [commas, argumentsOf, String.toList_intercalate, toList_formatAll]

theorem operandOf_binary (o : Origin) (l r : Node) (op : BinaryOp) :
    operandOf st level (.binary o l op r) = '(' :: (textOf st level (.binary o l op r) ++ [')']) := by
  simp [operandOf, parenthesised, needsParens, textOf]

theorem textOf_binary (o : Origin) (l r : Node) (op : BinaryOp) :
    textOf st level (.binary o l op r) =
      operandOf st level l ++ ' ' :: (op.symbol.toList ++ ' ' :: operandOf st level r) := by
  change (parenthesised l (format st level l) ++ " " ++ op.symbol ++ " " ++ parenthesised r (format st level r)).toList = _
  simp [operandOf]

end

/-- What follows is nothing, or starts with one of the characters. -/
def Follows (after r : List Char) : Prop := ∀ c ∈ r.head?, c ∈ after

def afterOperand : List Char := [' ', ')', ',']

def afterTree : List Char := [')', ',']

theorem Follows.operand {r : List Char} (h : Follows afterTree r) : Follows afterOperand r :=
  fun c hc => List.mem_cons_of_mem _ (h c hc)

theorem Follows.isNameChar {r : List Char} (h : Follows afterOperand r) : ∀ c ∈ r.head?, isNameChar c = false := by
  intro c hc
  have among := h c hc
  simp only [afterOperand, List.mem_cons, List.not_mem_nil, or_false] at among
  rcases among with rfl | rfl | rfl <;> rfl

variable {st : Style} {level : Int} {o : Origin} {path : String} {n : Node} {r rest : List Char}

theorem ne_of_isPath (plain : isPath path) {c : Char} (other : isNameChar c = false) : path.toList ++ r ≠ c :: rest := by
  unfold isPath at plain
  cases chars : path.toList with
  | nil => simp [chars] at plain
  | cons d cs =>
    intro same
    obtain ⟨rfl, -⟩ := List.cons.inj same
    simp [chars, other] at plain

theorem readOperand_path (plain : isPath path) (next : ∀ c ∈ r.head?, isNameChar c = false) :
    readOperand (path.toList ++ r) = if r.head? = some '(' then do
        let e ← readArguments r.tail
        pure (.invocation {} path e.1, e.2)
      else pure (.name {} path, r) := by
  have chars : ∀ c ∈ path.toList, isNameChar c := List.all_eq_true.mp (Bool.and_eq_true_iff.mp plain).2
  obtain ⟨taken, dropped⟩ := stretch chars next
  rw [readOperand, taken, dropped, String.ofList_toList]
  · split
    · rw [shorter?_eq (by simp; omega)]
      rfl
    · next other => rw [if_neg]; rintro h; cases r <;> simp_all
  · exact fun _ => ne_of_isPath plain rfl
  · exact fun _ => ne_of_isPath plain rfl

/-- The operand is read back from its text, whatever follows. -/
def ReadsOperand (st : Style) (level : Int) (n : Node) : Prop :=
  ∀ r, Follows afterOperand r → readOperand (operandOf st level n ++ r) = some (n.bare, r)

def ReadsTree (st : Style) (level : Int) (n : Node) : Prop :=
  ∀ r, Follows afterTree r → readTree (textOf st level n ++ r) = some (n.bare, r)

theorem ReadsOperand.tree (h : ReadsOperand st level n)
    (single : textOf st level n = operandOf st level n) : ReadsTree st level n := by
  intro r next
  rw [single, readTree, h r next.operand]
  cases r with
  | nil => rfl
  | cons c r =>
    have other : c ≠ ' ' := by
      rintro rfl
      exact absurd (next ' ' rfl) (by decide)
    simp [other]

theorem readsOperand_name (plain : isPath path) : ReadsOperand st level (.name o path) := by
  intro r next
  rw [operandOf_name, readOperand_path plain next.isNameChar, if_neg]
  · rfl
  · exact fun paren => absurd (next '(' paren) (by decide)

theorem readsOperand_text {s : String} {mark : Nat} : ReadsOperand st level (.literal o (.str s mark)) := by
  intro r next
  rw [operandOf_text, List.cons_append, List.append_assoc, readOperand]
  simp [readText_escaped, Node.bare]

theorem ReadsTree.operand {l m : Node} {op : BinaryOp} (h : ReadsTree st level (.binary o l op m)) :
    ReadsOperand st level (.binary o l op m) := by
  intro r next
  rw [operandOf_binary, List.cons_append, List.append_assoc, readOperand, h]
  · rfl
  · simp [Follows, afterTree]

theorem readsTree_binary {l m : Node} {op : BinaryOp} (left : ReadsOperand st level l) (known : op ∈ BinaryOp.known)
    (right : ReadsOperand st level m) : ReadsTree st level (.binary o l op m) := by
  have chars : ∀ op ∈ BinaryOp.known, op.symbol.toList.all (· != ' ') := by decide
  have symbols : ∀ op ∈ BinaryOp.known, BinaryOp.ofSymbol op.symbol = op := by decide
  intro r next
  obtain ⟨taken, dropped⟩ := stretch (List.all_eq_true.mp (chars op known)) (r :=
    ' ' :: (operandOf st level m ++ r)) (by simp)
  rw [textOf_binary, List.append_assoc, readTree, left]
  · simp only [Option.bind_eq_bind, Option.bind_some, List.cons_append, List.append_assoc, taken, dropped, List.tail_cons]
    rw [shorter?_eq (by simp; omega)]
    simp [symbols op known, right r next.operand, Node.bare]
  · simp [Follows, afterOperand]

theorem operandOf_ne (tree : n.OperatorTree) : operandOf st level n ++ r ≠ ')' :: rest := by
  cases tree with
  | name plain =>
    rw [operandOf_name]
    exact ne_of_isPath plain rfl
  | text => simp [operandOf_text]
  | call plain =>
    rw [operandOf_call, List.append_assoc]
    exact ne_of_isPath plain rfl
  | binary => simp [operandOf_binary]

theorem textOf_ne (tree : n.OperatorTree) : textOf st level n ++ r ≠ ')' :: rest := by
  have starts : ∃ l more, l.OperatorTree ∧ textOf st level n = operandOf st level l ++ more := by
    cases id tree with
    | binary left => exact ⟨_, _, left, textOf_binary ..⟩
    | _ => exact ⟨_, [], tree, (List.append_nil _).symm⟩
  obtain ⟨l, more, first, same⟩ := starts
  rw [same, List.append_assoc]
  exact operandOf_ne first

theorem readArguments_read {args : List Node} (trees : ∀ a ∈ args, a.OperatorTree)
    (parts : ∀ a ∈ args, ReadsTree st level a) :
    readArguments (argumentsOf st level args ++ ')' :: r) = some (Node.bareAll args, r) := by
  induction args with
  | nil => rw [argumentsOf, List.map_nil, List.intercalate_nil, List.nil_append, readArguments]; rfl
  | cons n args ih =>
    have first := parts n List.mem_cons_self
    have others := ih (fun a ha => trees a (List.mem_cons_of_mem _ ha)) fun a ha => parts a (List.mem_cons_of_mem _ ha)
    have unclosed (more : List Char) : ∀ rest, textOf st level n ++ more ≠ ')' :: rest := fun _ =>
      textOf_ne (trees n List.mem_cons_self)
    cases args with
    | nil =>
      rw [argumentsOf, List.map_singleton, List.intercalate_singleton, readArguments, first]
      · rfl
      · simp [Follows, afterTree]
      · exact unclosed _
    | cons m args =>
      rw [argumentsOf, List.map_cons, List.map_cons, List.intercalate_cons_cons, List.append_assoc, List.append_assoc,
        readArguments, first]
      · rw [argumentsOf, List.map_cons] at others
        simp only [Option.bind_eq_bind, Option.bind_some, List.cons_append, List.nil_append, List.tail_cons]
        rw [shorter?_eq (by simp; omega)]
        simp [others, Node.bareAll]
      · simp [Follows, afterTree]
      · exact unclosed _

theorem readsOperand_call {args : List Node} (plain : isPath path) (trees : ∀ a ∈ args, a.OperatorTree)
    (parts : ∀ a ∈ args, ReadsTree st level a) : ReadsOperand st level (.invocation o path args) := by
  intro r next
  rw [operandOf_call, List.append_assoc, List.cons_append, List.append_assoc, readOperand_path plain,
    List.head?_cons, if_pos rfl]
  · rw [List.tail_cons, List.singleton_append, readArguments_read trees parts]
    rfl
  · simp [isNameChar]

theorem reads_operatorTree (tree : n.OperatorTree) : ReadsOperand st level n ∧ ReadsTree st level n := by
  induction tree with
  | name plain => exact ⟨readsOperand_name plain, (readsOperand_name plain).tree rfl⟩
  | text => exact ⟨readsOperand_text, readsOperand_text.tree rfl⟩
  | call plain trees ih =>
    have parts := fun a ha => (ih a ha).2
    exact ⟨readsOperand_call plain trees parts, (readsOperand_call plain trees parts).tree rfl⟩
  | binary _ known _ left right =>
    exact ⟨(readsTree_binary left.1 known right.1).operand, readsTree_binary left.1 known right.1⟩

/-- Operator expressions that are printed alike are equal. -/
theorem printed_operators_are_unambiguous (st : Style) (level : Int) {n m : Node}
    (hn : n.OperatorTree) (hm : m.OperatorTree)
    (same : format st level n = format st level m) : n.bare = m.bare := by
  have left : ReadsTree st level n := (reads_operatorTree hn).2
  have right : ReadsTree st level m := (reads_operatorTree hm).2
  have read := right [] (by simp [Follows])
  rw [textOf, ← same, ← textOf, left [] (by simp [Follows])] at read
  exact (Prod.mk.inj (Option.some.inj read)).1

/-- The text of the example is `(a.b + "x\\"(") * f(c, "\\n" - d)`. -/
theorem printed_operators_are_unambiguous_nested :
    let tree (o : Origin) : Node := .binary o (.binary o (.name o "a.b") .add (.literal o (.str "x\"(" 0))) .mul
      (.invocation o "f" [.name o "c", .binary o (.literal o (.str "\n" 0)) .sub (.name o "d")])
    (tree {}).OperatorTree ∧ (tree ⟨none, 7⟩).OperatorTree ∧ (tree {}).bare = (tree ⟨none, 7⟩).bare := by
  intro tree
  have operators (o : Origin) : (tree o).OperatorTree := by
    refine .binary (.binary (.name rfl) (by decide) .text) (by decide) (.call rfl ?_)
    simp only [List.forall_mem_cons, List.not_mem_nil, false_imp_iff, implies_true, and_true]
    exact ⟨.name rfl, .binary .text (by decide) (.name rfl)⟩
  refine ⟨operators _, operators _, ?_⟩
  exact printed_operators_are_unambiguous ⟨fun _ => "", fun _ => "", ""⟩ 0 (operators _) (operators _) rfl

end Printer

end ScriptCore
