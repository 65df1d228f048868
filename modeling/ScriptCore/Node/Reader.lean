import ScriptCore.Data
import ScriptCore.Node

namespace ScriptCore

mutual

def Data.depth : Data → Nat
  | .list l => Data.depthAll l + 1
  | .object fields => Data.depthFields fields + 1
  | _ => 1

def Data.depthAll : List Data → Nat
  | [] => 0
  | d :: rest => max d.depth (Data.depthAll rest)

def Data.depthFields : List (String × Data) → Nat
  | [] => 0
  | (_, d) :: rest => max d.depth (Data.depthFields rest)

end

/-- Reads trees, given how the values of literals and the types that are given as such are read,
where the numbers of nodes come from, and how a node that cannot be made is refused. -/
structure Reader (m : Type → Type) where
  value : Data → m Value
  type : Data → m Ty
  fresh : m Nat
  refuse : (α : Type) → HostError → m α

namespace Reader

variable {m : Type → Type} [Monad m]

def loc? (d : Data) : Option Loc :=
  match d.field "loc" with
  | .object fields =>
    let given : Data := .object fields
    some { file := (given.field "file").text?.getD "<unknown file>"
           line := (given.field "line").int?.getD (-1)
           text := (given.field "text").text? }
  | _ => none

def entries (r : Reader m) (d : Data) (field : String) : m (List Data) :=
  match d.field? field with
  | some .null => r.refuse (List Data) ⟨.typeError, "'NoneType' object is not iterable"⟩
  | found => pure (found.getD .null).items

def names (r : Reader m) (d : Data) (field : String) : m (List String) := do
  let l ← r.entries d field
  pure (l.map Data.text)

def count (d : Data) (field : String) : Int := (d.field field).int?.getD 0

def typeName (r : Reader m) (d : Data) : m TypeName :=
  match d.field "name" with
  | .str s => pure (.named s)
  | .object fields => do
    let t ← r.type ((Data.object fields).field "type")
    pure (.resolved t)
  | _ => pure .loose

def bodyOf (n : Node) : Node := if n.isAbsent then .blockOf [] else n

def nodeWithin (r : Reader m) : Nat → Data → m Node
  | 0, _ => pure .absent
  | fuel + 1, d => do
    let id ← r.fresh
    let l : Origin := { loc := loc? d, id }
    let part := fun k => r.nodeWithin fuel (d.field k)
    let parts := fun k => do
      let all ← r.entries d k
      all.mapM (r.nodeWithin fuel)
    let ident := (d.field "name").text
    let op := (d.field "op").text
    let isSet := fun k => (d.field k).truth
    let mods := r.names d "modifiers"
    match (d.field "k").text? with
    | none => pure .absent
    | some "Literal" => return .literal l (← r.value (d.field "value"))
    | some "AmbiguousName" => return .name l ident
    | some "TypeRef" => return .typeRef l (← r.typeName d) (count d "dims")
    | some "FieldSuffix" => return .fieldSuffix l ident
    | some "CallSuffix" => return .callSuffix l ident (← parts "args")
    | some "IndexSuffix" => return .indexSuffix l (← part "index")
    | some "PropertySuffix" => return .propertySuffix l (← part "key")
    | some "ClassSuffix" => return .classSuffix l
    | some "PrimaryExpression" => return .primary l (← part "prefix") (← parts "suffixes")
    | some "MethodInvocation" => return .invocation l ident (← parts "args")
    | some "Assignment" => do
      let left ← part "lhs"
      let right ← part "rhs"
      match AssignOp.ofSymbol? op with
      | some o => pure (.assignment l left o right)
      | none => r.refuse Node ⟨.valueError, "Unknown assignment operator: " ++ op⟩
    | some "BinaryExpression" => return .binary l (← part "lhs") (.ofSymbol op) (← part "rhs")
    | some "UnaryExpression" => return .unary l (.ofSymbol op) (← part "operand") (isSet "postfix")
    | some "Ternary" => return .ternary l (← part "cond") (← part "then") (← part "otherwise")
    | some "Cast" => return .cast l (← part "type_ref") (← part "expr")
    | some "Allocation" => return .allocation l (← part "type_ref") (← parts "args") (← part "body")
    | some "ArrayInitializer" => return .arrayInit l (← parts "elements")
    | some "ArrayAllocation" =>
      return .arrayAlloc l (← part "type_ref") (← parts "dims") (← part "initializer")
    | some "Block" => return .block l (← parts "statements") (← part "synchronized_on")
    | some "If" => return .ifElse l (← part "cond") (← part "then") (← part "otherwise")
    | some "While" => return .whileLoop l (← part "cond") (← part "body") (isSet "do_while")
    | some "For" => return .forLoop l (← parts "init") (← part "cond") (← parts "update") (← part "body")
    | some "EnhancedFor" =>
      return .forEach l ident (← part "iterable") (← part "body") (← part "type_ref") (← mods)
    | some "SwitchLabel" => return .label l (← part "expr")
    | some "Switch" => return .switch l (← part "expr") (← parts "body")
    | some "FormalParameter" => return .param l ident (← part "type_ref") (← mods)
    | some "Catch" => return .catchClause l (← part "param") (← part "block")
    | some "Try" => return .tryCatch l (← part "block") (← parts "catches") (← part "finally_block")
    | some "Return" => return .return l (← part "expr")
    | some "Break" => return .break l (d.field "label").text?
    | some "Continue" => return .continue l (d.field "label").text?
    | some "Throw" => return .throw l (← part "expr")
    | some "VariableDeclarator" => return .declarator l ident (← part "init") (count d "dims")
    | some "TypedVariableDeclaration" => return .varDecl l (← part "type_ref") (← parts "declarators") (← mods)
    | some "MethodDeclaration" =>
      return .methodDecl l ident (← parts "params") (bodyOf (← part "body")) (← part "return_type") (← mods)
    | some "ClassDeclaration" =>
      return .classDecl l ident (bodyOf (← part "body")) (← part "superclass")
        (← parts "interfaces") (← mods) (isSet "is_interface")
    | some "ImportDeclaration" => return .importDecl l ident (isSet "wildcard") (isSet "static")
    | some "PackageDeclaration" => return .packageDecl l ident
    | some "ExpressionStatementList" => return .exprList l (← parts "expressions")
    | some _ => return .unknown l

def node (r : Reader m) (d : Data) : m Node := r.nodeWithin d.depth d

end Reader

end ScriptCore
