import ScriptCore.Primitive.Operator
import ScriptCore.Value

namespace ScriptCore

structure Loc where
  file : String := "<unknown file>"
  line : Int := -1
  text : Option String := none

/-- What a node carries beside its parts: where it came from, and a number that tells it from every
other node. Nodes that are made on the way have the number 0. -/
structure Origin where
  loc : Option Loc := none
  id : Nat := 0

inductive TypeName where
  | loose
  | named (path : String)
  | resolved (t : Ty)

def TypeName.isLoose : TypeName → Bool
  | loose => true
  | named s => s = "var"
  | resolved .untyped => true
  | resolved _ => false

/-- A node of the tree. `absent` stands for a part that is left out, `hostCall` for a call that
comes from the host. Any node can stand in any place; whether it can be used there shows when it is.
-/
inductive Node where
  | absent
  | hostCall
  | unknown (origin : Origin)
  | literal (origin : Origin) (value : Value)
  | name (origin : Origin) (path : String)
  | typeRef (origin : Origin) (target : TypeName) (dims : Int)
  | fieldSuffix (origin : Origin) (field : String)
  | callSuffix (origin : Origin) (method : String) (args : List Node)
  | indexSuffix (origin : Origin) (index : Node)
  | propertySuffix (origin : Origin) (key : Node)
  | classSuffix (origin : Origin)
  | primary (origin : Origin) (base : Node) (suffixes : List Node)
  | invocation (origin : Origin) (path : String) (args : List Node)
  | assignment (origin : Origin) (target : Node) (op : AssignOp) (value : Node)
  | binary (origin : Origin) (left : Node) (op : BinaryOp) (right : Node)
  | unary (origin : Origin) (op : UnaryOp) (operand : Node) (trailing : Bool)
  | ternary (origin : Origin) (cond whenTrue whenFalse : Node)
  | cast (origin : Origin) (type expr : Node)
  | allocation (origin : Origin) (type : Node) (args : List Node) (body : Node)
  | arrayInit (origin : Origin) (elements : List Node)
  | arrayAlloc (origin : Origin) (type : Node) (dims : List Node) (init : Node)
  | block (origin : Origin) (statements : List Node) (lock : Node)
  | ifElse (origin : Origin) (cond whenTrue whenFalse : Node)
  | whileLoop (origin : Origin) (cond body : Node) (bodyFirst : Bool)
  | forLoop (origin : Origin) (init : List Node) (cond : Node) (update : List Node) (body : Node)
  | forEach (origin : Origin) (ident : String) (iterable body : Node) (type : Node)
      (modifiers : List String)
  | label (origin : Origin) (expr : Node)
  | switch (origin : Origin) (expr : Node) (body : List Node)
  | param (origin : Origin) (ident : String) (type : Node) (modifiers : List String)
  | catchClause (origin : Origin) (param block : Node)
  | tryCatch (origin : Origin) (block : Node) (catches : List Node) (final : Node)
  | return (origin : Origin) (expr : Node)
  | break (origin : Origin) (label : Option String)
  | continue (origin : Origin) (label : Option String)
  | throw (origin : Origin) (expr : Node)
  | declarator (origin : Origin) (ident : String) (init : Node) (dims : Int)
  | varDecl (origin : Origin) (type : Node) (declarators : List Node) (modifiers : List String)
  | methodDecl (origin : Origin) (method : String) (params : List Node) (body : Node)
      (returnType : Node) (modifiers : List String)
  | classDecl (origin : Origin) (cls : String) (body : Node) (superclass : Node)
      (interfaces : List Node) (modifiers : List String) (isInterface : Bool)
  | importDecl (origin : Origin) (path : String) (wildcard static : Bool)
  | packageDecl (origin : Origin) (path : String)
  | exprList (origin : Origin) (exprs : List Node)
  deriving Inhabited

namespace Node

def origin : Node → Origin
  | absent | hostCall => {}
  | unknown o | literal o _ | name o _ | typeRef o _ _ | fieldSuffix o _ | callSuffix o _ _ | indexSuffix o _
  | propertySuffix o _ | classSuffix o | primary o _ _ | invocation o _ _ | assignment o _ _ _ | binary o _ _ _
  | unary o _ _ _ | ternary o _ _ _ | cast o _ _ | allocation o _ _ _ | arrayInit o _ | arrayAlloc o _ _ _
  | block o _ _ | ifElse o _ _ _ | whileLoop o _ _ _ | forLoop o _ _ _ _ | forEach o _ _ _ _ _ | label o _
  | switch o _ _ | param o _ _ _ | catchClause o _ _ | tryCatch o _ _ _ | «return» o _ | «break» o _
  | «continue» o _ | throw o _ | declarator o _ _ _ | varDecl o _ _ _ | methodDecl o _ _ _ _ _
  | classDecl o _ _ _ _ _ _ | importDecl o _ _ _ | packageDecl o _ | exprList o _ => o

def loc (n : Node) : Option Loc := n.origin.loc

def hostCallText : String := "<Called from Python code>"

def file : Node → String
  | hostCall => hostCallText
  | n => match n.loc with | some l => l.file | none => "<unknown file>"

def line (n : Node) : Int := match n.loc with | some l => l.line | none => -1

def kind : Node → String
  | absent => "NoneType" | hostCall => "_HostCall" | unknown _ => "Node" | literal .. => "Literal"
  | name .. => "AmbiguousName" | typeRef .. => "TypeRef" | fieldSuffix .. => "FieldSuffix"
  | callSuffix .. => "CallSuffix" | indexSuffix .. => "IndexSuffix" | propertySuffix .. => "PropertySuffix"
  | classSuffix _ => "ClassSuffix" | primary .. => "PrimaryExpression" | invocation .. => "MethodInvocation"
  | assignment .. => "Assignment" | binary .. => "BinaryExpression" | unary .. => "UnaryExpression"
  | ternary .. => "Ternary" | cast .. => "Cast" | allocation .. => "Allocation" | arrayInit .. => "ArrayInitializer"
  | arrayAlloc .. => "ArrayAllocation" | block .. => "Block" | ifElse .. => "If" | whileLoop .. => "While"
  | forLoop .. => "For" | forEach .. => "EnhancedFor" | label .. => "SwitchLabel" | switch .. => "Switch"
  | param .. => "FormalParameter" | catchClause .. => "Catch" | tryCatch .. => "Try" | «return» .. => "Return"
  | «break» .. => "Break" | «continue» .. => "Continue" | throw .. => "Throw"
  | declarator .. => "VariableDeclarator" | varDecl .. => "TypedVariableDeclaration"
  | methodDecl .. => "MethodDeclaration" | classDecl .. => "ClassDeclaration"
  | importDecl .. => "ImportDeclaration" | packageDecl .. => "PackageDeclaration"
  | exprList .. => "ExpressionStatementList"

def isAbsent : Node → Bool
  | absent => true
  | _ => false

def isLabel : Node → Bool
  | label .. => true
  | _ => false

def isClassDecl : Node → Bool
  | classDecl .. => true
  | _ => false

def isArrayInit : Node → Bool
  | arrayInit .. => true
  | _ => false

def statements? : Node → Option (List Node)
  | block _ ss _ => some ss
  | _ => none

def type? : Node → Option Node
  | cast _ t _ | allocation _ t _ _ | arrayAlloc _ t _ _ | forEach _ _ _ _ t _ | param _ _ t _ | varDecl _ t _ _ => some t
  | _ => none

def ident? : Node → Option String
  | name _ s | typeRef _ (.named s) _ | fieldSuffix _ s | callSuffix _ s _ | invocation _ s _ | forEach _ s _ _ _ _
  | param _ s _ _ | declarator _ s _ _ | methodDecl _ s _ _ _ _ | classDecl _ s _ _ _ _ _ | importDecl _ s _ _
  | packageDecl _ s => some s
  | _ => none

def modifiers? : Node → Option (List String)
  | forEach _ _ _ _ _ ms | param _ _ _ ms | varDecl _ _ _ ms | methodDecl _ _ _ _ _ ms | classDecl _ _ _ _ _ ms _ => some ms
  | _ => none

def blockOf (ss : List Node) : Node := block {} ss absent

end Node

end ScriptCore
