import ScriptCore.Node

namespace ScriptCore.Printer

structure Style where
  value : Value → String
  type : Ty → String
  indent : String := "    "

def blanks (n : Int) : String := String.ofList (List.replicate n.toNat ' ')

def times (s : String) (n : Int) : String := String.join (List.replicate n.toNat s)

def escapeChar : Char → List Char
  | '\\' => ['\\', '\\']
  | '"' => ['\\', '"']
  | '\'' => ['\\', '\'']
  | '\n' => ['\\', 'n']
  | '\t' => ['\\', 't']
  | '\r' => ['\\', 'r']
  | c => [c]

def escape (s : String) : String := String.ofList (s.toList.flatMap escapeChar)

def commas (l : List String) : String := ", ".intercalate l

def words (l : List String) : String := " ".intercalate l

def braced (s : String) : String := "\x7b" ++ s ++ "\x7d"

def primitiveText : Primitive → String
  | .boolean b => if b then "true" else "false"
  | .char c => "'" ++ escape (Primitive.charText c) ++ "'"
  | .long n => toString n ++ "L"
  | .float x => Decimal.show x ++ "f"
  | .double x => Decimal.show x
  | .byte n | .short n | .int n => toString n

variable (st : Style)

def literalText : Value → String
  | .null => "null"
  | .void => "void"
  | .str s _ => "\"" ++ escape s ++ "\""
  | .boxed p _ => primitiveText p
  | v => st.value v

def brackets (n : Int) : String := times "[]" n

def typeText (t : TypeName) (dims : Int) : String :=
  let base :=
    if t.isLoose then "var"
    else
      match t with
      | .loose => "var"
      | .named s => s
      | .resolved ty => st.type ty
  base ++ brackets dims

def present (n : Node) (s : String) : List String := if n.isAbsent then [] else [s]

def needsParens : Node → Bool
  | .binary .. | .ternary .. | .assignment .. => true
  | _ => false

def isSimple : Node → Bool
  | .literal .. | .name .. | .primary .. | .invocation .. | .assignment .. | .binary .. | .unary .. | .ternary ..
  | .cast .. | .allocation .. | .arrayAlloc .. | .return .. | .break .. | .continue .. | .throw .. | .varDecl ..
  | .importDecl .. | .packageDecl .. | .exprList .. => true
  | _ => false

def terminated (n : Node) (s : String) : String := if isSimple n then s ++ ";" else s

def parenthesised (n : Node) (s : String) : String := if needsParens n then "(" ++ s ++ ")" else s

def isBlock : Node → Bool
  | .block .. => true
  | _ => false

def isIf : Node → Bool
  | .ifElse .. => true
  | _ => false

def withTail (word tail : String) (present : Bool) : String := if present then word ++ " " ++ tail else word

def bodyText (level : Int) (n : Node) (text : Int → String) : String :=
  if n.isAbsent then ";"
  else if isBlock n then " " ++ text level
  else "\n" ++ times st.indent (level + 1) ++ terminated n (text (level + 1))

mutual

def format (st : Style) (level : Int) : Node → String
  | .absent => ""
  | .hostCall => "<_HostCall '" ++ Node.hostCallText ++ "'>"
  | .unknown o => "<Node " ++ Quoted.quote ((o.loc.bind Loc.text).getD "") ++ ">"
  | .literal _ v => literalText st v
  | .name _ p => p
  | .typeRef _ t dims => typeText st t dims
  | .fieldSuffix _ f => "." ++ f
  | .callSuffix _ m args => "." ++ m ++ "(" ++ commas (formatAll st level args) ++ ")"
  | .indexSuffix _ i => "[" ++ format st level i ++ "]"
  | .propertySuffix _ k => braced (format st level k)
  | .classSuffix _ => ".class"
  | .primary _ b ss => format st level b ++ String.join (formatAll st level ss)
  | .invocation _ m args => m ++ "(" ++ commas (formatAll st level args) ++ ")"
  | .assignment _ l op r => format st level l ++ " " ++ op.symbol ++ " " ++ format st level r
  | .binary _ l op r =>
    parenthesised l (format st level l) ++ " " ++ op.symbol ++ " " ++ parenthesised r (format st level r)
  | .unary _ op e trailing =>
    let operand := parenthesised e (format st level e)
    if trailing then operand ++ op.symbol else op.symbol ++ operand
  | .ternary _ c t e => format st level c ++ " ? " ++ format st level t ++ " : " ++ format st level e
  | .cast _ t e => "(" ++ format st level t ++ ") " ++ format st level e
  | .allocation _ t args body =>
    let text := "new " ++ format st level t ++ "(" ++ commas (formatAll st level args) ++ ")"
    if body.isAbsent then text else text ++ " " ++ format st level body
  | .arrayInit _ es => braced (commas (formatAll st level es))
  | .arrayAlloc _ t dims init =>
    let sizes := String.join ((formatAll st level dims).map fun d => "[" ++ d ++ "]")
    let text := "new " ++ format st level t ++ sizes
    if init.isAbsent then text else text ++ " " ++ format st level init
  | .block _ ss lock =>
    let head := if lock.isAbsent then "" else "synchronized (" ++ format st level lock ++ ") "
    if ss.isEmpty then head ++ braced ""
    else
      let inner := times st.indent (level + 1)
      let lines := (formatStatements st (level + 1) ss).map fun s => inner ++ s
      head ++ braced ("\n" ++ "\n".intercalate lines ++ "\n" ++ times st.indent level)
  | .ifElse _ c t e =>
    let text := "if (" ++ format st level c ++ ")" ++ bodyText st level t (fun k => format st k t)
    if e.isAbsent then text
    else if isIf e then text ++ " else " ++ format st level e
    else text ++ " else" ++ bodyText st level e (fun k => format st k e)
  | .whileLoop _ c body bodyFirst =>
    let cond := format st level c
    if bodyFirst then "do" ++ bodyText st level body (fun k => format st k body) ++ " while (" ++ cond ++ ");"
    else "while (" ++ cond ++ ")" ++ bodyText st level body (fun k => format st k body)
  | .forLoop _ init c update body =>
    "for (" ++ commas (formatAll st level init) ++ "; " ++ format st level c ++ "; " ++
      commas (formatAll st level update) ++ ")" ++ bodyText st level body (fun k => format st k body)
  | .forEach _ v it body t mods =>
    let head := words (mods ++ present t (format st level t) ++ [v])
    "for (" ++ head ++ " : " ++ format st level it ++ ")" ++ bodyText st level body (fun k => format st k body)
  | .label _ e => if e.isAbsent then "default:" else "case " ++ format st level e ++ ":"
  | .switch _ e body =>
    "switch (" ++ format st level e ++ ") " ++
      braced ("\n" ++ "\n".intercalate (formatCases st level body) ++ "\n" ++ times st.indent level)
  | .param _ v t mods => words (mods ++ present t (format st level t) ++ [v])
  | .catchClause _ p b => "catch (" ++ format st level p ++ ") " ++ format st level b
  | .tryCatch _ b catches fin =>
    let text := "try " ++ format st level b ++ String.join ((formatAll st level catches).map fun c => " " ++ c)
    if fin.isAbsent then text else text ++ " finally " ++ format st level fin
  | .return _ e => withTail "return" (format st level e) (!e.isAbsent)
  | .break _ l => withTail "break" (l.getD "") l.isSome
  | .continue _ l => withTail "continue" (l.getD "") l.isSome
  | .throw _ e => "throw " ++ format st level e
  | .declarator _ v init dims =>
    let text := v ++ brackets dims
    if init.isAbsent then text else text ++ " = " ++ format st level init
  | .varDecl _ t ds mods => words (mods ++ [format st level t]) ++ " " ++ commas (formatAll st level ds)
  | .methodDecl _ m ps body ret mods =>
    let head := mods ++ present ret (format st level ret) ++ [m ++ "(" ++ commas (formatAll st level ps) ++ ")"]
    words head ++ " " ++ format st level body
  | .classDecl _ c body sup ifs mods isInterface =>
    let extended := present sup ("extends " ++ format st level sup)
    let keyword := if isInterface then "extends " else "implements "
    let implemented := if ifs.isEmpty then [] else [keyword ++ commas (formatAll st level ifs)]
    let head := mods ++ [if isInterface then "interface" else "class", c] ++ extended ++ implemented
    words head ++ " " ++ format st level body
  | .importDecl _ p wildcard static =>
    (if static then "import static " else "import ") ++ p ++ (if wildcard then ".*" else "")
  | .packageDecl _ p => "package " ++ p
  | .exprList _ es => commas (formatAll st level es)

def formatAll (st : Style) (level : Int) : List Node → List String
  | [] => []
  | n :: rest => format st level n :: formatAll st level rest

def formatStatements (st : Style) (level : Int) : List Node → List String
  | [] => []
  | n :: rest => terminated n (format st level n) :: formatStatements st level rest

/-- The lines of a switch body: labels one level in, statements two. -/
def formatCases (st : Style) (level : Int) : List Node → List String
  | [] => []
  | n :: rest =>
    let line :=
      if n.isLabel then times st.indent (level + 1) ++ format st (level + 1) n
      else times st.indent (level + 2) ++ terminated n (format st (level + 2) n)
    line :: formatCases st level rest

end

def nodeText : Node → String
  | .hostCall => Node.hostCallText
  | n =>
    match n.loc.bind Loc.text with
    | some t => t
    | none => format st 0 n

def describe (n : Node) : String := "<" ++ n.kind ++ " " ++ Quoted.quote (nodeText st n) ++ ">"

def locText : Option Loc → String
  | none => "None"
  | some l => "SourceLocation(" ++ Quoted.quote l.file ++ ", " ++ toString l.line ++ ")"

end ScriptCore.Printer
