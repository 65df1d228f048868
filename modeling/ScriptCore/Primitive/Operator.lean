namespace ScriptCore

inductive BinaryOp where
  | add | sub | mul | div | rem | eq | ne | lt | le | gt | ge | bitAnd | bitOr | bitXor | shl | shr | ushr
  | and | or | instanceOf
  | other (symbol : String)
  deriving DecidableEq, Repr, Inhabited

namespace BinaryOp

def symbol : BinaryOp → String
  | add => "+" | sub => "-" | mul => "*" | div => "/" | rem => "%" | eq => "==" | ne => "!=" | lt => "<"
  | le => "<=" | gt => ">" | ge => ">=" | bitAnd => "&" | bitOr => "|" | bitXor => "^" | shl => "<<"
  | shr => ">>" | ushr => ">>>" | and => "&&" | or => "||" | instanceOf => "instanceof" | other s => s

def known : List BinaryOp :=
  [add, sub, mul, div, rem, eq, ne, lt, le, gt, ge, bitAnd, bitOr, bitXor, shl, shr, ushr, and, or, instanceOf]

def ofSymbol (s : String) : BinaryOp := (known.find? fun op => op.symbol = s).getD (other s)

def isComparison : BinaryOp → Bool
  | eq | ne | lt | le | gt | ge => true
  | _ => false

def isShift : BinaryOp → Bool
  | shl | shr | ushr => true
  | _ => false

end BinaryOp

inductive UnaryOp where
  | plus | minus | complement | not | increment | decrement
  | other (symbol : String)
  deriving DecidableEq, Repr, Inhabited

namespace UnaryOp

def symbol : UnaryOp → String
  | plus => "+" | minus => "-" | complement => "~" | not => "!" | increment => "++" | decrement => "--"
  | other s => s

def known : List UnaryOp := [plus, minus, complement, not, increment, decrement]

def ofSymbol (s : String) : UnaryOp := (known.find? fun op => op.symbol = s).getD (other s)

end UnaryOp

inductive AssignOp where
  | plain
  | compound (op : BinaryOp)
  deriving DecidableEq, Repr, Inhabited

namespace AssignOp

def symbol : AssignOp → String
  | plain => "="
  | compound op => op.symbol ++ "="

def known : List AssignOp :=
  plain :: [BinaryOp.add, .sub, .mul, .div, .rem, .bitAnd, .bitOr, .bitXor, .shl, .shr, .ushr].map compound

def ofSymbol? (s : String) : Option AssignOp := known.find? fun op => op.symbol = s

end AssignOp

end ScriptCore
