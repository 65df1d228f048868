import ScriptCore.Primitive.Basic
import ScriptCore.Primitive.Operator

namespace ScriptCore.Primitive

def raised {α : Type} (e : HostError) : Except Trouble α := .error (.host e)

def hosted {α : Type} : Except HostError α → Except Trouble α
  | .ok a => .ok a
  | .error e => raised e

def fault {α : Type} (c : Cause) : Except Trouble α := .error (.fault c)

/-- The wider of two types after promotion; types that are not numeric rank lowest. -/
def commonType (a b : PrimType) : PrimType :=
  let ta := a.promoted
  let tb := b.promoted
  let place (t : PrimType) : Nat := match t.rank? with | some r => r + 1 | none => 0
  if place tb ≤ place ta then ta else tb

def promote (a b : Primitive) : Except HostError (Primitive × Primitive × PrimType) := do
  let t := commonType a.type b.type
  let x ← ofNumber t (← a.number)
  let y ← ofNumber t (← b.number)
  return (x, y, t)

def ofTruth (b : Bool) : Primitive := boolean b

def booleanOp (a b : Bool) (op : BinaryOp) : Except Trouble Primitive :=
  match op with
  | .eq => .ok (boolean (a == b))
  | .ne => .ok (boolean (a != b))
  | .and | .bitAnd => .ok (boolean (a && b))
  | .or | .bitOr => .ok (boolean (a || b))
  | .bitXor => .ok (boolean (a != b))
  | _ => fault (.badOperator op.symbol "boolean")

def compareInt? (a b : Int) : BinaryOp → Option Bool
  | .eq => some (a == b)
  | .ne => some (a != b)
  | .lt => some (a < b)
  | .le => some (a ≤ b)
  | .gt => some (b < a)
  | .ge => some (b ≤ a)
  | _ => none

def compareFloat? (a b : Float) : BinaryOp → Option Bool
  | .eq => some (a == b)
  | .ne => some (a != b)
  | .lt => some (a < b)
  | .le => some (a ≤ b)
  | .gt => some (b < a)
  | .ge => some (b ≤ a)
  | _ => none

variable (t : PrimType)

def wordBits : Nat := if t = .long then 64 else 32

def ofWord (n : Int) : Primitive := if t = .long then long (Word.wrap 64 n) else int (Word.wrap 32 n)

def integralOp (a b : Int) (op : BinaryOp) (t : PrimType) : Except Trouble Primitive :=
  match compareInt? a b op with
  | some r => .ok (boolean r)
  | none =>
    let w := wordBits t
    match op with
    | .add => .ok (ofWord t (a + b))
    | .sub => .ok (ofWord t (a - b))
    | .mul => .ok (ofWord t (a * b))
    | .div =>
      if b = 0 then .error (.throws ⟨.zeroDivisionError, "/ by zero"⟩ .arithmetic) else .ok (ofWord t (a.tdiv b))
    | .rem =>
      if b = 0 then .error (.throws ⟨.zeroDivisionError, "/ by zero"⟩ .arithmetic) else .ok (ofWord t (a.tmod b))
    | .bitAnd => .ok (ofWord t (Word.land w a b))
    | .bitOr => .ok (ofWord t (Word.lor w a b))
    | .bitXor => .ok (ofWord t (Word.lxor w a b))
    | _ => fault (.badOperator op.symbol t.name)

def divide (a b : Float) : Float :=
  if b == 0.0 then
    if a == 0.0 || a.isNaN then Binary.nan
    else Binary.infinity (Binary.isNegative a != Binary.isNegative b)
  else a / b

def modulo (a b : Float) : Except HostError Float :=
  if b == 0.0 || a.isNaN || b.isNaN then .ok Binary.nan
  else if a.isInf then .error ⟨.valueError, "math domain error"⟩
  else if b.isInf then .ok a
  else .ok (Binary.remainder a b)

def ofReal (x : Float) : Primitive := if t = .float then float (Binary.toSingle x) else double x

def floatingOp (a b : Float) (op : BinaryOp) (t : PrimType) : Except Trouble Primitive :=
  match compareFloat? a b op with
  | some r => .ok (boolean r)
  | none =>
    match op with
    | .add => .ok (ofReal t (a + b))
    | .sub => .ok (ofReal t (a - b))
    | .mul => .ok (ofReal t (a * b))
    | .div => .ok (ofReal t (divide a b))
    | .rem => (hosted (modulo a b)).map (ofReal t)
    | .shl | .shr | .ushr => fault .shiftOfFloating
    | _ => fault (.badOperator op.symbol t.name)

def shiftOp (l r : Primitive) (op : BinaryOp) : Except Trouble Primitive := do
  if l.type.isFloating || r.type.isFloating then fault .shiftOfFloating
  else
    let t := l.type.promoted
    let w := wordBits t
    match ← hosted l.number, ← hosted r.number with
    | .int a, .int n =>
      let k := Word.distance w n
      match op with
      | .shl => return ofWord t (Word.shiftLeft w a k)
      | .shr => return ofWord t (Word.shiftRight w a k)
      | _ => return ofWord t (Word.shiftRightZero w a k)
    | _, _ => fault .shiftOfFloating

def binary (l r : Primitive) (op : BinaryOp) : Except Trouble Primitive :=
  match l, r with
  | boolean a, boolean b => booleanOp a b op
  | _, _ =>
    if l.type = .boolean ∨ r.type = .boolean then
      match op with
      | .eq => .ok (boolean false)
      | .ne => .ok (boolean true)
      | _ => fault (.typeMismatch l.type.name r.type.name)
    else if op.isShift then shiftOp l r op
    else
      match promote l r with
      | .error e => raised e
      | .ok (a, b, t) =>
        match a.number, b.number with
        | .ok (.int m), .ok (.int n) => integralOp m n op t
        | .ok (.float x), .ok (.float y) => floatingOp x y op t
        | _, _ => fault (.badOperator op.symbol t.name)

def mapNumber (onInt : Int → Int) (onFloat : Float → Float) : Number → Except Trouble Primitive
  | .int n => hosted (ofInt t (onInt n))
  | .float x => hosted (ofFloat t (onFloat x))

def unary (p : Primitive) (op : UnaryOp) : Except Trouble Primitive :=
  match p with
  | boolean b =>
    match op with
    | .not => .ok (boolean (!b))
    | _ => fault (.badOperator op.symbol "boolean")
  | _ =>
    let t := p.type
    let pt := t.promoted
    match p.number with
    | .error e => raised e
    | .ok v =>
      match op with
      | .not => fault (.badOperator "!" t.name)
      | .plus => mapNumber pt id id v
      | .minus => mapNumber pt (fun n => -n) (fun x => -x) v
      | .complement => if pt.isFloating then fault (.badOperator "~" t.name) else mapNumber pt (fun n => -n - 1) id v
      | .increment => mapNumber t (· + 1) (· + 1.0) v
      | .decrement => mapNumber t (· - 1) (· - 1.0) v
      | .other s => fault (.unknownUnary s)

end ScriptCore.Primitive
