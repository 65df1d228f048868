import ScriptCore.Host.Assignability
import ScriptCore.Host.Proxy
import ScriptCore.Primitive.Arithmetic

namespace ScriptCore

namespace Run

def castFailure {α : Type} (target source : Ty) (mode : Conversion) : Faulty α := do
  let s ← read fun w => w.argTypeName source
  let t ← read fun w => w.typeName target
  match mode with
  | .assignment => fault (.cannotAssign s t)
  | .cast => throwInto ⟨.classCastError, (Cause.cannotCast s t).message⟩ (.cannotCast s t)

/-- Converts a boxed value. On assignment it can only be widened; booleans convert to nothing else.
A value that is no number stays the one it is. -/
def castPrimitive (p : Primitive) (mark : Nat) (t : PrimType) (mode : Conversion) : Faulty Value :=
  if p.type = t then pure (.boxed p mark)
  else if p.type = .boolean || t = .boolean then castFailure (.prim t) (.prim p.type) mode
  else if mode = .assignment && (p.type.widening? t).isNone then castFailure (.prim t) (.prim p.type) mode
  else do
    let q ← ofHost (p.convert t)
    pure (.boxed q mark)

variable (v : Value)

def castToPrimitive (t : PrimType) (mode : Conversion) : Faulty Value := do
  let w ← get
  match w.wrap v with
  | .boxed p m => castPrimitive p m t mode
  | .null =>
    match v with
    | .null => castFailure (.prim t) .untyped mode
    | v => do
      let source ← read fun w => Ty.cls (w.classOf v)
      castFailure (.prim t) source mode
  | v => do
    let source ← read fun w => Ty.cls (w.classOf v)
    castFailure (.prim t) source mode

def castReference (t : Ty) (mode : Conversion) : Faulty Value := do
  let source ← read fun w => w.typeOf v
  match t with
  | .array _ => do
    let fits ← read fun w => w.isArray v && w.isAssignable source t
    if fits then pure v else castFailure t source mode
  | .cls c => do
    let fits ← read fun w => w.isInstance v c
    if fits then pure v
    else
      let interface ← read fun w => w.isInterface c
      match v with
      | .closure s => if interface then proxyOf s [c] else castFailure t source mode
      | _ => castFailure t source mode
  | .module m => fault (.notAType (World.moduleText m))
  | .prim p => castToPrimitive v p mode
  | .untyped => pure v

def cast (t : Ty) (mode : Conversion) : Faulty Value :=
  match t, v with
  | .untyped, v => pure v
  | _, .void => fault (.voidUsed mode)
  | .prim .void, _ => fault .castToVoid
  | .prim p, v => castToPrimitive v p mode
  | _, .null => pure .null
  | t, .boxed p m => do
    let fits ← read fun w => w.boxAssignable p.type t
    if fits then pure (.boxed p m) else castFailure t (.prim p.type) mode
  | t, v => castReference v t mode

def instanceOf (t : Ty) : Plain Bool :=
  match v, t with
  | .null, _ | .void, _ => pure false
  | .boxed p _, .prim q => pure (decide (p.type = q))
  | _, .prim _ => pure false
  | .boxed p _, t => read fun w => w.boxAssignable p.type t
  | v, .array c => read fun w => w.isArray v && w.isAssignable (w.typeOf v) (.array c)
  | v, .cls c => read fun w => w.isInstance v c
  | _, _ => raise ⟨.typeError, "isinstance() arg 2 must be a type, a tuple of types, or a union"⟩

def truthOf : Value → Faulty Bool
  | .boxed (.boolean b) _ => pure b
  | .bool b => pure b
  | .void => fault .conditionVoid
  | _ => fault .conditionNotBoolean

/-- What is looked at in an operand before it is promoted: its type first, and then the rank of
that. What is no primitive may have a type all the same, but one without a rank. -/
def operandType : Plain (Except String (Primitive × Nat)) := do
  match v with
  | .boxed p m => pure (.ok (p, m))
  | v => do
    let t ← getAttr v "type"
    let shown ← read fun w => w.valueClassName t
    pure (.error shown)

def promoted (a b : Value) : Plain Value := do
  match ← operandType a, ← operandType b with
  | .error owner, _ | _, .error owner =>
    raise ⟨.attributeError, "'" ++ owner ++ "' object has no attribute 'rank'"⟩
  | .ok (p, m), .ok (q, n) => do
    let (x, y, t) ← ofHost (p.promote q)
    newList [.boxed x m, .boxed y n, .primType t]

def unary (v : Value) (op : UnaryOp) : Faulty Value :=
  match v with
  | .void => fault .illegalVoid
  | .null => fault .illegalNull
  | .boxed p m => do
    let q ← ofTrouble (p.unary op)
    if op = .plus then pure (.boxed q m) else computedPrimitive q
  | _ => fault (.badOperator op.symbol "objects")

end Run

end ScriptCore
