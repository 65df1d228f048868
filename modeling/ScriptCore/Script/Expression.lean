import ScriptCore.Host.Arithmetic
import ScriptCore.Script.Class

namespace ScriptCore.Evaluator

variable (ev : Evaluator)

def scriptText (v : Value) : ev.Host (String × Nat) :=
  match v with
  | .null => pure ("null", 0)
  | .void => pure ("void", 0)
  | .boxed p _ => pure (p.text, 0)
  | .bool b => pure (if b then "true" else "false", 0)
  | .str s m => pure (s, m)
  | v => do
    let s ← ev.text v
    pure (s, 0)

def concat (a b : String × Nat) : Plain Value :=
  if a.1.isEmpty then pure (.str b.1 b.2)
  else if b.1.isEmpty then pure (.str a.1 a.2)
  else Run.freshText (a.1 ++ b.1)

def isText (w : World) (v : Value) : Bool := (w.text? v).isSome

def joinTexts (l r : Value) : ev.Host Value := do
  let a ← ev.scriptText l
  let b ← ev.scriptText r
  concat a b

def referenceOp (l r : Value) (op : BinaryOp) : Action ev.may .fault Value := do
  let w ← Run.get
  match op with
  | .eq => pure (.ofTruth (l.same r))
  | .ne => pure (.ofTruth (!l.same r))
  | op =>
    if op = .add && (isText w l || isText w r) then ev.joinTexts l r
    else if l.isVoid || r.isVoid then Run.fault .illegalVoid
    else if l.isNull || r.isNull then Run.fault .illegalNull
    else Run.fault (.badOperator op.symbol "objects")

/-- Applies an operator to two values. What is no number is a new one, except that division by zero
always gives the same. -/
def binaryOp (l r : Value) (op : BinaryOp) : Action ev.may .fault Value :=
  match l, r with
  | .boxed p _, .boxed q _ => do
    let v ← Run.ofTrouble (p.binary q op)
    if (op = .div || op = .rem) && q.isZero then pure (.boxed v 0) else Run.computedPrimitive v
  | l, r => ev.referenceOp l r op

/-- Joins a text on the left of a compound assignment with the text of a value, as the class of the
left one adds. -/
def appendText (l r : Value) : ev.Host Value := do
  let t ← ev.scriptText r
  ev.hostAdd l (.str t.1 t.2)

def compoundOp (l r : Value) (op : BinaryOp) : Action ev.may .fault Value := do
  let w ← Run.get
  if isText w l && !r.isVoid then
    if op = .add then ev.appendText l r else Run.fault .stringOperator
  else if l.isVoid || r.isVoid then Run.fault .undefinedOperand
  else if l.isNull || r.isNull then Run.fault .nullOperand
  else
    match l, r with
    | .boxed .., .boxed .. => ev.binaryOp l r op
    | l, r => Run.fault (.nonPrimitiveOperand (w.qualname (w.classOf l)) op.symbol (w.qualname (w.classOf r)))

def condition (n : Node) : Eval Bool := do
  let v ← ev.eval n
  Eval.located none n (Run.truthOf v)

def checkObject (v : Value) (what : String) : Faulty Unit :=
  match v with
  | .null => Run.throwInto ⟨.attributeError, (Cause.nullPointer what).message⟩ (.nullPointer what)
  | .void => Run.fault (.undefinedWhile what)
  | .boxed .. => Run.fault (.primitiveAsObject what)
  | _ => pure ()

def knownFrom (s : Option ScopeId) (name : String) : Plain (Option ScopeId) :=
  match s with
  | none => pure none
  | some s => do
    let b ← Run.findBinding s name true
    pure (b.map fun _ => s)

def fieldValue (top : ScopeId) (obj : Value) (name : String) : Action ev.may .any Value := do
  checkObject obj name
  let w ← Run.get
  match obj, w.array? obj, w.classId? obj with
  | .closure b, _, _ => Run.getVariable b name false
  | _, some (_, items), _ =>
    if name = "length" then pure (.ofInt items.length) else ev.getField obj name
  | _, _, some target => Run.staticMember top target name
  | _, _, _ => do
    match ← knownFrom (w.instanceScope? obj) name with
    | some s => Run.getVariable s name true
    | none => do
      let size ←
        if name = "length" then do
          if ← ev.hasField obj "length" then pure none else ev.sizeOf? obj
        else pure none
      match size with
      | some n => pure (.ofInt n)
      | none => ev.getField obj name

def fieldPlace (obj : Value) (name : String) : Faulty Place := do
  checkObject obj name
  let w ← Run.get
  match obj, w.classId? obj with
  | .closure b, _ => pure (.named b name true)
  | _, some target => do
    let static ←
      match w.staticScope? target with
      | none => pure none
      | some t => do
        let b ← Run.findBinding t name false
        pure (b.map fun _ => t)
    match static with
    | some t => pure (.named t name true)
    | none => pure (.field target (.ofString name))
  | _, none =>
    if name = "length" && w.isArray obj then Run.fault .assignArrayLength
    else do
      match ← knownFrom (w.instanceScope? obj) name with
      | some s => pure (.named s name false)
      | none => pure (.field obj (.ofString name))

def indexValue (suffix index : Node) : Eval Int := do
  let v ← ev.eval index
  let i ← Eval.located (some "Arrays may only be indexed by integer types.") suffix
    (Run.cast v (.prim .int) .assignment)
  match i with
  | .boxed (.int n) _ => pure n
  | _ => pure 0

def propertyKey (ev : Evaluator) (suffix : Node) (obj : Value) (key : Node) : Eval Value :=
  match obj with
  | .void => Eval.stop suffix .propertyOnUndefined
  | .null | .boxed .. => Eval.stop suffix .propertyOnPrimitive
  | _ => do
    let k ← ev.eval key
    let w ← Run.get
    if isText w k then pure k else Eval.stop suffix .propertyKey

def atSuffix {α : Type} (suffix : Node) (x : Eval α) : Eval α :=
  Eval.catching x fun w e =>
    match w.seen e with
    | .fault c t => some do
      let k ← Eval.frames
      Comp.fail (Run.locate none suffix (some k) c t)
    | .reflect m => some (Eval.stop suffix (.text ("reflection error: " ++ m)))
    | .hostCall _ v => some (Eval.stopWith suffix "target exception" v true)
    | _ => none

def callValueOf (suffix : Node) (obj : Value) (name : String) (args : List Node) : Eval Value := do
  let values ← ev.evalArgs args
  let top ← Eval.top
  ev.invokeOn top obj name values suffix

def suffixValue (suffix : Node) (obj : Value) : Eval Value :=
  match suffix with
  | .fieldSuffix _ name => atSuffix suffix do
    let top ← Eval.top
    ev.fieldValue top obj name
  | .callSuffix _ name args => atSuffix suffix (ev.callValueOf suffix obj name args)
  | .indexSuffix _ index => atSuffix suffix do
    checkObject obj "index"
    let n ← ev.indexValue suffix index
    ev.getIndex obj n
  | .propertySuffix _ key => atSuffix suffix do
    let k ← ev.propertyKey suffix obj key
    Eval.catching (ev.getProperty obj k) fun w e =>
      match w.seen e with
      | .reflect _ => some do
        let shown ← ev.text k
        Eval.stop suffix (.noProperty shown)
      | _ => none
  | .classSuffix _ => Eval.stop suffix .classSuffixOnNonClass
  | n => Run.internal ("Unknown suffix type: " ++ n.kind)

def suffixPlace (suffix : Node) (obj : Value) : Eval Place :=
  match suffix with
  | .fieldSuffix _ name => atSuffix suffix (fieldPlace obj name)
  | .callSuffix _ name args => atSuffix suffix do
    let v ← ev.callValueOf suffix obj name args
    pure (.result v)
  | .indexSuffix _ index => atSuffix suffix do
    checkObject obj "index"
    let n ← ev.indexValue suffix index
    pure (.index obj (.int n))
  | .propertySuffix _ key => atSuffix suffix do
    let k ← ev.propertyKey suffix obj key
    pure (.property obj k)
  | .classSuffix _ => Eval.stop suffix .classSuffixOnNonClass
  | n => Run.internal ("Unknown suffix type: " ++ n.kind)

def suffixesValue (ev : Evaluator) (obj : Value) : List Node → Eval Value
  | [] => pure obj
  | s :: rest => do
    let v ← ev.suffixValue s obj
    ev.suffixesValue v rest

def suffixesPlace (ev : Evaluator) (obj : Value) : List Node → Eval Place
  | [] => pure (.result obj)
  | [s] => ev.suffixPlace s obj
  | s :: rest => do
    let v ← ev.suffixValue s obj
    ev.suffixesPlace v rest

def typeBeforeClass (suffix base : Node) : Eval Ty :=
  match base with
  | .name o path => resolveType (.typeRef { loc := o.loc } (.named path) 0)
  | .typeRef o target dims => resolveType (.typeRef o target dims)
  | _ => Eval.stop suffix .classSuffixOnNonClass

def classOperand (t : Ty) : Plain Value :=
  match t with
  | .cls c => Run.newClassId (.cls c)
  | t => Run.ofType t

def primaryValue (base : Node) (suffixes : List Node) : Eval Value :=
  match suffixes with
  | [] => ev.eval base
  | .classSuffix l :: rest => do
    let t ← typeBeforeClass (.classSuffix l) base
    if rest.isEmpty then Run.ofType t
    else do
      let v ← classOperand t
      ev.suffixesValue v rest
  | suffixes => do
    let v ← ev.eval base
    ev.suffixesValue v suffixes

def primaryPlace (base : Node) (suffixes : List Node) : Eval Place :=
  match suffixes with
  | .classSuffix l :: rest => do
    let t ← typeBeforeClass (.classSuffix l) base
    if rest.isEmpty then Eval.stop (.classSuffix l) .assignClassSuffix
    else do
      let v ← classOperand t
      ev.suffixesPlace v rest
  | suffixes => do
    let v ← ev.eval base
    ev.suffixesPlace v suffixes

def placeOf (ev : Evaluator) (n : Node) : Eval Place :=
  match n with
  | .name l path => Eval.located none (.name l path) do
    let top ← Eval.top
    let _ ← Run.resolverFor top path
    ev.resolvePlace top path
  | .primary _ base [] => placeOf ev base
  | .primary _ base suffixes => ev.primaryPlace base suffixes
  | n => Eval.stop n .assignToNonPlace

def assignment (node target : Node) (op : AssignOp) (value : Node) : Eval Value := do
  let place ← ev.placeOf target
  let old ←
    match op with
    | .plain => pure none
    | .compound op => Eval.located none node do
      let v ← place.read ev
      pure (some (v, op))
  if value.isArrayInit then Eval.stop node .initializerNeedsType
  else do
    match ← ev.eval value with
    | .void => Eval.stop node .voidAssignment
    | v => do
      let strict ← Run.read fun w => w.settings.strict
      Eval.located none node do
        let result ←
          match old with
          | none => pure v
          | some (l, op) => ev.compoundOp l v op
        place.assign ev result strict

def binary (node left : Node) (op : BinaryOp) (right : Node) : Eval Value :=
  match op with
  | .instanceOf => do
    let v ← ev.eval left
    match right with
    | .typeRef .. => do
      let ty ← resolveType right
      let b ← Run.instanceOf v ty
      pure (.ofTruth b)
    | _ => Eval.stop node .instanceofRequiresType
  | .and => do
    if ← ev.condition left then do
      let b ← ev.condition right
      pure (.ofTruth b)
    else pure (.ofTruth false)
  | .or => do
    if ← ev.condition left then pure (.ofTruth true)
    else do
      let b ← ev.condition right
      pure (.ofTruth b)
  | op => do
    let l ← ev.eval left
    let r ← ev.eval right
    Eval.located none node (ev.binaryOp l r op)

def unary (ev : Evaluator) (node : Node) (op : UnaryOp) (operand : Node) (trailing : Bool) : Eval Value :=
  Eval.located none node <|
    if op = .increment || op = .decrement then do
      let place ← ev.placeOf operand
      let before ← place.read ev
      let after ← Run.unary before op
      let strict ← Run.read fun w => w.settings.strict
      let _ ← place.assign ev after strict
      pure (if trailing then before else after)
    else do
      let v ← ev.eval operand
      Run.unary v op

variable (node : Node)

def castExpr (type : Node) (expr : Node) : Eval Value := do
  let t ← resolveType type
  let v ← ev.eval expr
  Eval.located none node (Run.cast v t .cast)

def constructHost (target : Value) (args : List Value) : Eval Value :=
  Eval.catching (do
    let v ← ev.construct target args
    Run.read fun w => w.wrap v) fun w e =>
    match w.seen e with
    | .reflect m => some (Eval.stop node (.text ("Constructor error: " ++ m)))
    | .hostCall _ v => some (Eval.stopWith node "Object constructor" v true)
    | _ => none

def extendModule (m : Module) : Eval Value := do
  let w ← Run.get
  Run.countAnonymous
  let top ← Eval.top
  let outer := w.scope top
  let name := m.name ++ "$" ++ toString (w.anonymousCount + 1)
  let shown := if outer.isClass then outer.name ++ "$" ++ name else name
  Comp.fail (.classGeneration ("Can't generate class " ++ shown ++ ": " ++ ClassSpec.conflict))

def allocation (type : Node) (args : List Node) (body : Node) :
    Eval Value := do
  let t ← resolveType type
  let values ← ev.evalArgs args
  match t with
  | .cls c => do
    let c ← if body.isAbsent then pure c else ev.generateAnonymous c body node
    let w ← Run.get
    if (w.inheritedScript? c).isSome then ev.constructScripted c values node
    else if w.isInterface c then Eval.stop node (.interfaceInstance (w.qualname c))
    else ev.constructHost node (.cls c) values
  | .module m => if body.isAbsent then ev.constructHost node (.module m) values else extendModule m
  | t => do
    let shown ← Run.read fun w => w.typeName t
    Eval.stop node (.cannotInstantiate shown)

mutual

def initElement (ev : Evaluator) (c : Ty) : Node → Eval Value
  | .arrayInit l es =>
    match c with
    | .array inner => do
      let items ← initElements ev inner es
      Run.newArray inner items
    | c =>
      if c = Ty.object then do
        let items ← initElements ev Ty.object es
        Run.newArray Ty.object items
      else Eval.stop (.arrayInit l es) (.wrongDepth (c.dimensions + 1))
  | e => do
    match ← ev.eval e with
    | .void => Eval.stop e .voidElement
    | v => do
      let shown ← Run.read fun w => w.typeName c
      Eval.located (some ("Error in array initializer: " ++ shown)) e (Run.cast v c .cast)

def initElements (ev : Evaluator) (c : Ty) : List Node → Eval (List Value)
  | [] => pure []
  | e :: rest => do
    let v ← initElement ev c e
    let vs ← initElements ev c rest
    pure (v :: vs)

end

def initArray (component : Ty) (init : Node) : Eval Value :=
  match init with
  | .arrayInit _ es => do
    let items ← ev.initElements component es
    Run.newArray component items
  | n => Run.part n "elements" none

def allocate (component : Ty) : List (Option Int) → Plain Value
  | [] => Run.raise ⟨.valueError, "array allocation needs at least one dimension"⟩
  | none :: _ => Run.raise ⟨.typeError, "'<' not supported between instances of 'NoneType' and 'int'"⟩
  | some size :: rest => do
    if size < 0 then Run.raise ⟨.negativeArraySizeError, toString size⟩
    else
      let inner := match component with | .array c => c | c => c
      match rest with
      | [] => Run.newArray component (List.replicate size.toNat (Value.default component))
      | none :: _ => Run.newArray component (List.replicate size.toNat .null)
      | some _ :: _ => do
        let items ← collect (List.range size.toNat) fun _ => allocate inner rest
        Run.newArray component items

def evalLengths (ev : Evaluator) (node : Node) : List (Option Int) → List Node → Eval (List (Option Int))
  | acc, [] => pure acc.reverse
  | acc, .absent :: rest => ev.evalLengths node (none :: acc) rest
  | acc, d :: rest =>
    match acc with
    | none :: _ => Eval.stop node .unsizedBeforeSized
    | acc => do
      let v ← ev.eval d
      let n ← Eval.located (some "Array index") d (Run.cast v (.prim .int) .assignment)
      let size := match n with | .boxed (.int k) _ => k | _ => 0
      ev.evalLengths node (some size :: acc) rest

def arrayAllocation (type : Node) (dims : List Node) (init : Node) :
    Eval Value := do
  let resolved ← resolveType type
  let base := if resolved = .untyped then Ty.object else resolved
  if dims.isEmpty then Eval.stop node .noDimension
  else
    let component := base.nested (dims.length - 1)
    if !init.isAbsent then ev.initArray component init
    else do
      let lengths ← ev.evalLengths node [] dims
      match lengths with
      | none :: _ => Eval.stop node .sizeRequired
      | lengths =>
        Eval.catching (allocate component lengths) fun w e =>
          match e with
          | .thrown v =>
            if w.isInstance v (.core .negativeArraySizeError) then
              some (Eval.stopWith node "Negative array size" v false)
            else none
          | _ => none

end ScriptCore.Evaluator
