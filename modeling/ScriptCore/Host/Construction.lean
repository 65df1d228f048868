import ScriptCore.Host.LibraryCall

namespace ScriptCore.Evaluator

variable (ev : Evaluator)

def intInBase (v base : Value) : ev.Host Int := do
  let n ← ev.index base
  if !(n = 0 || (2 ≤ n && n ≤ 36)) then raiseText .valueError "int() base must be >= 2 and <= 36, or 0"
  else do
    let w ← Run.get
    match w.text? v with
    | some s =>
      match Numeral.integer? n.toNat s with
      | some k => pure k
      | none =>
        raiseText .valueError ("invalid literal for int() with base " ++ toString n ++ ": " ++ Quoted.quote s)
    | none => Run.typeError "int() can't convert non-string with explicit base"

def newInt (args : List Value) : ev.Host Int :=
  match args with
  | [] => pure 0
  | [v] => ev.intOf v
  | [v, base] => ev.intInBase v base
  | _ => Run.typeError ("int() takes at most 2 arguments (" ++ toString args.length ++ " given)")

def newFloat (args : List Value) : ev.Host Value := do
  Run.expectArgs "float" 0 1 args.length
  ev.floatOf (args.headD (.int 0))

def decodedText {α : Type} (v : Value) (more : List Value) : Plain α := do
  let w ← Run.get
  let misplaced := (more.zip ["encoding", "errors"]).find? fun e => !((w.text? e.1).any fun s => !s.contains '\x00')
  if more.length > 2 then
    Run.typeError ("str() takes at most 3 arguments (" ++ toString (more.length + 1) ++ " given)")
  else
    match misplaced with
    | some (x, role) =>
      if (w.text? x).isSome then raiseText .valueError "embedded null character"
      else
        let shown := if x.isNone then "None" else w.valueClassName x
        Run.typeError ("str() argument '" ++ role ++ "' must be str, not " ++ shown)
    | none =>
      if (w.text? v).isSome then Run.typeError "decoding str is not supported"
      else Run.refuse "decoding to str: need a bytes-like object, " v " found"

def newText (args : List Value) : ev.Host Value :=
  match args with
  | [] => pure (.ofString "")
  | [.str s m] => pure (.str s m)
  | [v] => do
    let s ← ev.text v
    Run.computed s
  | v :: more => decodedText v more

def newRange (args : List Value) : ev.Host Value := do
  Run.expectArgs "range" 1 3 args.length
  let ns ← collect args ev.index
  let make := fun (a b c : Int) => Run.alloc { cls := .core .range, payload := .range a b c }
  match ns with
  | [b] => make 0 b 1
  | [a, b] => make a b 1
  | a :: b :: c :: _ =>
    if c = 0 then raiseText .valueError "range() arg 3 must not be zero" else make a b c
  | [] => pure .none

def failureFrom (c : CoreClass) (args : List Value) : Plain Value := do
  let w ← Run.get
  match args with
  | [] =>
    let parameter := match c with | .hostInvocationError | .utilTargetException => "target" | _ => "message"
    Run.typeError (c.name ++ ".__init__() missing 1 required positional argument: '" ++ parameter ++ "'")
  | v :: _ => do
    let m := w.plainText v
    let make := fun (f : Failure) (shown : Value) => do
      let held ← Run.newTuple [shown]
      Run.alloc { cls := .core c, payload := .failure f held }
    match c with
    | .evalError => make (.report { message := m }) v
    | .targetException =>
      Run.typeError "TargetException.__init__() missing 1 required positional argument: 'target'"
    | .utilTargetException => make (.fault (.text m) (some ⟨v, false⟩)) (.ofString m)
    | .hostInvocationError => make (.hostCall m v) (.ofString m)
    | .classNotFound => make (.fault (.classNotFound m) none) v
    | _ => make (.fault (.text m) none) v

def isFailureClass : CoreClass → Bool
  | .evalError | .targetException | .utilEvalException | .utilTargetException | .classNotFound
  | .hostInvocationError => true
  | _ => false

def newTupleFrom (args : List Value) : ev.Host Value := do
  Run.expectArgs "tuple" 0 1 args.length
  let w ← Run.get
  match args with
  | [] => Run.newTuple []
  | v :: _ =>
    if w.classOf v = .core .tuple then pure v
    else do
      let items ← ev.elementsOf v
      Run.newTuple items

/-- What the classes of the interpreter's own objects are called with, as far as scripts can make
such objects. -/
def ownParameters? : CoreClass → Option Signature
  | .closure => some ⟨["self", "namespace", "interpreter"], 3, false⟩
  | .signal => some ⟨["self", "kind", "value", "node"], 4, false⟩
  | .array => some ⟨["self", "component_type", "elements"], 3, false⟩
  | .arrayType => some ⟨["self", "component"], 2, false⟩
  | .classIdentifier => some ⟨["self", "target"], 2, false⟩
  | .callStack => some ⟨["self", "namespace"], 1, false⟩
  | _ => none

/-- An object of one of the interpreter's own classes. A signal is made only by scripts within whose
reach its class is, and only of one of the three kinds. -/
def newOwn (c : CoreClass) (args : List Value) : ev.Host Value := do
  let w ← Run.get
  match c, args with
  | .closure, .scope s :: _ => pure (.closure s)
  | .signal, kind :: value :: _ => do
    let made ←
      match (w.text? kind).bind SignalKind.ofName? with
      | some kind => Run.newSignal { kind, value, node := .absent }
      | none => pure none
    match made with
    | some v => pure v
    | none => Run.refuse "a signal of kind " kind " cannot be made"
  | .array, component :: elements :: _ => do
    let items ← ev.elementsOf elements
    Run.newArray (w.tyOf component) items
  | .arrayType, component :: _ => Run.ofType (.array (w.tyOf component))
  | .classIdentifier, target :: _ => Run.alloc { cls := .core c, payload := .classId target }
  | .callStack, args => do
    let k ← Run.newStack ⟨args.filterMap fun v => match v with | .scope s => some s | _ => none⟩
    pure (.stack k)
  | c, _ => Run.newInstance (.core c)

def callCore (c : CoreClass) (args : List Value) : ev.Host Value := do
  match c with
  | .int => do
    let n ← ev.newInt args
    pure (.int n)
  | .float => ev.newFloat args
  | .bool => do
    Run.expectArgs "bool" 0 1 args.length
    let b ← ev.truth (args.headD .none)
    pure (.bool b)
  | .str => ev.newText args
  | .tuple => ev.newTupleFrom args
  | .list => do
    Run.expectArgs "list" 0 1 args.length
    let items ← ev.givenElements args
    Run.newList items
  | .set => do
    Run.expectArgs "set" 0 1 args.length
    let items ← ev.givenElements args
    let kept ← ev.distinct [] items
    Run.alloc { cls := .core .set, payload := .set (Element.arranged kept) }
  | .dict => do
    Run.expectArgs "dict" 0 1 args.length
    let entries ← match args with | [] => pure [] | v :: _ => ev.entriesWith [] v
    Run.alloc { cls := .core .dict, payload := .dict entries }
  | .range => ev.newRange args
  | .type =>
    match args with
    | [v] => Run.read fun w => .cls (w.classOf v)
    | _ => Run.typeError "type() takes 1 or 3 arguments"
  | .noneType => if args.isEmpty then pure .none else Run.typeError "NoneType takes no arguments"
  | c =>
    if let some parameters := ownParameters? c then
      match parameters.misfit? (c.name ++ ".__init__") (args.length + 1) with
      | none => ev.newOwn c args
      | some m => Run.typeError m
    else if isFailureClass c then failureFrom c args
    else if c.isException then Run.newException (.core c) args
    else if args.isEmpty then Run.newInstance (.core c)
    else Run.typeError (c.name ++ "() takes no arguments")

def payloadFrom (c : ClassRef) (args : List Value) : ev.Host Payload := do
  let chain ← Run.read fun w => w.mro c
  let held := fun k => chain.contains (.core k)
  if held .baseException then do
    let all ← Run.newTuple args
    pure (.exception all)
  else if held .int then do
    let n ← ev.newInt args
    pure (.integer n)
  else if held .float then do
    match ← ev.newFloat args with
    | .float x m => pure (.real x m)
    | _ => pure (.real 0.0 0)
  else if held .str then do
    let v ← ev.newText args
    pure (.text (v.text?.getD ""))
  else if held .tuple then do
    Run.expectArgs "tuple" 0 1 args.length
    let items ← ev.givenElements args
    pure (.tuple items)
  else Run.emptyPayload c

def instantiate (c : ClassRef) (args : List Value) : ev.Host Value := do
  let w ← Run.get
  Run.checkInstance c args.length
  let payload ← ev.payloadFrom c args
  match w.member c "__init__", payload with
  | some (.coreMethod .object _), .plain =>
    if args.isEmpty then Run.alloc { cls := c, payload }
    else Run.typeError (w.className c ++ "() takes no arguments")
  | some (.coreMethod .object _), _ => Run.alloc { cls := c, payload }
  | _, _ => do
    let v ← Run.alloc { cls := c, payload }
    ev.setUpHost (w.mro c) v args
    pure v

def callValue (f : Value) (args : List Value) : Action ev.answering .any Value := do
  let w ← Run.get
  match f with
  | .function f | .staticFunction f => ev.callFunction f args
  | .coreMethod c name => ev.callCoreMethod c name args
  | .cls (.core c) => ev.callCore c args
  | .cls c => ev.instantiate c args
  | f =>
    match w.payload? f, w.answer f "__call__" with
    | some (.bound self g), _ => ev.callFunction g (self :: args)
    | some (.builtin self name), _ => ev.callCoreMethod (w.coreHome self name) name (self :: args)
    | _, .given g => ev.ask g f args
    | _, _ => Run.refuse "'" f "' object is not callable"

end ScriptCore.Evaluator
