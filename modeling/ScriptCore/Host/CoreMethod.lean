import ScriptCore.Host.Arithmetic
import ScriptCore.Host.Gateway
import ScriptCore.Host.Machinery

namespace ScriptCore.Evaluator

def newCursor (kind : CoreClass) (c : Cursor) : Plain Value := Run.alloc { cls := .core kind, payload := .cursor c }

def noAnswer : Plain Value := Run.alloc { cls := .core .notImplementedType, payload := .constant "NotImplemented" }

def orNoAnswer : Option Value → Plain Value
  | some v => pure v
  | none => noAnswer

def entriesOf (ev : Evaluator) (n : Nat) (entries : List Entry) : List Value → ev.Host (List Entry)
  | [] => pure entries
  | v :: rest => do
    let pair ← Action.catching (ev.elementsOf v) fun w e =>
      if Run.isFailureOf w e .typeError then
        some (Run.typeError ("cannot convert dictionary update sequence element #" ++ toString n ++ " to a sequence"))
      else none
    match pair with
    | [key, x] => do
      let more ← ev.putKey entries key x
      ev.entriesOf (n + 1) more rest
    | pair =>
      Run.raise ⟨.valueError, "dictionary update sequence element #" ++ toString n ++
        " has length " ++ toString pair.length ++ "; 2 is required"⟩

def putAll (ev : Evaluator) (entries : List Entry) : List Entry → ev.Host (List Entry)
  | [] => pure entries
  | e :: rest => do
    let more ← ev.putKey entries e.key e.value
    ev.putAll more rest

variable (ev : Evaluator)

def entriesWith (entries : List Entry) (v : Value) : ev.Host (List Entry) := do
  let w ← Run.get
  match w.payload? v with
  | some (.dict more) => ev.putAll entries more
  | _ => do
    let items ← ev.elementsOf v
    ev.entriesOf 0 entries items

def distinct (ev : Evaluator) (kept : List Element) : List Value → ev.Host (List Element)
  | [] => pure kept
  | v :: rest => do
    let more ← ev.putElement kept v
    ev.distinct more rest

def givenElements : List Value → ev.Host (List Value)
  | [] => pure []
  | v :: _ => ev.elementsOf v

variable (c : CoreClass)

def setUpCore (self : Value) (args : List Value) : ev.Host Unit := do
  let w ← Run.get
  let put : Payload → ev.Host Unit := fun p =>
    match self with
    | .object i => Run.retype i p
    | _ => pure ()
  match c, w.payload? self with
  | .object, _ =>
    if args.isEmpty then pure ()
    else
      match w.answer self "__init__" with
      | .given _ => Run.typeError "object.__init__() takes exactly one argument (the instance to initialize)"
      | _ => Run.refuse "" self "() takes no arguments"
  | .list, some (.list _) => do
    Run.expectArgs "list" 0 1 args.length
    let items ← ev.givenElements args
    put (.list items)
  | .set, some (.set _) => do
    Run.expectArgs "set" 0 1 args.length
    let items ← ev.givenElements args
    let kept ← ev.distinct [] items
    put (.set (Element.arranged kept))
  | .dict, some (.dict entries) => do
    Run.expectArgs "dict" 0 1 args.length
    match args with
    | [] => pure ()
    | v :: _ => do
      let more ← ev.entriesWith entries v
      put (.dict more)
  | .array, some (.array ..) =>
    match args with
    | [component, elements] => do
      let items ← ev.elementsOf elements
      let held ← Run.newList items
      put (.array (w.tyOf component) held)
    | _ => pure ()
  | _, some (.exception _) => do
    let held ← Run.newTuple args
    put (.exception held)
  | _, some (.failure f _) => do
    let held ← Run.newTuple args
    put (.failure f held)
  | _, _ => pure ()

def iteratorKind (w : World) (v : Value) : CoreClass :=
  match w.payload? v, w.text? v with
  | some (.list _), _ => .listIterator
  | some (.tuple _), _ => .tupleIterator
  | some (.dict _), _ => .keyIterator
  | some (.set _), _ => .setIterator
  | some (.range ..), _ => .rangeIterator
  | some (.bytes _), _ => .bytesIterator
  | _, some s => if s.toList.all fun c => c.toNat < 128 then .asciiIterator else .textIterator
  | _, none => .generator

def coreItem (self key : Value) : ev.Host Value := do
  let w ← Run.get
  match w.array? self, w.dict? self, w.sequence? self with
  | some (_, items), _, _ => do
    let n ← ev.arrayIndex items.length key
    pure (items[n]?.getD .null).unwrap
  | none, some (_, entries), _ => do
    match ← ev.entry? entries key with
    | some v => pure v
    | none => Run.raiseNew .keyError [key]
  | none, none, some seq => do
    let kind := match seq with | .text _ => "string" | .bytes _ => "byte" | _ => w.valueClassName self
    if isIndex w key then do
      let n ← ev.sizeIndex key
      let size ← coreSize w self
      let position : Int := if n < 0 then n + size else n
      match if position < 0 then seq.element? size else seq.element? position.toNat with
      | .ok v => pure v
      | .error m => Run.raise ⟨.indexError, m⟩
    else Run.refuse (kind ++ " indices must be integers or slices, not ") key ""
  | none, none, none => Run.refuse "'" self "' object is not subscriptable"

def setCoreItem (self key v : Value) : Action ev.may .fault Unit := do
  let w ← Run.get
  match w.payload? self, self with
  | some (.array ..), .object i => do
    let items := ((w.array? self).map Prod.snd).getD []
    let n ← ev.arrayIndex items.length key
    Run.arraySet i n (w.wrap v)
  | some (.dict entries), .object i => do
    let more ← ev.putKey entries key v
    Run.refill i (.dict more)
  | some (.list items), .object i =>
    if isIndex w key then do
      let n ← ev.sizeIndex key
      let position : Int := if n < 0 then n + items.length else n
      if position < 0 || position ≥ items.length then
        Run.raise ⟨.indexError, "list assignment index out of range"⟩
      else Run.setItems i (items.set position.toNat v)
    else Run.refuse "list indices must be integers or slices, not " key ""
  | _, _ => pure ()

def coreContains (self v : Value) : ev.Host Bool := do
  let w ← Run.get
  match w.text? self, w.text? v, w.payload? self with
  | some s, some piece, _ => pure (Search.position? piece.toList s.toList).isSome
  | some _, none, _ => Run.refuse "'in <string>' requires string as left operand, not " v ""
  | none, _, some (.dict entries) => do
    let n ← ev.keyIndex? entries v
    pure n.isSome
  | none, _, some (.set items) => do
    let h ← ev.hashed v
    let n ← ev.hashedIndex? h v items
    pure n.isSome
  | none, _, _ => do
    let n ← ev.indexOf? v ((w.heldItems? self).getD [])
    pure n.isSome

def specialArguments? : String → Option Nat
  | "__init__" | "__call__" => none
  | "__eq__" | "__ne__" | "__lt__" | "__le__" | "__gt__" | "__ge__" | "__delattr__" | "__getattribute__" | "__or__"
  | "__ror__" | "__contains__" | "__getitem__" | "__add__" | "__radd__" | "__mul__" | "__rmul__" => some 1
  | "__setitem__" | "__setattr__" => some 2
  | _ => some 0

def coreOperator (name : String) (self x : Value) : ev.Host Value := do
  let w ← Run.get
  let (a, b) := if name = "__radd__" || name = "__rmul__" then (x, self) else (self, x)
  let numeric := (w.number? self).isSome
  if name = "__add__" || name = "__radd__" then do
    match ← coreSum w a b with
    | some v => pure v
    | none => if numeric then noAnswer else ev.hostAdd a b
  else if numeric && (w.number? x).isNone then noAnswer
  else do
    let v ← ev.coreProduct w a b
    orNoAnswer v

def plainAttribute (question : String) (self key x : Value) : Action .retype .proper Value := do
  let w ← Run.get
  match w.text? key, question, self with
  | none, _, _ => Run.refuse "attribute name must be string, not '" key "'"
  | some name, "__getattribute__", v => Run.getAttr v name
  | some name, "__setattr__", .object i => do
    Run.setOwnAttr i name x
    pure .none
  | some name, "__setattr__", v => do
    Run.setAttr v name x
    pure .none
  | some name, _, .object i => do
    if (w.obj i).attrs.contains name then do
      Run.updateObj i (fun o => { o with attrs := o.attrs.erase name }) fun _ => ⟨rfl, rfl, rfl⟩
      pure .none
    else Run.raise ⟨.attributeError, w.missingOn self name⟩
  | some name, _, v => Run.raise ⟨.attributeError, w.missingOn v name⟩

def coreSpecial (name : String) (self : Value) (args : List Value) : Action ev.may .fault Value := do
  let w ← Run.get
  let first := args.headD .none
  match name with
  | "__init__" => do
    ev.setUpCore c self args
    pure .none
  | "__call__" => ev.call self args
  | "__str__" => do
    let s ← ev.coreText c self
    Run.computed s
  | "__repr__" => do
    let s ← if c = .object then pure (w.instanceText (w.classOf self)) else ev.describeCore self
    Run.computed s
  | "__eq__" => do
    let r ← if c = .object then pure (if self.same first then some true else none) else ev.coreEqual self first
    orNoAnswer (r.map Value.bool)
  | "__hash__" => do
    let h ← if c = .object then pure (Hash.own self) else ev.coreHash self
    pure (.int h.number!)
  | "__len__" => do
    let n ← coreSize w self
    pure (.int n)
  | "__bool__" => do
    let b ← match w.number? self with
      | some (.inl n) => pure (decide (n ≠ 0))
      | some (.inr x) => pure (!(x == 0.0))
      | none => if self.isNone then pure false else return .bool ((← coreSize w self) ≠ 0)
    pure (.bool b)
  | "__int__" | "__index__" => do
    let n ← match w.number? self with
      | some (.inl n) => pure n
      | some (.inr x) => Run.ofIntegerPart x
      | none => pure 0
    pure (.int n)
  | "__float__" => ev.floatOf self
  | "__iter__" => do
    match w.payload? self with
    | some (.cursor _) => pure self
    | _ => do
      let walk ← coreCursor w self
      newCursor (iteratorKind w self) walk
  | "__next__" => do
    let c ← coreCursor w self
    match ← ev.advance c with
    | some (v, _) => pure v
    | none => Run.raiseNew .stopIteration []
  | "__contains__" => do
    let b ← ev.coreContains self first
    pure (.bool b)
  | "__getitem__" => ev.coreItem self first
  | "__setitem__" => do
    ev.setCoreItem self first (args[1]?.getD .none)
    pure .none
  | "__ne__" => do
    match ← ev.callMethod self "__eq__" [first] with
    | .bool b => pure (.bool !b)
    | r => pure r
  | "__lt__" | "__le__" | "__gt__" | "__ge__" | "__or__" | "__ror__" => noAnswer
  | "__getattribute__" | "__setattr__" | "__delattr__" =>
    if c = .primitive then Run.raise ⟨.attributeError, "Primitive values are immutable"⟩
    else plainAttribute name self first (args[1]?.getD .none)
  | name => ev.coreOperator name self first

def machineMethod (self : Value) (name : String) (args : List Value) : Action ev.answering .any Value := do
  let w ← Run.get
  let missing := fun (part : String) => Run.raise ⟨.attributeError, w.missingOn self part⟩
  match c, self, w.array? self with
  | .array, .object i, some (_, items) => ev.arrayMethod i items name args
  | .array, _, _ => missing "elements"
  | .primitive, v, _ => if v.isMarkerOrPrimitive then boxedMethod v name else missing "type"
  | .closure, .closure s, _ => ev.closureMethod s name args
  | .scope, .scope s, _ | .blockScope, .scope s, _ => ev.scopeMethod s name args
  | .callStack, .stack n, _ => ev.stackMethod n name args
  | .interpreter, .interpreter, _ => ev.interpreterMethod name args
  | .bridge, v, _ =>
    ev.gatewayMethod (if w.isInstance v (.library .restrictedBridge) then .restricted else .standard) name args
  | .capability, v, _ => memberArity v
  | .type, .cls k, _ => if name = "mro" then Run.newList ((w.mro k).map Value.cls) else pure .none
  | .object, v, _ => do
    let s ← ev.text v
    Run.computed s
  | .closure, _, _ => missing "namespace"
  | _, _, _ => missing name

def checkReceiver (name : String) (self : Value) : Plain Unit := do
  let w ← Run.get
  if c.hasFunctions || w.isInstance self (.core c) then pure ()
  else if c.isSlot name then
    Run.refuse ("descriptor '" ++ name ++ "' requires a '" ++ c.name ++ "' object but received a '") self "'"
  else Run.refuse ("descriptor '" ++ name ++ "' for '" ++ c.name ++ "' objects doesn't apply to a '") self "' object"

def callCoreMethod (name : String) (args : List Value) : Action ev.answering .any Value := do
  let given := (c.functions.find? fun e => e.1 = name).map Prod.snd
  match given.bind fun s => s.misfit? (c.name ++ "." ++ name) args.length, args with
  | some m, _ => Run.typeError m
  | none, [] =>
    if c.hasFunctions then
      Run.typeError (c.name ++ "." ++ name ++ "() missing 1 required positional argument: 'self'")
    else if c.isSlot name then
      Run.typeError ("descriptor '" ++ name ++ "' of '" ++ c.name ++ "' object needs an argument")
    else Run.typeError ("unbound method " ++ c.name ++ "." ++ name ++ "() needs an argument")
  | none, self :: rest => do
    checkReceiver c name self
    if c.specials.contains name then do
      match specialArguments? name with
      | some n =>
        if c.hasFunctions || rest.length = n then pure ()
        else Run.typeError ("expected " ++ Run.argumentsText n ++ ", got " ++ toString rest.length)
      | none => pure ()
      ev.coreSpecial c name self rest
    else do
      let w ← Run.get
      match w.text? self, w.payload? self, self with
      | some s, _, _ => ev.textMethod s name rest
      | none, some (.list items), .object i =>
        if c = .list then ev.listMethod i items name rest else ev.machineMethod c self name rest
      | none, some (.dict entries), .object i =>
        if c = .dict then ev.dictMethod i entries name rest else ev.machineMethod c self name rest
      | _, _, _ => ev.machineMethod c self name rest

end ScriptCore.Evaluator
