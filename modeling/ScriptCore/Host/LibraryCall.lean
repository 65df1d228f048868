import ScriptCore.Host.CoreMethod
import ScriptCore.Script.Class

namespace ScriptCore.Evaluator

variable (ev : Evaluator) (v : Value)

def setAttrs (parts : List (String × Value)) : ev.Host Value := do
  forEach parts fun e => ev.setAttr v e.1 e.2
  pure .none

def raiseText {α : Type} (c : ErrorClass) (message : String) : Plain α := Run.raise ⟨c, message⟩

def raiseWith {α : Type} (c : ErrorClass) (arg : Value) : Plain α := Run.raiseNew c [arg]

def shouted (name : String) (args : List Value) : ev.Host Value := do
  let r ← ev.callMethod v name args
  ev.callMethod r "upper" []

def scaleAttr (name : String) (k offset : Value) : ev.Host Unit := do
  let x ← ev.getAttr v name
  let y ← ev.hostMul x k
  let z ← ev.hostAdd y offset
  ev.setAttr v name z

def showParts (name : String) (parts : List String) : ev.Host Value := do
  let shown ← collect parts fun p => do
    let x ← ev.getAttr v p
    ev.describe x
  Run.computed (name ++ "(" ++ ", ".intercalate shown ++ ")")

def failureKind? : String → Option ErrorClass
  | "value" => some .valueError
  | "key" => some .keyError
  | "runtime" => some .runtimeError
  | "index" => some .indexError
  | _ => none

def failAs (kind message : Value) : ev.Host Value := do
  let _ ← ev.hashed kind
  let w ← Run.get
  match (w.text? kind).bind failureKind? with
  | some c => raiseWith c message
  | none => raiseWith .keyError kind

def setUpCoded (v code text : Value) : ev.Host Value := do
  let w ← Run.get
  if w.isException v then do
    ev.setUpCore .baseException v [text]
    ev.setAttrs v [("code", code)]
  else Run.refuse "descriptor '__init__' requires a 'BaseException' object but received a '" v "'"

def setUpFaulty (v mode : Value) : ev.Host Value := do
  if ← ev.equal mode (.ofString "boom") then raiseText .runtimeError "constructor boom"
  else if ← ev.equal mode (.ofString "type") then raiseText .typeError "constructor type"
  else ev.setAttrs v [("mode", mode)]

def libraryMethod (f : LibraryFn) (self : Value) (args : List Value) : ev.Host Value :=
  match f, args with
  | .pointInit, [x, y] => ev.setAttrs self [("x", x), ("y", y)]
  | .pointSum, _ => do
    let x ← ev.getAttr self "x"
    let y ← ev.getAttr self "y"
    ev.hostAdd x y
  | .pointScale, k :: rest => do
    let offset := rest.headD (.int 0)
    ev.scaleAttr self "x" k offset
    ev.scaleAttr self "y" k offset
    pure self
  | .pointCount, values => pure (.int values.length)
  | .point3Init, x :: y :: rest => do
    let _ ← ev.call (.function (.library .pointInit)) [self, x, y]
    ev.setAttrs self [("z", rest.headD (.int 0))]
  | .beanInit, _ => ev.setAttrs self [("_name", .ofString "a"), ("_size", .int 1), ("plain", .ofString "p")]
  | .beanGetName, _ => ev.getAttr self "_name"
  | .beanSetName, [v] => ev.setAttrs self [("_name", v)]
  | .beanGetSize, _ => ev.getAttr self "_size"
  | .beanSetSize, [v] => ev.setAttrs self [("_size", v)]
  | .beanIsReady, _ => pure (.bool true)
  | .beanGetBad, _ => raiseText .valueError "bad getter"
  | .beanSetBad, _ => raiseText .valueError "bad setter"
  | .greeterShout, args => ev.shouted self "greet" args
  | .baseInit, [label] => ev.setAttrs self [("label_text", label)]
  | .baseLabel, _ => do
    let v ← ev.getAttr self "label_text"
    let s ← ev.text v
    Run.computed ("base:" ++ s)
  | .baseShoutLabel, _ => ev.shouted self "label" []
  | .settingsInit, _ => ev.setAttrs self [("name", .ofString "cfg")]
  | .settingsDescribe, [lead] => do
    let a ← ev.text lead
    let v ← ev.getAttr self "name"
    let b ← ev.text v
    Run.computed (a ++ b)
  | .settingsBoom, _ => raiseText .keyError "boom"
  | .faultyInit, args => ev.setUpFaulty self (args.headD (.ofString "ok"))
  | .faultyFail, [message] => raiseWith .valueError message
  | .faultyIter, _ => newCursor .generator (.breaking [.int 1, .int 2] ⟨.valueError, "iterator broke"⟩)
  | .bagInit, [n] => ev.setAttrs self [("n", n)]
  | .bagLen, _ => ev.getAttr self "n"
  | .rulerInit, [n] => ev.setAttrs self [("length", n)]
  | .rulerLen, _ => pure (.int 99)
  | .countdownInit, [n] => ev.setAttrs self [("n", n)]
  | .countdownIter, _ => do
    let v ← ev.getAttr self "n"
    let n ← ev.index v
    newCursor .rangeIterator (.items (World.rangeItems n 0 (-1)))
  | .codedErrorInit, [code, text] => ev.setUpCoded self code text
  | .noNewNew, _ => raiseText .valueError "no new"
  | .runsInCtorInit, [r] => do
    let v ← ev.callMethod r "run" []
    ev.setAttrs self [("result", v)]
  | f, _ =>
    match World.shownParts f with
    | some (name, parts) => ev.showParts self name parts
    | none => pure .none

def callNamed (v name : Value) (args : List Value) : ev.Host Value :=
  do
    let w ← Run.get
    match w.text? name with
    | some n => ev.callMethod v n args
    | none => Run.refuse "attribute name must be string, not '" name "'"

def eachItem (v bound : Value) : Plain Value := do
  let w ← Run.get
  match w.integer? bound with
  | some n => newCursor .generator (.calls v 0 n)
  | none =>
    newCursor .generator
      (.breaking [] ⟨.typeError, "'" ++ w.valueClassName bound ++ "' object cannot be interpreted as an integer"⟩)

def libraryCall (f : LibraryFn) (args : List Value) : ev.Answer Value :=
  match f, args with
  | .pointMake, n :: _ => ev.call (.cls (.library .point)) [n, n]
  | .double, v :: _ => ev.hostMul v (.int 2)
  | .add, a :: rest => ev.hostAdd a (rest.headD (.int 10))
  | .total, values => ev.hostSum (.int 0) values
  | .identity, v :: _ => pure v
  | .hiddenFn, _ => pure (.ofString "hidden")
  | .fail, [kind, message] => ev.failAs kind message
  | .callGreet, [g, who] => ev.callMethod g "greet" [who]
  | .callShout, [g, who] => ev.callMethod g "shout" [who]
  | .callRun, [r] => ev.callMethod r "run" []
  | .callMethod, v :: name :: rest => ev.callNamed v name rest
  | .coded, args => do
    let e ← ev.call (.cls (.library .codedError)) args
    Run.raiseValue e
  | .each, [v, n] => eachItem v n
  | f, self :: rest => ev.libraryMethod f self rest
  | _, [] => pure .none

def heldClosure (self : Value) (name : String) : Plain ScopeId := do
  let w ← Run.get
  match w.ownAttribute? self name with
  | none => Run.raise ⟨.attributeError, w.missingOn self name⟩
  | some a => do
    match ← Run.ofAttribute a with
    | .closure s => pure s
    | v => Run.raise ⟨.attributeError, w.missingOn v "namespace"⟩

def callScripted (name : String) (self : Value) (args : List Value) : ev.Answer Value := do
  let s ← heldClosure self "_jive_this"
  ev.unpacked (ev.invokeFromHost s name args false)

def setUpFromHost (s : ScopeId) (self : Value) (args : List Value) : ev.Answer Unit := do
  let w ← Run.get
  match w.instanceScope? self with
  | some _ => pure ()
  | none => ev.unpacked (ev.request (.setUp s self (w.classOf self) (args.map w.wrap)))

def proxyTarget (self : Value) : Plain ScopeId := heldClosure self "_jive_target"

def callProxyMember (name : String) (fallback : Option Value) (self : Value) (args : List Value) :
    ev.Answer Value := do
  let s ← proxyTarget self
  let w ← Run.get
  match fallback with
  | some f =>
    if w.declaresMethod s name args.length then ev.proxyCall self s name args else ev.call f (self :: args)
  | none => ev.proxyCall self s name args

def generatedCall (g : Generated) (self : Value) (args : List Value) : ev.Answer Value :=
  match g with
  | .instanceMember name _ => ev.callScripted name self args
  | .staticMember s name => ev.unpacked (ev.invokeFromHost s name (self :: args) true)
  | .setUp s => do
    ev.setUpFromHost s self args
    pure .none
  | .readVariable => do
    let w ← Run.get
    match args.head?.bind w.text? with
    | some name =>
      match self with
      | .object i => Run.ofAttribute (w.scriptedAttribute i name)
      | v => Run.ofAttribute (w.fallbackAttribute v name)
    | none => pure .none
  | .writeVariable => do
    let w ← Run.get
    match args.head?.bind w.text? with
    | some name => do
      match self with
      | .object i => Run.setScriptedAttr i name (args[1]?.getD .none)
      | v => Run.setAttr v name (args[1]?.getD .none)
      pure .none
    | none => pure .none
  | .text => do
    let v ← ev.callMethod self "toString" []
    match v with
    | .str .. => pure v
    | v => do
      let s ← ev.text v
      Run.computed s
  | .equal => do
    let v ← ev.callMethod self "equals" args
    let b ← ev.truth v
    pure (.bool b)
  | .hash => do
    let v ← ev.callMethod self "hashCode" []
    let n ← ev.intOf v
    pure (.int n)
  | .proxyMember name fallback => ev.callProxyMember name fallback self args
  | .proxyText => ev.callProxyMember "toString" none self []
  | .proxyHash => ev.callProxyMember "hashCode" none self []
  | .proxyEqual => do
    let v ← ev.callProxyMember "equals" none self args
    let b ← ev.truth v
    pure (.bool b)
  | .proxyShow => do
    let s ← proxyTarget self
    let w ← Run.get
    Run.freshText ("<proxy " ++ w.closureText s ++ ">")

def generatedSignature : Generated → Signature
  | .instanceMember .. | .proxyMember .. | .setUp _ => ⟨["self"], 1, true⟩
  | .staticMember .. => ⟨[], 0, true⟩
  | .readVariable => ⟨["self", "name"], 2, false⟩
  | .writeVariable => ⟨["self", "name", "value"], 3, false⟩
  | .equal | .proxyEqual => ⟨["self", "other"], 2, false⟩
  | .text | .hash | .proxyText | .proxyHash | .proxyShow => ⟨["self"], 1, false⟩

def callFunction (f : HostFn) (args : List Value) : ev.Answer Value :=
  match f with
  | .library f =>
    match f.signature.misfit? f.qualname args.length with
    | some m => Run.typeError m
    | none => ev.libraryCall f args
  | .generated n => do
    let g ← Run.read fun w => w.generated n
    match (generatedSignature g).misfit? (World.generatedName g) args.length, g, args with
    | some m, _, _ => Run.typeError m
    | none, .staticMember s name, args => ev.unpacked (ev.invokeFromHost s name args true)
    | none, g, args => ev.generatedCall g (args.headD .none) args.tail

end ScriptCore.Evaluator
