import ScriptCore.Host.Equality
import ScriptCore.Host.Iteration
import ScriptCore.Script.Expression

namespace ScriptCore.Evaluator

inductive LoopEnd where
  | goOn | leave | leaveWith (r : Ending)

def loopEnd (r : Ending) : LoopEnd :=
  match r with
  | .value _ => .goOn
  | .signal s _ =>
    match s.kind with
    | .return => .leaveWith r
    | .break => .leave
    | .continue => .goOn

inductive Elements where
  | script | characters | host

variable (ev : Evaluator)

def runLoopBody (body : Node) : Eval LoopEnd :=
  if body.isAbsent then pure .goOn
  else do
    let r ← ev.exec body
    pure (loopEnd r)

def whileTurns (ev : Evaluator) (cond body : Node) : Nat → Bool → Eval Ending
  | 0, _ => Comp.exhausted
  | fuel + 1, first => do
    let go ← if first then pure true else ev.condition cond
    if !go then pure (.value .void)
    else do
      match ← ev.runLoopBody body with
      | .goOn => ev.whileTurns cond body fuel false
      | .leave => pure (.value .void)
      | .leaveWith r => pure r

def evalEach (nodes : List Node) : Eval Unit := forEach nodes ev.perform

def forTurns (ev : Evaluator) (cond : Node) (update : List Node) (body : Node) : Nat → Eval Ending
  | 0 => Comp.exhausted
  | fuel + 1 => do
    let go ← if cond.isAbsent then pure true else ev.condition cond
    if !go then pure (.value .void)
    else do
      match ← ev.runLoopBody body with
      | .goOn => do
        ev.evalEach update
        ev.forTurns cond update body fuel
      | .leave => pure (.value .void)
      | .leaveWith r => pure r

def forLoop (init : List Node) (cond : Node) (update : List Node) (body : Node) : Eval Ending := do
  let s ← Eval.newBlock
  Eval.inPlace s do
    ev.evalEach init
    ev.forTurns cond update body ev.fuel

def Elements.value (w : World) : Elements → Value → Value
  | script, v => v
  | characters, .str s _ =>
    match s.toList with
    | c :: _ => .boxed (.char c.toNat) 0
    | [] => .null
  | characters, v => v
  | host, v => w.wrap v

variable (node : Node)

def loopItems (v : Value) : Eval (Cursor × Elements) := do
  let w ← Run.get
  match v with
  | .null => Eval.stop node .iterateNull
  | v =>
    if !v.isPrimitive && !v.isVoid && w.isInstance v (.core .iterable) then do
      let c ← ev.cursorOf v
      pure (c, if w.isArray v then .script else if isText w v then .characters else .host)
    else Eval.stop node (.cannotIterate (w.qualname (w.classOf v)))

structure LoopVariable where
  scope : ScopeId
  name : String
  typed : Bool
  type : Ty
  modifiers : Modifiers

def LoopVariable.set (x : LoopVariable) (v : Value) : Action .retype .fault Unit :=
  if x.typed then do
    Run.unsetVariable x.scope x.name
    Run.setTypedVariable x.scope x.name x.type (Run.given v) x.modifiers
  else Run.setBlockVariable x.scope x.name v

def eachTurns (ev : Evaluator) (node : Node) (x : LoopVariable) (kind : Elements) (body : Node) :
    Nat → Cursor → Eval Ending
  | 0, _ => Comp.exhausted
  | fuel + 1, c => do
    let next ← Eval.catching (ev.advance c) fun _ e =>
      match e with
      | .report _ => none
      | e => some do
        let v ← Run.exceptionOf e
        Eval.stopWith node "for loop iterator" v true
    match next with
    | none => pure (.value .void)
    | some (v, c') => do
      let item ← Run.read fun w => kind.value w v
      Eval.located (some ("for loop iterator variable:" ++ x.name)) node (x.set item)
      match ← ev.runLoopBody body with
      | .goOn => ev.eachTurns node x kind body fuel c'
      | .leave => pure (.value .void)
      | .leaveWith r => pure r

def forEachLoop (name : String) (iterable body : Node) (type : Node)
    (modifierNames : List String) : Eval Ending := do
  let v ← ev.eval iterable
  let (c, kind) ← ev.loopItems node v
  let t ← resolveType type
  let modifiers ← modifiersOf .field modifierNames node
  let s ← Eval.newBlock
  Eval.inPlace s
    (ev.eachTurns node { scope := s, name, typed := !type.isAbsent, type := t, modifiers } kind body ev.fuel c)

/-- What the comparison of the value of a switch with that of a label gives. Objects are compared as
their classes say, and may give any value. -/
def switchEquals (node expr : Node) (v label : Value) : Eval Value :=
  if v.isMarkerOrPrimitive || label.isMarkerOrPrimitive then
    Eval.catching (do
      let r ← ev.binaryOp v label .eq
      let b ← Run.truthOf r
      pure (.bool b)) fun w e =>
      match w.seen e with
      | .fault c t => some do
        let shown ← Run.nodeText expr
        let k ← Eval.frames
        Comp.fail (Run.locate (some ("Switch value: " ++ shown ++ ": ")) node (some k) c t)
      | _ => none
  else ev.comparison v label

def labelEquals (node expr : Node) (v : Value) (e : Node) : Eval Value :=
  if e.isAbsent then pure (.bool true)
  else do
    let label ← ev.eval e
    ev.switchEquals node expr v label

/-- Walks through the body of a switch; from the first matching label on, statements run. What a
comparison has given is asked anew whether it counts as true wherever it matters. -/
def switchBody (ev : Evaluator) (node expr : Node) (v : Value) : Value → List Node → Eval Ending
  | _, [] => pure (.value .void)
  | matched, .label _ e :: rest => do
    if ← ev.truth matched then ev.switchBody node expr v matched rest
    else do
      let now ← ev.labelEquals node expr v e
      ev.switchBody node expr v now rest
  | matched, n :: rest => do
    if ← ev.truth matched then
      match ← ev.exec n with
      | .signal s k => if s.kind = .break then pure (.value .void) else pure (.signal s k)
      | .value _ => ev.switchBody node expr v matched rest
    else ev.switchBody node expr v matched rest

def switch (node expr : Node) (body : List Node) : Eval Ending := do
  let v ← ev.eval expr
  match body with
  | [] => Eval.stop node .emptySwitch
  | .label .. :: _ => ev.switchBody node expr v (.bool false) body
  | _ => Eval.stop node .switchWithoutLabel

def catches (exception : Value) (t : Ty) : Plain Bool :=
  if t = .untyped then pure true
  else
    Action.converting (s := .fault) (do
      let _ ← Run.cast exception t .assignment
      pure true)
      (fun _ e =>
        match e with
        | .fault .. => some (pure false)
        | _ => none)
      fun _ e _ hn => by cases e <;> simp_all [Tier.Allows]

def runClause (param block : Node) (name : String) (t : Ty) (exception : Value) : Eval Ending := do
  Run.debug fun w => ["catch:", w.valueClassName exception, "in", name]
  let s ← Eval.newBlock
  Eval.located (some "Catch parameter") param <|
    if t = .untyped then Run.setBlockVariable s name exception
    else do
      let modifierNames ← Run.part param "modifiers" param.modifiers?
      let modifiers ← modifiersOf .field modifierNames param
      Run.setTypedVariable s name t (some exception) modifiers
  Eval.inPlace s (ev.execHere block)

def handleCatch (ev : Evaluator) (error : Failure) (exception : Value) : List Node → Eval Ending
  | [] => Comp.fail error
  | .catchClause _ param block :: rest => do
    let typeNode ← Run.part param "type_ref" param.type?
    let t ← resolveType typeNode
    if ← catches exception t then do
      let name ← Run.part param "name" param.ident?
      ev.runClause param block name t exception
    else ev.handleCatch error exception rest
  | n :: _ => Run.part n "param" none

/-- Runs a block; an exception goes to the clauses, after the frames that it has left behind are
taken off. -/
def tryBlock (block : Node) (clauses : List Node) : Eval Ending := do
  let before ← Eval.frames
  Eval.catching (ev.execBlock block) fun _ e =>
    match e with
    | .report { target := some t, .. } => some do
      Eval.unwindTo before.length
      ev.handleCatch e t.exception clauses
    | _ => none

/-- Runs a final block. A signal of the block wins over the result so far and over a pending error.
-/
def finishTry (final : Node) (result : Except Failure Ending) : Eval Ending := do
  let last ← if final.isAbsent then pure (.value .void) else ev.execBlock final
  match last, result with
  | .signal s k, _ => pure (.signal s k)
  | .value _, .ok r => pure r
  | .value _, .error e => Comp.fail e

def tryStatement (block : Node) (clauses : List Node) (final : Node) : Eval Ending := do
  let result ← Eval.catching (do
    let r ← ev.tryBlock block clauses
    pure (Except.ok r)) fun _ e =>
    match e with
    | .report _ => some (pure (Except.error e))
    | _ => none
  ev.finishTry final result

def throw (node expr : Node) : Eval Value := do
  let v ← ev.eval expr
  let ok ← Run.read fun w => w.isException v
  if ok then Eval.stopWith node "" v false else Eval.stop node .throwRequiresException

def declare (s : ScopeId) (base : Ty) (modifiers : Modifiers) (decl : Node) :
    Eval Unit :=
  match decl with
  | .declarator _ name init dims => do
    let t := if base = .untyped then base else base.nested dims.toNat
    let value ←
      if init.isArrayInit then
        match t with
        | .array c => do
          let v ← ev.initArray c init
          pure (some v)
        | .untyped => do
          let v ← ev.initArray Ty.object init
          pure (some v)
        | t => do
          let shown ← Run.read fun w => w.typeName t
          Eval.stop decl (.initializerForNonArray shown)
      else if init.isAbsent then pure none
      else do
        match ← ev.eval init with
        | .void => Eval.stop decl (.voidInitializer name)
        | v => pure (Run.given v)
    Eval.located (some "Typed variable declaration") node (Run.setTypedVariable s name t value modifiers)
  | .typeRef .. => Run.part decl "init" none
  | .arrayAlloc _ _ dims _ =>
    if dims.isEmpty || base = .untyped then Run.part decl "init" none
    else Run.typeError "'list' object cannot be interpreted as an integer"
  | n => Run.part n "dims" none

def varDecl (type : Node) (decls : List Node)
    (modifierNames : List String) : Eval Value := do
  let s ← Eval.top
  let base ← resolveType type
  let strict ← Run.read fun w => w.settings.strict
  if base = .untyped && strict then Eval.stop node .strictVariableType
  else do
    let modifiers ← modifiersOf .field modifierNames node
    forEach decls (ev.declare node s base modifiers)
    pure .void

def importDecl (path : String) (wildcard static : Bool) : Eval Value := do
  let s ← Eval.top
  if static then
    if !wildcard then Eval.stop node .staticFieldImport
    else do
      match ← Run.getClass s path with
      | none => Eval.stop node (.staticImportClass path)
      | some c => Run.importStatic s c
  else if wildcard then Run.importPackage s path
  else Run.importClass s path none
  Run.debug fun _ => ["import:", path, if static then "static" else ""]
  pure .void

def jump (kind : SignalKind) (label : Option String) : Eval Ending :=
  match label with
  | some l => Eval.stop node (.labelledJump l)
  | none => pure (.signal { kind, value := .none, node } none)

def nameValue (path : String) : Eval Value :=
  Eval.located none node do
    let s ← Eval.top
    let _ ← Run.resolverFor s path
    ev.resolveName s path

def invocation (path : String) (args : List Node) : Eval Value := do
  let values ← ev.evalArgs args
  let s ← Eval.top
  Run.debug fun w => ["invoke:", path, "in", w.scopeText s]
  Eval.located none node (ev.invokeName s path values node)

def valueOf : Eval Value :=
  match node with
  | .literal _ v => pure v
  | .name _ path => ev.nameValue node path
  | .primary _ base suffixes => ev.primaryValue base suffixes
  | .invocation _ path args => ev.invocation node path args
  | .assignment _ target op value => ev.assignment node target op value
  | .binary _ l op r => ev.binary node l op r
  | .unary _ op e trailing => ev.unary node op e trailing
  | .ternary _ c t e => do
    if ← ev.condition c then ev.eval t else ev.eval e
  | .cast _ type e => ev.castExpr node type e
  | .typeRef .. => do
    let ty ← resolveType node
    Run.ofType ty
  | .allocation _ type args body => ev.allocation node type args body
  | .arrayAlloc _ type dims init => ev.arrayAllocation node type dims init
  | .arrayInit _ _ => ev.initArray Ty.object node
  | .label _ e => if e.isAbsent then pure .void else ev.eval e
  | .throw _ e => ev.throw node e
  | .varDecl _ type decls mods => ev.varDecl node type decls mods
  | .methodDecl .. => do
    let s ← Eval.top
    let m ← buildMethod node s
    Run.setMethod s m
    pure .void
  | .classDecl .. => ev.generateClass node
  | .importDecl _ path wildcard static => importDecl node path wildcard static
  | .packageDecl _ path => do
    let s ← Eval.top
    Run.setPackage s (some path)
    pure .void
  | .exprList _ es => do
    ev.evalEach es
    pure .void
  | n => Run.internal ("Unknown node kind: " ++ n.kind)

def evalNode : Eval Ending :=
  match node with
  | .block .. => ev.execBlock node
  | .ifElse _ c t e => do
    if ← ev.condition c then ev.exec t
    else if e.isAbsent then pure (.value .void)
    else ev.exec e
  | .whileLoop _ c body bodyFirst => ev.whileTurns c body ev.fuel bodyFirst
  | .forLoop _ init c update body => ev.forLoop init c update body
  | .forEach _ x iterable body type mods => ev.forEachLoop node x iterable body type mods
  | .switch _ e body => ev.switch node e body
  | .tryCatch _ block clauses final => ev.tryStatement block clauses final
  | .return _ e => do
    let v ← if e.isAbsent then pure .void else ev.eval e
    pure (.signal { kind := .return, value := v, node } none)
  | .break _ l => jump node .break l
  | .continue _ l => jump node .continue l
  | node => Eval.endingWith (ev.valueOf node)

end ScriptCore.Evaluator
