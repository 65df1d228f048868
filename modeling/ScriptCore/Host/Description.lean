import ScriptCore.Host.Special

namespace ScriptCore

namespace World

def qualname? (w : World) (v : Value) : Option String :=
  match v with
  | .cls c => some (w.qualname c)
  | .function f | .staticFunction f => some (w.functionName f)
  | .coreMethod c n => some (c.name ++ "." ++ n)
  | v =>
    match w.payload? v with
    | some (.bound _ f) => some (w.functionName f)
    | some (.builtin self n) => some ((w.coreHome self n).name ++ "." ++ n)
    | some (.cursor (.calls ..)) => some "each"
    | _ => none

end World

namespace Evaluator

def unlessShowing {may : May} {t : Tier} (i : ObjectId) (cut : String) (x : Action may t String) :
    Action may t String := do
  let inside ← Run.read fun w => w.showing.contains i
  if inside then pure cut
  else do
    Run.updateRest (fun w => { w with showing := i :: w.showing }) fun _ => ⟨rfl, rfl, rfl, rfl, rfl, rfl, rfl⟩
    Action.ensuring x (fun w => { w with showing := w.showing.erase i })
      ⟨fun _ => World.calm_of_eq rfl rfl rfl rfl rfl, fun _ _ _ _ h => h⟩

variable (ev : Evaluator)

def describeAll (values : List Value) : ev.Host String := do
  let shown ← collect values ev.describe
  pure (World.commaList shown)

def describeSet (w : World) (i : ObjectId) (items : List Element) : ev.Host String := do
  let c := (w.obj i).cls
  let name := w.className c
  if items.isEmpty then pure (name ++ "()")
  else
    unlessShowing i (name ++ "(...)") do
      let shown ← ev.describeAll (items.map Element.value)
      pure (if c = .core .set then World.braces shown else name ++ "(" ++ World.braces shown ++ ")")

def describeObject (w : World) (i : ObjectId) : ev.Host String :=
  let o := w.obj i
  match o.payload with
  | .list items =>
    unlessShowing i "[...]" do
      let shown ← ev.describeAll items
      pure ("[" ++ shown ++ "]")
  | .tuple items =>
    unlessShowing i "(...)" do
      let shown ← collect items ev.describe
      pure (World.tupleText shown)
  | .set items => ev.describeSet w i items
  | .dict entries =>
    unlessShowing i (World.braces "...") do
      let shown ← collect entries fun e => do
        let k ← ev.describe e.key
        let v ← ev.describe e.value
        pure (k ++ ": " ++ v)
      pure (World.braces (World.commaList shown))
  | .exception args | .failure _ args => do
    let shown ← collect ((w.itemsOf? args).getD []) ev.describe
    pure (World.exceptionText (w.className o.cls) shown)
  | .bound self f => do
    let shown ← ev.describe self
    pure ("<bound method " ++ w.functionName f ++ " of " ++ shown ++ ">")
  | .builtin self n =>
    let c := w.coreHome self n
    if c.hasFunctions then do
      let shown ← ev.describe self
      pure ("<bound method " ++ c.name ++ "." ++ n ++ " of " ++ shown ++ ">")
    else pure (w.show (.object i))
  | .classId t => do
    let shown ← match w.qualname? t with | some name => pure name | none => ev.text t
    pure ("Class Identifier: " ++ shown)
  | .plain =>
    if o.cls = .core .configuration then do
      let shown ← collect o.attrs.entries fun e => do
        let s ← ev.describe e.2
        pure (e.1, s)
      pure (World.configurationText shown)
    else pure (w.show (.object i))
  | _ => pure (w.show (.object i))

def givenText (name : String) (f v : Value) : ev.Host String := do
  let r ← ev.ask f v []
  let w ← Run.get
  match w.text? r with
  | some s => pure s
  | none => Run.refuse (name ++ " returned non-string (type ") r ")"

variable (v : Value)

def describeCore : ev.Host String := do
  let w ← Run.get
  match v with
  | .object i => ev.describeObject w i
  | .signal n => do
    let sig := w.signal n
    let shown ← ev.describe sig.value
    pure ("<ReturnControl " ++ sig.kind.name ++ " " ++ shown ++ ">")
  | v => pure (w.show v)

def describeOf : ev.Host String := do
  let w ← Run.get
  match w.answer v "__repr__" with
  | .given f => ev.givenText "__repr__" f v
  | _ => ev.describeCore v

def reportText (template : Value) (r : Report) : ev.Host String := do
  let shown ←
    match r.target with
    | some t => ev.text t.exception
    | none => pure ""
  Run.settleTexts r
  let w ← Run.get
  match w.text? template with
  | some s => Run.ofTemplate (r.format? w (fun _ => shown) s)
  | none => Run.ofTemplate (.error (.noFile (w.valueClassName template)))

def exceptionText (isKeyError : Bool) : ev.Host String := do
  let w ← Run.get
  match (w.exceptionArgs? v).getD [] with
  | [] => pure ""
  | [x] => if isKeyError then ev.describe x else ev.text x
  | args => do
    let shown ← collect args ev.describe
    pure (World.tupleText shown)

def coreText (c : CoreClass) (v : Value) : ev.Host String := do
  let w ← Run.get
  match c, w.payload? v with
  | .evalError, some (.failure (.report r) _) => ev.reportText (.ofString Report.defaultTemplate) r
  | .utilEvalException, some (.failure (.fault ..) _) => do
    let m ← Run.getAttr v "message"
    match w.text? m with
    | some s => pure s
    | none => Run.refuse "__str__ returned non-string (type " m ")"
  | .keyError, _ => ev.exceptionText v true
  | .baseException, _ => ev.exceptionText v false
  | .object, _ => ev.describe v
  | _, _ => pure (w.plainText v)

def textOf : ev.Host String := do
  let w ← Run.get
  match w.answer v "__str__" with
  | .given f => ev.givenText "__str__" f v
  | .core c => ev.coreText c v
  | .nobody => ev.describe v

end Evaluator

end ScriptCore
