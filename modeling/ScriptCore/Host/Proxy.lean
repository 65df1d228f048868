import ScriptCore.Host.Instance

namespace ScriptCore

namespace World

/-- The members by which a proxy answers for one class, each with what it falls back on. Concrete
members run unless the script overrides them. -/
def answeredMembers (w : World) (c : ClassRef) : List (String × Option Value) :=
  let abstracts := w.abstracts c
  abstracts.map (·, none) ++
    (w.ownMembers c).filterMap fun e =>
      if e.1.startsWith "_" || abstracts.contains e.1 || !w.isCallable e.2 then none else some (e.1, some e.2)

end World

namespace Run

def addMember (members : Table Value) (name : String) (g : Generated) : Plain (Table Value) := do
  let f ← newFunction g
  pure (members.put name (.function f))

def addAnswers (members : Table Value) : List (String × Option Value) → Plain (Table Value)
  | [] => pure members
  | (name, fallback) :: rest =>
    if members.contains name then addAnswers members rest
    else do
      let more ← addMember members name (.proxyMember name fallback)
      addAnswers more rest

def knownProxyClass? (w : World) (classes : List ClassRef) : Option ClassRef :=
  (w.classes.findIdx? fun c => c.isProxy && c.bases == classes).map .made

def proxyClass (classes : List ClassRef) : Plain ClassRef := do
  let known ← read fun w => knownProxyClass? w classes
  match known with
  | some c => pure c
  | none => do
    let answered ← read fun w => classes.flatMap w.answeredMembers
    let members ← addAnswers {} answered
    let members ← addMember members "__eq__" .proxyEqual
    let members ← addMember members "__hash__" .proxyHash
    let members ← addMember members "__str__" .proxyText
    let members ← addMember members "__repr__" .proxyShow
    let name ← read fun w => "Proxy_" ++ "_".intercalate (classes.map w.className)
    let spec : ClassSpec :=
      { name, qualname := name, module := "jive.jive_this", bases := classes, members, isProxy := true }
    match ← spec.make with
    | .error m => raise ⟨.typeError, m⟩
    | .ok c => pure c

def proxyOf (s : ScopeId) (classes : List ClassRef) : Plain Value :=
  if classes.isEmpty then raise ⟨.valueError, "get_interface() needs at least one class"⟩
  else do
    let c ← proxyClass classes
    let known ← read fun w => (w.scope s).proxies.find? fun i => (w.obj i).cls = c
    match known with
    | some i => pure (.object i)
    | none => do
      let v ← newInstance c
      match v with
      | .object i => do
        updateObj i (fun o => { o with target := some s }) fun _ => ⟨rfl, rfl, rfl⟩
        updateScope s (fun x => { x with proxies := i :: x.proxies }) fun _ => .of_eq rfl rfl
        pure v
      | v => pure v

end Run

end ScriptCore
