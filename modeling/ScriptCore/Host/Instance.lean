import ScriptCore.Host.Attribute
import ScriptCore.Host.Linearization

namespace ScriptCore.Run

variable (c : ClassRef)

def emptyPayload : Plain Payload := do
  let chain ← read fun w => w.mro c
  let held := fun k => chain.contains (.core k)
  if held .baseException then do
    let args ← newTuple []
    pure (.exception args)
  else if held .list then pure (.list [])
  else if held .dict then pure (.dict [])
  else if held .set then pure (.set [])
  else if held .tuple then pure (.tuple [])
  else if held .int then pure (.integer 0)
  else if held .float then pure (.real 0.0 0)
  else if held .str then pure (.text "")
  else if held .array then do
    let elements ← newList []
    pure (.array .untyped elements)
  else pure .plain

def checkConcrete : Plain Unit := do
  let w ← get
  match w.abstracts c with
  | [] => pure ()
  | names =>
    let sorted := names.mergeSort fun a b => a ≤ b
    raise ⟨.typeError, "Can't instantiate abstract class " ++ w.className c ++ " with abstract method" ++
      (if names.length = 1 then " " else "s ") ++ ", ".intercalate sorted⟩

def checkInstance (given : Nat) : Plain Unit := do
  let w ← get
  match w.member c "__new__" with
  | some (.staticFunction (.library _)) =>
    if given = 0 then raise ⟨.valueError, "no new"⟩
    else
      raise ⟨.typeError, "NoNew.__new__() takes 1 positional argument but " ++ toString (given + 1) ++ " were given"⟩
  | some (.function (.generated _)) => raise ⟨.attributeError, w.missingOn (.cls c) "_jive_this"⟩
  | _ => checkConcrete c

def newInstance : Plain Value := do
  checkInstance c 0
  let payload ← emptyPayload c
  alloc { cls := c, payload }

end ScriptCore.Run
