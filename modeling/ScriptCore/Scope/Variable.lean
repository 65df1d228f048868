import ScriptCore.Cast

namespace ScriptCore.Run

variable (s : ScopeId)

def forgetNames : Plain Unit :=
  updateMemory s Memory.forgotten Memory.SparesSuper.forgotten

def putVariable (name : String) (v : Variable) : Action .storing .proper Unit :=
  updateVars s fun vars => vars.put name v

def given : Value → Option Value
  | .none => none
  | v => some v

/-- The value that a variable of the given type and modifiers takes when it is declared; a final one
may wait for its value. -/
def declaredValue (type : Ty) (value : Option Value) (modifiers : Modifiers) : Faulty (Option Value) :=
  if modifiers.has "final" && value.isNone then pure none
  else do
    let v ← cast (value.getD (Value.default type)) type .cast
    pure (some v)

def declareVariable (name : String) (type : Ty) (value : Option Value) (modifiers : Modifiers) :
    Storing Unit := do
  let v ← declaredValue type value modifiers
  putVariable s name { type, value := v, modifiers }
  forgetNames s

/-- Gives a new value to a variable that a scope holds; `declaring` tells a repeated declaration
from an assignment. -/
def assignVariable (name : String) (value : Value) (declaring : Bool) : Storing Unit := do
  let held ← read fun w => (w.scope s).vars.get? name
  match held with
  | none => pure ()
  | some var =>
    if var.isFinal && var.value.isSome then fault (.finalReassigned name)
    else do
      let v ← cast value var.type (if declaring then .cast else .assignment)
      putVariable s name { var with value := some v }

def unsetVariable (name : String) : Action .storing .proper Unit := do
  let held ← read fun w => (w.scope s).vars.contains name
  if held then do
    updateVars s fun vars => vars.erase name
    forgetNames s
  else pure ()

end ScriptCore.Run
