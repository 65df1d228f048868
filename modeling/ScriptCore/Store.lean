import ScriptCore.Action

namespace ScriptCore

namespace World

def refill (w : World) (i : ObjectId) (p : Payload) : World :=
  w.modifyObj i fun o => if p.component? = o.payload.component? then { o with payload := p } else o

theorem calm_refill {w : World} (i : ObjectId) (p : Payload) : w.Calm (w.refill i p) := by
  refine calm_modifyObj i fun o => ?_
  split
  · next h => exact ⟨rfl, rfl, h⟩
  · exact .refl o

theorem tidying_refill (i : ObjectId) (p : Payload) : Action.Tidying (·.refill i p) where
  calm _ := calm_refill i p
  isInstance _ _ _ hc hv := by
    rwa [refill, isInstance_modifyObj (fun o => by split <;> rfl) hc] at hv

end World

namespace Run

variable {α : Type}

@[inline] def get : Plain World := Action.change (fun w => (w, w)) World.Calm.refl

@[inline] def read (f : World → α) : Plain α := Action.change (fun w => (f w, w)) World.Calm.refl

@[inline] def fault (c : Cause) : Faulty α := Action.fail (.fault c none) trivial

@[inline] def internal (message : String) :
    Action .halting .proper α := Action.stop (.internal message) rfl fun _ => ⟨message, rfl⟩

@[inline] def lapse (l : Lapse) : Action .lapsing .proper α := Action.stop (.internal l.message) rfl fun _ => ⟨l, rfl⟩

def alloc (o : Obj) : Plain Value :=
  Action.change (fun w => (.object w.objects.size, { w with objects := w.objects.push { o with classMethods := [] } }))
    fun _ => World.calm_pushObject rfl

def newScope (s : Scope) : Plain ScopeId :=
  Action.change (fun w => (w.scopes.size, { w with scopes := w.scopes.push { s with methods := {}, vars := {} } }))
    fun _ => World.calm_pushScope ⟨rfl, rfl⟩

def newClass (c : MadeClass) : Plain ClassRef :=
  Action.change (fun w => (.made w.classes.size, { w with classes := w.classes.push { c with script := none } }))
    fun _ => World.calm_pushClass rfl

def newStack (k : CallStack) : Plain Nat :=
  Action.change (fun w => (w.sharedStacks.size, { w with sharedStacks := w.sharedStacks.push k }))
    fun _ => World.calm_of_eq rfl rfl rfl rfl rfl

def newFunction (g : Generated) : Plain HostFn :=
  Action.change (fun w => (.generated w.functions.size, { w with functions := w.functions.push g }))
    fun _ => World.calm_of_eq rfl rfl rfl rfl rfl

variable (s : ScopeId)

def updateScope (f : Scope → Scope) (h : ∀ x : Scope, x.Calm (f x)) : Plain Unit :=
  Action.update (·.modifyScope s f) fun _ => World.calm_modifyScope s h

def setPackage (package : Option String) : Plain Unit :=
  updateScope s (fun x => { x with package }) fun _ => .of_eq rfl rfl

def updateMemory (f : Memory → Memory) (h : ∀ m : Memory, m.SparesSuper (f m)) : Plain Unit :=
  Action.update (·.modifyMemory s f) fun _ => World.calm_modifyMemory s h

def updateVars (f : Table Variable → Table Variable) : Action .storing .proper Unit :=
  Action.perform (·.setVars s f) fun _ => ⟨s, f, rfl⟩

def updateObj (i : ObjectId) (f : Obj → Obj) (h : ∀ o : Obj, o.Calm (f o)) : Plain Unit :=
  Action.update (·.modifyObj i f) fun _ => World.calm_modifyObj i h

/-- Changes what is neither a scope, nor an object, nor a class, nor an assigned attribute, nor a
signal, nor remembered. -/
def updateRest (f : World → World) (h : ∀ w, (f w).scopes = w.scopes ∧ (f w).objects = w.objects ∧
    (f w).classes = w.classes ∧ (f w).assigned = w.assigned ∧ (f w).signals = w.signals ∧
    (f w).memories = w.memories ∧ (f w).exposed = w.exposed) : Plain Unit :=
  Action.update f fun w =>
    have ⟨scopes, objects, classes, assigned, signals, memories, exposed⟩ := h w
    World.calm_of_eq scopes objects classes assigned signals (.of_eq memories) exposed

/-- A signal that a script makes itself. -/
def newSignal (s : Signal) : Plain (Option Value) :=
  Action.change
    (fun w =>
      if w.exposed then (some (.signal w.signals.size), { w with signals := w.signals.push s }) else (none, w))
    fun w => by
      split
      · next exposed =>
        refine { World.Calm.refl w with signals := fun hidden => ?_ }
        rw [exposed] at hidden
        cases hidden
      · exact .refl w

def refill (i : ObjectId) (p : Payload) : Plain Unit := Action.update (·.refill i p) fun _ => World.calm_refill i p

def retype (i : ObjectId) (p : Payload) : Action .retype .proper Unit :=
  Action.perform (·.modifyObj i fun o => { o with payload := p }) fun _ => World.inert_modifyObj i fun _ => rfl

def newList (items : List Value) : Plain Value := alloc { cls := .core .list, payload := .list items }

def newTuple (items : List Value) : Plain Value :=
  if items.isEmpty then pure (.object World.emptyTuple) else alloc { cls := .core .tuple, payload := .tuple items }

def newArray (component : Ty) (items : List Value) : Plain Value := do
  let elements ← newList items
  alloc { cls := .core .array, payload := .array component elements }

def newException (cls : ClassRef) (args : List Value) : Plain Value := do
  let held ← newTuple args
  alloc { cls, payload := .exception held }

def newHostError (e : HostError) : Plain Value := newException (.core e.cls.core) [.ofString e.message]

def raiseNew (cls : ErrorClass) (args : List Value) : Plain α := do
  let held ← newTuple args
  Action.raising cls held

def raise (e : HostError) : Plain α := raiseNew e.cls [.ofString e.message]

def freshMark : Plain Nat :=
  Action.change (fun w => (w.marks + 1, { w with marks := w.marks + 1 })) fun _ => World.calm_of_eq rfl rfl rfl rfl rfl

def freshText (s : String) : Plain Value := do
  let m ← freshMark
  pure (.str s m)

def countAnonymous : Plain Unit :=
  updateRest (fun w => { w with anonymousCount := w.anonymousCount + 1 }) fun _ => ⟨rfl, rfl, rfl, rfl, rfl, rfl, rfl⟩

def newNodeId : Plain Nat :=
  Action.change (fun w => (w.nodeCount + 1, { w with nodeCount := w.nodeCount + 1 }))
    fun _ => World.calm_of_eq rfl rfl rfl rfl rfl

def computedReal (x : Float) : Plain Value :=
  if x.isNaN then do
    let m ← freshMark
    pure (.float x m)
  else pure (.float x 0)

def computedPrimitive (p : Primitive) : Plain Value :=
  if p.isNaN then do
    let m ← freshMark
    pure (.boxed p m)
  else pure (.boxed p 0)

def throwInto (e : HostError) (cause : Cause) : Faulty α := do
  let v ← newHostError e
  Action.fail (.fault cause (some ⟨v, false⟩)) trivial

def ofTrouble : Except Trouble α → Faulty α
  | .ok a => pure a
  | .error (.fault c) => fault c
  | .error (.throws e c) => throwInto e c
  | .error (.host e) => raise e

def ofHost : Except HostError α → Plain α
  | .ok a => pure a
  | .error e => raise e

def ofCause : Except Cause α → Faulty α
  | .ok a => pure a
  | .error c => fault c

def introduced (intro : Option String) (message : String) : String :=
  match intro with
  | none => message
  | some i => if i.isEmpty then message else i ++ " : " ++ message

def locate (intro : Option String) (node : Node) (stack : Option (List ScopeId)) (c : Cause)
    (target : Option Target) : Failure :=
  .report { message := introduced intro c.message, node, stack, target }

def debug (parts : World → List String) : Plain Unit :=
  updateRest
    (fun w => if w.settings.debug then { w with log := " ".intercalate ("[DBG]" :: parts w) :: w.log } else w)
    fun w => by split <;> exact ⟨rfl, rfl, rfl, rfl, rfl, rfl, rfl⟩

end Run

end ScriptCore
