import ScriptCore.Host.Special

namespace ScriptCore

namespace World

def dict? (w : World) : Value → Option (ObjectId × List Entry)
  | .object i =>
    match (w.obj i).payload with
    | .dict entries => some (i, entries)
    | _ => none
  | _ => none

end World

namespace Evaluator

variable (ev : Evaluator)

def sameOrEqual (a b : Value) : ev.Host Bool := if a.same b then pure true else ev.equal a b

def allEqual (ev : Evaluator) : List Value → List Value → ev.Host Bool
  | [], [] => pure true
  | a :: as, b :: bs => do
    if ← ev.sameOrEqual a b then ev.allEqual as bs else pure false
  | _, _ => pure false

def indexOf? (ev : Evaluator) (v : Value) : List Value → ev.Host (Option Nat)
  | [] => pure none
  | x :: rest => do
    if ← ev.sameOrEqual x v then pure (some 0)
    else do
      let n ← ev.indexOf? v rest
      pure (n.map (· + 1))

def hashedIndex? (ev : Evaluator) (h : Hash) (v : Value) : List Element → ev.Host (Option Nat)
  | [] => pure none
  | e :: rest => do
    let found ← if e.hash.agrees h then ev.sameOrEqual e.value v else pure false
    if found then pure (some 0)
    else do
      let n ← ev.hashedIndex? h v rest
      pure (n.map (· + 1))

variable (entries : List Entry)

def keysOf : List Element := entries.map fun e => { value := e.key, hash := e.hash }

def keyIndex? (key : Value) : ev.Host (Option Nat) := do
  let h ← ev.hashed key
  ev.hashedIndex? h key (keysOf entries)

def entry? (key : Value) : ev.Host (Option Value) := do
  let n ← ev.keyIndex? entries key
  pure (n.bind fun n => entries[n]?.map Entry.value)

def putKey (key v : Value) : ev.Host (List Entry) := do
  let hash ← ev.hashed key
  match ← ev.hashedIndex? hash key (keysOf entries) with
  | some n => pure (entries.modify n fun e => { e with value := v })
  | none => pure (entries ++ [{ key, value := v, hash }])

def putElement (items : List Element) (v : Value) : ev.Host (List Element) := do
  let hash ← ev.hashed v
  match ← ev.hashedIndex? hash v items with
  | some _ => pure items
  | none => pure (items ++ [{ value := v, hash }])

def setEntry (target key v : Value) : ev.Host Unit := do
  let w ← Run.get
  match w.answer target "__setitem__", w.dict? target with
  | .given f, _ => do
    let _ ← ev.ask f target [key, v]
    pure ()
  | _, some (i, entries) => do
    let more ← ev.putKey entries key v
    Run.refill i (.dict more)
  | _, none => pure ()

end Evaluator

end ScriptCore
