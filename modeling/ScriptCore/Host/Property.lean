import ScriptCore.Host.Mapping
import ScriptCore.Scope.Binding
import ScriptCore.Text.Case

namespace ScriptCore

def accessors (verb name : String) : List String :=
  let capital :=
    match name.toList with
    | [] => ""
    | c :: cs => String.ofList (Case.upperChar c ++ cs)
  [verb ++ "_" ++ name, verb ++ capital]

namespace Evaluator

variable (ev : Evaluator)

def callableAttribute (target : Value) (names : List String) : ev.Host (Option Attribute) :=
  firstSome names fun n => do
    let a ← ev.lookUp target n
    let w ← Run.get
    match a with
    | .broken e => Run.raise e
    | .bound self f => pure (some (.bound self f))
    | .builtin self m => pure (some (.builtin self m))
    | .value v => pure (if w.isCallable v then some (.value v) else none)
    | _ => pure none

def propertyName (key : Value) : Plain String := do
  let w ← Run.get
  match w.text? key with
  | some name => pure name
  | none => Run.refuse "'" key "' object is not subscriptable"

def getProperty (target key : Value) : Action ev.may .bridge Value := do
  let w ← Run.get
  if (w.dict? target).isSome then do
    let v ← ev.callMethod target "get" [key]
    Run.read fun w => w.wrap v
  else do
    let name ← propertyName key
    match ← ev.callableAttribute target (accessors "get" name ++ accessors "is" name) with
    | some a => ev.invokeMember { isMethod := true, owner := target, name, content := a } []
    | none => do
      if ← ev.hasField target name then ev.getField target name
      else Action.fail (.reflect ("No such property: " ++ name)) trivial

def setProperty (target key : Value) (value : Value) : Action ev.may .bridge Unit := do
  let w ← Run.get
  if (w.dict? target).isSome then ev.setEntry target key value.unwrap
  else do
    let name ← propertyName key
    match ← ev.callableAttribute target (accessors "set" name) with
    | some a => do
      let _ ← ev.invokeMember { isMethod := true, owner := target, name, content := a } [value]
      pure ()
    | none => ev.setField target name value

def memberCallable (w : World) (m : Member) : Bool :=
  m.isMethod ||
    match m.content with
    | .value v => w.isCallable v
    | _ => false

def arityText (a : Arity) : String :=
  if a.hi = a.lo + 1 then toString a.lo else toString a.lo ++ ".." ++ toString (a.hi - 1)

def resolveMethod (b : Bridge) (target : Value) (name : String) (count : Nat) : Action ev.may .bridge Member := do
  let found ← ev.resolveMember b target name
  let w ← Run.get
  let owner :=
    match target with
    | .cls c => w.className c
    | .module m => m.name
    | v => w.valueClassName v
  let missing : Action ev.may .bridge Member :=
    Action.fail (.reflect
      ("Method " ++ name ++ "() with " ++ toString count ++ " argument(s) not found in " ++ owner)) trivial
  match found with
  | none => missing
  | some m =>
    if !memberCallable w m then missing
    else
      match if m.isMethod then Arity.ofAttribute? w m.content else none with
      | none => pure m
      | some a =>
        if a.contains count then pure m
        else
          Action.fail (.reflect
            ("Wrong number of arguments for host method: " ++ name ++ ", expected " ++ arityText a ++ ", got " ++
              toString count)) trivial

def invokeHostMethod (b : Bridge) (target : Value) (name : String) (args : List Value) :
    Action ev.may .bridge Value := do
  let m ← ev.resolveMethod b target name args.length
  ev.invokeMember m args

def construct (target : Value) (args : List Value) : Action ev.may .bridge Value := do
  let w ← Run.get
  match target with
  | .cls c =>
    if w.isInterface c then
      Action.fail (.reflect ("Can't create instance of an interface: " ++ w.className c)) trivial
    else
      Action.catching (ev.call target (args.map Value.unwrap)) fun w' e =>
        match Run.hostException? w' e with
        | none => none
        | some toException =>
          let misfit := ((Arity.ofClass? w c).map fun a => !a.contains args.length).getD false
          if Run.isFailureOf w' e .typeError && misfit then
            some (Action.fail (.reflect
              ("Can't find constructor: " ++ w.className c ++ "(" ++ toString args.length ++ " args)")) trivial)
          else some do
            let v ← toException
            let shown ← ev.text v
            Action.fail (.hostCall shown v) trivial
  | v => do
    let shown ← ev.describe v
    Action.fail (.reflect ("Not a class: " ++ shown)) trivial

end Evaluator

end ScriptCore
