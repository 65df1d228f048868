import ScriptCore.Script.Invocation

namespace ScriptCore.Evaluator

def resolveType (n : Node) : Eval Ty :=
  match n with
  | .absent => pure .untyped
  | .typeRef _ target dims =>
    if target.isLoose then pure .untyped
    else do
      let base ←
        match target with
        | .loose => pure .untyped
        | .resolved ty => pure ty
        | .named path =>
          match PrimType.ofName? path with
          | some p => pure (.prim p)
          | none => do
            let s ← Eval.top
            let found ← Eval.located none n (Run.resolveClass s path)
            pure ((found.map World.tyOfValue).getD .untyped)
      if dims = 0 then pure base
      else if base.isVoid then Eval.stop n .voidArray
      else pure (base.nested dims.toNat)
  | n => Run.part n "is_loose" none

def modifiersOf (kind : DeclKind) (names : List String) (node : Node) : Eval Modifiers :=
  Eval.located none node (Run.ofCause (Modifiers.ofNames kind names))

def buildParam (method : String) (p : Node) : Eval MethodParam := do
  let strict ← Run.read fun w => w.settings.strict
  let typeNode ← Run.part p "type_ref" p.type?
  let name ← Run.part p "name" p.ident?
  if typeNode.isAbsent && strict then Eval.stop p (.strictParameterType name method)
  else do
    let type ← resolveType typeNode
    let modifierNames ← Run.part p "modifiers" p.modifiers?
    let modifiers ← modifiersOf .field modifierNames p
    pure { name, type, modifiers }

def buildMethod (decl : Node) (home : ScopeId) : Eval Method :=
  match decl with
  | .methodDecl _ name params body returnType modifierNames => do
    let strict ← Run.read fun w => w.settings.strict
    if returnType.isAbsent && strict then Eval.stop decl (.strictReturnType name)
    else do
      let returnType ← resolveType returnType
      let params ← collect params (buildParam name)
      let modifiers ← modifiersOf .method modifierNames decl
      pure { name, returnType, params, body, home, modifiers, node := decl }
  | _ => pure { name := "", home }

def evalArgs (ev : Evaluator) (args : List Node) : Eval (List Value) :=
  collect args fun a => do
    match ← ev.eval a with
    | .void => do
      let shown ← Run.nodeText a
      Eval.stop a (.undefinedArgument shown)
    | v => pure v

end ScriptCore.Evaluator
