import ScriptCore.Node

namespace ScriptCore

structure ClassBody where
  nested : List Node := []
  statics : List Node := []
  fields : List Node := []
  methods : List Node := []
  abstracts : List Node := []
  constructors : List Node := []
  deriving Inhabited

namespace ClassBody

def add (cls : String) (isInterface : Bool) (b : ClassBody) (n : Node) : ClassBody :=
  match n with
  | .classDecl .. => { b with nested := b.nested ++ [n] }
  | .methodDecl _ method _ _ returnType modifiers =>
    if modifiers.contains "static" then { b with statics := b.statics ++ [n] }
    else if method = cls && returnType.isAbsent then { b with constructors := b.constructors ++ [n] }
    else if modifiers.contains "abstract" || (isInterface && !modifiers.contains "default") then
      { b with abstracts := b.abstracts ++ [n] }
    else { b with methods := b.methods ++ [n] }
  | .varDecl _ _ _ modifiers =>
    if isInterface || modifiers.contains "static" then { b with statics := b.statics ++ [n] }
    else { b with fields := b.fields ++ [n] }
  | _ => { b with fields := b.fields ++ [n] }

def ofStatements (cls : String) (isInterface : Bool) (statements : List Node) : ClassBody :=
  statements.foldl (add cls isInterface) {}

def methodName? : Node → Option String
  | .methodDecl _ method _ _ _ _ => some method
  | _ => none

def methodNames (ns : List Node) : List String := ns.filterMap methodName?

end ClassBody

end ScriptCore
