import ScriptCore.Host.Hierarchy
import ScriptCore.Text.Quoted

namespace ScriptCore.World

variable (w : World) (s : ScopeId)

def scopeText : String :=
  let x := w.scope s
  if x.isBlock then "BlockNameSpace: " ++ x.name
  else "NameSpace: " ++ x.name ++ (if x.isClass then " (class)" else if x.isMethod then " (method)" else "")

def closureText : String := "<This " ++ (w.scope s).name ++ ">"

def classText (c : ClassRef) : String :=
  let home := w.moduleName c
  let shown := if home = "builtins" then w.qualname c else home ++ "." ++ w.qualname c
  "<class '" ++ shown ++ "'>"

def moduleText : Module → String
  | .builtins => "<module 'builtins' (built-in)>"
  | m => "<module '" ++ m.name ++ "'>"

def instanceText (c : ClassRef) : String :=
  let home := w.moduleName c
  let shown := if home = "builtins" then w.qualname c else home ++ "." ++ w.qualname c
  "<" ++ shown ++ " object at 0x?>"

def generatedName : Generated → String
  | .instanceMember .. => "_instance_dispatcher.<locals>.method"
  | .staticMember .. => "_static_dispatcher.<locals>.method"
  | .setUp _ => "ClassGenerator._build_class.<locals>.__init__"
  | .readVariable => "_getattr"
  | .writeVariable => "_setattr"
  | .text | .equal | .hash => "ClassGenerator._build_class.<locals>.<lambda>"
  | .proxyMember .. => "_dispatcher.<locals>.method"
  | .proxyText | .proxyShow | .proxyEqual | .proxyHash => "_proxy_class.<locals>.<lambda>"

def functionName : HostFn → String
  | .library f => f.qualname
  | .generated n => generatedName (w.generated n)

def coreMethodText (c : CoreClass) (name : String) : String :=
  if c.hasFunctions then "<function " ++ c.name ++ "." ++ name ++ " at 0x?>"
  else if c.isSlot name then "<slot wrapper '" ++ name ++ "' of '" ++ c.name ++ "' objects>"
  else "<method '" ++ name ++ "' of '" ++ c.name ++ "' objects>"

def coreHome (self : Value) (name : String) : CoreClass :=
  ((w.mro (w.classOf self)).findSome? fun k =>
    match k with
    | .core c => if (c.member name).isSome then some c else none
    | _ => none).getD .object

def classVariable? (c : ClassRef) (name : String) : Option ScopeId :=
  let scopes := s :: (w.mro c).filterMap fun k => (w.script? k).map ScriptPart.staticScope
  scopes.find? fun t => (w.scope t).vars.contains name

def variableValue (name : String) : Value :=
  match (w.scope s).vars.get? name with
  | some v => (v.value.getD .none).unwrap
  | none => .none

def heldValue (i : ObjectId) (name : String) : Value :=
  let o := w.obj i
  match o.attrs.get? name with
  | some v => v
  | none =>
    match w.member o.cls name with
    | some v => v
    | none =>
      match o.scope.bind fun s => w.classVariable? s o.cls name with
      | some t => w.variableValue t name
      | none => .none

def shownParts : LibraryFn → Option (String × List String)
  | .pointShow => some ("Point", ["x", "y"])
  | .point3Show => some ("Point3", ["x", "y", "z"])
  | .innerShow => some ("Inner", [])
  | .outerShow => some ("Outer", [])
  | .beanShow => some ("Bean", ["_name", "_size", "plain"])
  | .baseShow => some ("Base", ["label_text"])
  | .settingsShow => some ("Settings", ["level", "name"])
  | .faultyShow => some ("Faulty", ["mode"])
  | .bagShow => some ("Bag", ["n"])
  | .rulerShow => some ("Ruler", ["length"])
  | .countdownShow => some ("Countdown", ["n"])
  | .weirdShow => some ("Weird", [])
  | .runsInCtorShow => some ("RunsInCtor", ["result"])
  | .deepShow => some ("Deep", [])
  | _ => none

def commaList (l : List String) : String := ", ".intercalate l

def tupleText : List String → String
  | [x] => "(" ++ x ++ ",)"
  | l => "(" ++ commaList l ++ ")"

def exceptionText (name : String) : List String → String
  | [x] => name ++ "(" ++ x ++ ")"
  | l => name ++ "(" ++ commaList l ++ ")"

def braces (s : String) : String := "\x7b" ++ s ++ "\x7d"

def configurationText (fields : List (String × String)) : String :=
  let shown := (fields.filter fun e => e.1 ≠ "error_template").map fun e => e.1 ++ "=" ++ e.2
  "InterpreterConfig(" ++ commaList shown ++ ")"

def failureMessage : Failure → String
  | .report r => r.message
  | .fault c _ => c.message
  | .reflect m | .hostCall m _ | .internal m | .classGeneration m => m
  | .thrown _ => ""

/-- Shows a value; `fuel` bounds the depth and `path` holds the containers being shown. No script is
asked. -/
def showWithin (w : World) (fuel : Nat) (path : List ObjectId) (v : Value) : String :=
  match fuel with
  | 0 => "..."
  | fuel + 1 =>
    match v with
    | .null => "Primitive.NULL"
    | .void => "Primitive.VOID"
    | .boxed p _ => p.describe
    | .none => "None"
    | .bool b => if b then "True" else "False"
    | .int n => toString n
    | .float x _ => Decimal.show x
    | .str s _ => Quoted.quote s
    | .cls c => w.classText c
    | .module m => moduleText m
    | .primType t => t.name
    | .function f => "<function " ++ w.functionName f ++ " at 0x?>"
    | .staticFunction f => "<staticmethod(<function " ++ w.functionName f ++ " at 0x?>)>"
    | .property _ => "<property object at 0x?>"
    | .coreMethod c n => coreMethodText c n
    | .closure s => w.closureText s
    | .scope s => w.scopeText s
    | .signal n =>
      let sig := w.signal n
      "<ReturnControl " ++ sig.kind.name ++ " " ++ showWithin w fuel path sig.value ++ ">"
    | .stack _ => w.instanceText (.core .callStack)
    | .interpreter => "<Interpreter strict=" ++ w.settings.strictText ++ " namespace=global>"
    | .object i =>
      let o := w.obj i
      let inner := showWithin w fuel (i :: path)
      let cut := path.contains i
      let all := fun (items : Value) => ((w.itemsOf? items).getD []).map inner
      match w.member o.cls "__repr__", o.payload with
      | some (.function (.library f)), _ =>
        match shownParts f with
        | some (name, parts) => name ++ "(" ++ commaList (parts.map fun p => inner (w.heldValue i p)) ++ ")"
        | none => w.instanceText o.cls
      | some (.function _), _ =>
        match o.target with
        | some t => "<proxy " ++ w.closureText t ++ ">"
        | none => w.instanceText o.cls
      | _, .list items => if cut then "[...]" else "[" ++ commaList (items.map inner) ++ "]"
      | _, .tuple items => if cut then "(...)" else tupleText (items.map inner)
      | _, .set items =>
        let shown := commaList (items.map fun e => inner e.value)
        if o.cls = .core .set then
          if cut then "set(...)" else if items.isEmpty then "set()" else braces shown
        else
          let name := w.className o.cls
          if cut then name ++ "(...)" else if items.isEmpty then name ++ "()" else name ++ "(" ++ braces shown ++ ")"
      | _, .dict entries =>
        if cut then braces "..."
        else braces (commaList (entries.map fun e => inner e.key ++ ": " ++ inner e.value))
      | _, .range a b step =>
        "range(" ++ toString a ++ ", " ++ toString b ++ (if step = 1 then "" else ", " ++ toString step) ++ ")"
      | _, .integer n => toString n
      | _, .real x _ => Decimal.show x
      | _, .text s => Quoted.quote s
      | _, .bytes values => Quoted.quoteBytes values
      | _, .constant shown => shown
      | _, .exception args | _, .failure _ args => exceptionText (w.className o.cls) (all args)
      | _, .array c elements =>
        "<Array " ++ w.typeName c ++ "[" ++ toString ((w.itemsOf? elements).getD []).length ++ "]>"
      | _, .bound self f => "<bound method " ++ w.functionName f ++ " of " ++ inner self ++ ">"
      | _, .builtin self n =>
        let c := w.coreHome self n
        if c.hasFunctions then "<bound method " ++ c.name ++ "." ++ n ++ " of " ++ inner self ++ ">"
        else
          let kind := if c.isSlot n then "method-wrapper '" ++ n ++ "'" else "built-in method " ++ n
          "<" ++ kind ++ " of " ++ w.valueClassName self ++ " object at 0x?>"
      | _, .classId t =>
        "Class Identifier: " ++
          (match t with
          | .cls c => w.qualname c
          | .function f => w.functionName f
          | .str s _ => s
          | t => inner t)
      | _, .arrayType c => w.typeName c ++ "[]"
      | _, .cursor c =>
        match o.cls, c with
        | .core .generator, .breaking .. => "<generator object Faulty.__iter__ at 0x?>"
        | .core .generator, _ => "<generator object each at 0x?>"
        | c, _ => "<" ++ w.className c ++ " object at 0x?>"
      | _, .plain =>
        if o.cls = .core .configuration then configurationText (o.attrs.entries.map fun e => (e.1, inner e.2))
        else w.instanceText o.cls

def «show» (v : Value) : String := w.showWithin (2 * w.objects.size + 4) [] v

def printed (v : Value) : String := if v.isNone then "" else w.show v

def methodText (m : Method) : String :=
  (if m.member.isSome then "Host Method: " else "Scripted Method: ") ++ m.name ++
    "(" ++ commaList (m.paramTypes.map w.typeName) ++ ")"

def memberText (m : Member) : String :=
  "<Capability " ++ m.kind ++ " " ++ m.name ++ " of " ++ w.show m.owner ++ ">"

def variableText (name : String) (v : Variable) : String :=
  "<Variable " ++ name ++ ": " ++ w.typeName v.type ++ " = " ++ w.show (v.value.getD .none) ++ ">"

end ScriptCore.World
