import ScriptCore.Number.Decimal
import ScriptCore.Text.Quoted

namespace ScriptCore

inductive Data where
  | null
  | bool (b : Bool)
  | int (n : Int)
  | float (x : Float)
  | str (s : String)
  | list (items : List Data)
  | object (fields : List (String × Data))
  deriving Inhabited

namespace Data

def lookup : List (String × Data) → String → Option Data
  | [], _ => none
  | (k, v) :: rest, name => if k = name then some v else lookup rest name

def field? (d : Data) (name : String) : Option Data :=
  match d with
  | object fields => lookup fields name
  | _ => none

def field (d : Data) (name : String) : Data := (d.field? name).getD null

def isNull : Data → Bool
  | null => true
  | _ => false

def className : Data → String
  | null => "NoneType"
  | bool _ => "bool"
  | int _ => "int"
  | float _ => "float"
  | str _ => "str"
  | list _ => "list"
  | object _ => "dict"

def items : Data → List Data
  | list l => l
  | _ => []

def text? : Data → Option String
  | str s => some s
  | _ => none

def int? : Data → Option Int
  | int n => some n
  | _ => none

def truth : Data → Bool
  | null => false
  | bool b => b
  | int n => n ≠ 0
  | float x => x != 0
  | str s => !s.isEmpty
  | list l => !l.isEmpty
  | object fields => !fields.isEmpty

mutual

def «show» : Data → String
  | null => "None"
  | bool b => if b then "True" else "False"
  | int n => toString n
  | float x => Decimal.show x
  | str s => Quoted.quote s
  | list l => "[" ++ ", ".intercalate (showAll l) ++ "]"
  | object fields => "\x7b" ++ ", ".intercalate (showFields fields) ++ "\x7d"

def showAll : List Data → List String
  | [] => []
  | d :: rest => Data.show d :: showAll rest

def showFields : List (String × Data) → List String
  | [] => []
  | (k, v) :: rest => (Quoted.quote k ++ ": " ++ Data.show v) :: showFields rest

end

def text : Data → String
  | str s => s
  | d => d.show

end Data

end ScriptCore
