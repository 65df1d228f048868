namespace ScriptCore

inductive CoreClass where
  | object | type | abstractMeta | noneType
  | bool | int | float | str | list | tuple | dict | set | range | bytes | date | datetime
  | function | method | builtinMethod | methodDescriptor | slotWrapper | methodWrapper | module | property
  | generator | listIterator | tupleIterator | keyIterator | setIterator | rangeIterator | asciiIterator
  | textIterator | bytesIterator | notImplementedType | memberView | fixedSet | computedMember
  | abstractBase | iterable
  | array | primitive | primitiveType | arrayType | closure | scope | blockScope | callStack | interpreter
  | classIdentifier | signal | methodValue | bridge
  | variableValue | modifierSet | classRegistry | configuration | evaluator | classMaker | resolver
  | capability | classBody
  | node (kind : String)
  | baseException | exception | arithmeticError | zeroDivisionError | overflowError | lookupError | keyError
  | indexError | runtimeError | notImplementedError | typeError | valueError | attributeError | importError
  | moduleNotFoundError | stopIteration
  | classCastError | negativeArraySizeError | evalError | targetException | utilEvalException
  | utilTargetException | classNotFound | interpreterError | reflectError | hostInvocationError
  | classGenerationError | templateError | templateNotFoundError
  deriving DecidableEq, Repr, Inhabited

namespace CoreClass

def name : CoreClass → String
  | object => "object" | type => "type" | abstractMeta => "ABCMeta" | noneType => "NoneType"
  | bool => "bool" | int => "int" | float => "float" | str => "str" | list => "list" | tuple => "tuple"
  | dict => "dict" | set => "set" | range => "range" | bytes => "bytes" | date => "date" | datetime => "datetime"
  | function => "function" | method => "method" | builtinMethod => "builtin_function_or_method"
  | methodDescriptor => "method_descriptor" | slotWrapper => "wrapper_descriptor"
  | methodWrapper => "method-wrapper" | module => "module" | property => "property"
  | generator => "generator" | listIterator => "list_iterator" | tupleIterator => "tuple_iterator"
  | keyIterator => "dict_keyiterator" | setIterator => "set_iterator" | rangeIterator => "range_iterator"
  | asciiIterator => "str_ascii_iterator" | textIterator => "str_iterator" | bytesIterator => "bytes_iterator"
  | notImplementedType => "NotImplementedType" | memberView => "mappingproxy" | fixedSet => "frozenset"
  | computedMember => "getset_descriptor" | abstractBase => "ABC" | iterable => "Iterable"
  | array => "Array" | primitive => "Primitive" | primitiveType => "PrimitiveType" | arrayType => "ArrayType"
  | closure => "This" | scope => "NameSpace" | blockScope => "BlockNameSpace" | callStack => "CallStack"
  | interpreter => "Interpreter" | classIdentifier => "ClassIdentifier" | signal => "ReturnControl"
  | methodValue => "Method" | bridge => "HostBridge" | variableValue => "Variable" | modifierSet => "Modifiers"
  | classRegistry => "ClassRegistry" | configuration => "InterpreterConfig" | evaluator => "Evaluator"
  | classMaker => "ClassGenerator" | resolver => "Name" | capability => "Capability" | classBody =>
    "_ClassBody" | node kind => kind
  | baseException => "BaseException" | exception => "Exception" | arithmeticError => "ArithmeticError"
  | zeroDivisionError => "ZeroDivisionError" | overflowError => "OverflowError" | lookupError => "LookupError"
  | keyError => "KeyError" | indexError => "IndexError" | runtimeError => "RuntimeError"
  | notImplementedError => "NotImplementedError" | typeError => "TypeError" | valueError => "ValueError"
  | attributeError => "AttributeError" | importError => "ImportError"
  | moduleNotFoundError => "ModuleNotFoundError" | stopIteration => "StopIteration"
  | classCastError => "ClassCastError" | negativeArraySizeError => "NegativeArraySizeError"
  | evalError => "EvalError" | targetException => "TargetException" | utilEvalException => "UtilEvalException"
  | utilTargetException => "UtilTargetException" | classNotFound => "ClassNotFound"
  | interpreterError => "InterpreterError" | reflectError => "ReflectError"
  | hostInvocationError => "HostInvocationError" | classGenerationError => "ClassGenerationError"
  | templateError => "ParsingError" | templateNotFoundError => "TemplateNotFoundError"

def base : CoreClass → Option CoreClass
  | object => none
  | abstractMeta => some type
  | bool => some int
  | blockScope => some scope
  | datetime => some date
  | exception => some baseException
  | arithmeticError | lookupError | runtimeError | typeError | valueError | attributeError | importError
  | stopIteration | evalError | utilEvalException | reflectError | hostInvocationError | classGenerationError
  | templateError | templateNotFoundError => some exception
  | zeroDivisionError | overflowError => some arithmeticError
  | keyError | indexError => some lookupError
  | notImplementedError | interpreterError => some runtimeError
  | moduleNotFoundError => some importError
  | classCastError => some typeError
  | negativeArraySizeError => some valueError
  | targetException => some evalError
  | utilTargetException | classNotFound => some utilEvalException
  | _ => some object

def ancestry : Nat → CoreClass → List CoreClass
  | 0, c => [c]
  | depth + 1, c =>
    match c.base with
    | none => [c]
    | some b => c :: ancestry depth b

variable (c : CoreClass)

def mro : List CoreClass := ancestry 6 c

def isIterator : CoreClass → Bool
  | generator | listIterator | tupleIterator | keyIterator | setIterator | rangeIterator | asciiIterator | textIterator
  | bytesIterator => true
  | _ => false

def iterates : CoreClass → Bool
  | str | list | tuple | dict | set | range | bytes | array => true
  | c => c.isIterator

def isException : Bool := c.mro.contains baseException

def home : CoreClass → String
  | abstractBase | abstractMeta => "abc"
  | iterable => "collections.abc"
  | date | datetime => "datetime"
  | array | primitive | primitiveType | arrayType | negativeArraySizeError => "jive.jive_values"
  | closure => "jive.jive_this"
  | scope | blockScope | variableValue | modifierSet => "jive.jive_namespace"
  | callStack => "jive.jive_callstack"
  | interpreter | configuration => "jive.jive_runtime"
  | evaluator => "jive.jive_interpreter"
  | classMaker | classBody => "jive.jive_classgen"
  | classRegistry => "jive.jive_classpath"
  | classIdentifier | classNotFound | resolver => "jive.jive_names"
  | signal | node _ => "jive.jive_nodes"
  | methodValue => "jive.jive_methods"
  | bridge | capability | hostInvocationError => "jive.jive_reflect"
  | classCastError => "jive.jive_types"
  | evalError | targetException | utilEvalException | utilTargetException | interpreterError | reflectError
  | classGenerationError => "jive.jive_errors"
  | templateError => "pystache.parser"
  | templateNotFoundError => "pystache.common"
  | _ => "builtins"

def hasFunctions : Bool := c.home.startsWith "jive."

def isSlot (name : String) : Bool :=
  name.startsWith "__" && !c.hasFunctions &&
    match c, name with
    | list, "__getitem__" | dict, "__getitem__" | dict, "__contains__" | set, "__contains__" => false
    | object, "__dir__" | object, "__format__" | object, "__getstate__" | object, "__reduce__"
    | object, "__reduce_ex__" | object, "__sizeof__" | type, "__subclasses__" | type, "__instancecheck__"
    | type, "__subclasscheck__" | type, "__prepare__" => false
    | _, _ => true

def builtins : List CoreClass :=
  [object, type, bool, int, float, str, list, tuple, dict, set, range, property, baseException, exception,
    arithmeticError, zeroDivisionError, overflowError, lookupError, keyError, indexError, runtimeError,
    notImplementedError, typeError, valueError, attributeError, importError, moduleNotFoundError, stopIteration]

/-- The classes of the interpreter's own package that its modules are known to hold. -/
def own : List CoreClass :=
  [array, primitive, primitiveType, arrayType, negativeArraySizeError, closure, scope, blockScope, callStack,
    interpreter, classIdentifier, classNotFound, signal, methodValue, bridge, hostInvocationError, classCastError,
    evalError, targetException, utilEvalException, utilTargetException, interpreterError, reflectError,
    classGenerationError]

def ownHomes : List String := (own.map home).eraseDups

end CoreClass

/-- The classes of the exceptions that host code raises of its own accord. -/
inductive ErrorClass where
  | zeroDivisionError | overflowError | keyError | indexError | runtimeError | typeError | valueError
  | attributeError | moduleNotFoundError | stopIteration | classCastError | negativeArraySizeError
  | templateError | templateNotFoundError
  deriving DecidableEq, Repr

def ErrorClass.core : ErrorClass → CoreClass
  | zeroDivisionError => .zeroDivisionError | overflowError => .overflowError | keyError => .keyError
  | indexError => .indexError | runtimeError => .runtimeError | typeError => .typeError
  | valueError => .valueError | attributeError => .attributeError
  | moduleNotFoundError => .moduleNotFoundError | stopIteration => .stopIteration
  | classCastError => .classCastError | negativeArraySizeError => .negativeArraySizeError
  | templateError => .templateError | templateNotFoundError => .templateNotFoundError

structure HostError where
  cls : ErrorClass
  message : String
  deriving DecidableEq, Repr

end ScriptCore
