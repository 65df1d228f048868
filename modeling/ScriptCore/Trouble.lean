import ScriptCore.Host.CoreClass

namespace ScriptCore

inductive Conversion where
  | assignment | cast
  deriving DecidableEq, Repr

inductive DeclKind where
  | cls
  | method
  | field
  deriving DecidableEq, Repr

def DeclKind.name : DeclKind → String
  | cls => "class"
  | method => "method"
  | field => "field"

inductive Cause where
  | text (message : String)
  -- conversions and operators
  | cannotAssign (source target : String)
  | cannotCast (source target : String)
  | voidUsed (mode : Conversion)
  | castToVoid
  | notAType (shown : String)
  | illegalVoid
  | illegalNull
  | badOperator (op : String) (operand : String)
  | typeMismatch (left right : String)
  | shiftOfFloating
  | unknownUnary (op : String)
  | arithmetic
  | conditionVoid
  | conditionNotBoolean
  | ambiguousCall (candidates : List (List String)) (arguments : List String)
  -- declarations and variables
  | duplicateModifier (name : String)
  | modifierNotAllowed (kind : DeclKind) (name : String)
  | visibilityCombination
  | finalReassigned (name : String)
  | strictUndeclared (name : String)
  | declaredBefore (name type : String)
  -- names
  | notFound (path : String)
  | nullPointer (path : String)
  | undefinedWhile (path : String)
  | primitiveAsObject (path : String)
  | notAClassName (path : String)
  | fieldNotAccessible (field : String) (shown : String)
  | redundantThis
  | onlyOnThis (field : String)
  | callerOnlyOnThis
  | noCaller
  | classNotFound (path : String)
  | assignToThis
  | placeEvaluation (inner : String)
  | assignToClass (path : String)
  | noPlace (path : String)
  | assignToSpecial (field : String)
  | assignFieldOfNonObject (path : String)
  | methodOnUndefined (method path : String)
  | noEnclosingInstance (cls : String)
  | noStaticMember (field : String) (shown : String)
  | nullInvocation
  | invokeOnUndefined (method : String)
  | invokeOnPrimitive (method : String)
  | assignFieldOfNothing (key : String)
  | resultNotAssignable
  | assignArrayLength
  | superMethodNotFound (method cls : String)
  -- the evaluator's own complaints
  | labelledJump (label : String)
  | lockRequiresObject
  | iterateNull
  | cannotIterate (type : String)
  | emptySwitch
  | switchWithoutLabel
  | throwRequiresException
  | assignToNonPlace
  | undefinedArgument (text : String)
  | classSuffixOnNonClass
  | assignClassSuffix
  | propertyOnUndefined
  | propertyOnPrimitive
  | propertyKey
  | noProperty (key : String)
  | initializerNeedsType
  | voidAssignment
  | stringOperator
  | undefinedOperand
  | nullOperand
  | nonPrimitiveOperand (left op right : String)
  | instanceofRequiresType
  | voidArray
  | cannotInstantiate (type : String)
  | interfaceInstance (type : String)
  | abstractInstance (type : String)
  | noDimension
  | unsizedBeforeSized
  | sizeRequired
  | wrongDepth (dimensions : Nat)
  | voidElement
  | strictVariableType
  | initializerForNonArray (type : String)
  | voidInitializer (name : String)
  | strictReturnType (method : String)
  | strictParameterType (parameter method : String)
  | staticFieldImport
  | staticImportClass (name : String)
  | commandNotFound (name : String) (types : List String)
  | privateMethod (shown : String)
  | methodNotFound (name : String) (types : List String) (object : String)
  | wrongArgumentCount (method : String)
  | invalidArgument (parameter method inner : String)
  | undefinedParameter (parameter method : String)
  | jumpInMethod
  | jumpOutside (kind : String)
  | cannotExtend (type : String)
  | finalSuperclass (type : String)
  | constructorNotFound (cls : String) (types : List String)
  | constructorTakesNothing (cls : String)
  | recursiveConstructor
  | superConstructorNotFound (cls inner : String)
  | unsetDotted (name : String)
  deriving DecidableEq, Repr

namespace Cause

def commaSeparated (l : List String) : String := ", ".intercalate l

def message : Cause → String
  | text m => m
  | cannotAssign s t => s!"Can't assign {s} to {t}"
  | cannotCast s t => s!"Cannot cast {s} to {t}"
  | voidUsed mode =>
    "Undefined variable or class name or 'void' value used in " ++
      (match mode with | .assignment => "assignment" | .cast => "cast")
  | castToVoid => "Cannot cast to void"
  | notAType shown => s!"Not a type: {shown}"
  | illegalVoid => "illegal use of undefined variable, class, or 'void' literal"
  | illegalNull => "illegal use of null value or 'null' literal"
  | badOperator op operand => s!"Operator: '{op}' inappropriate for {operand}"
  | typeMismatch l r => s!"Type mismatch in operator. {l} cannot be used with {r}"
  | shiftOfFloating => "Can't shift floatingpoint values"
  | unknownUnary op => s!"Unknown unary operator: '{op}'"
  | arithmetic => "Arithmetic Exception"
  | conditionVoid => "Condition evaluates to void type"
  | conditionNotBoolean => "Condition must evaluate to a Boolean or boolean."
  | ambiguousCall candidates args =>
    let sigs := commaSeparated (candidates.map fun c => "(" ++ commaSeparated c ++ ")")
    let shown := commaSeparated args
    s!"Ambiguous method call: candidates {sigs} all match argument types ({shown})"
  | duplicateModifier n => s!"Duplicate modifier: {n}"
  | modifierNotAllowed kind n =>
    let k := kind.name
    s!"{k} cannot be declared '{n}'"
  | visibilityCombination => "public/private/protected cannot be used in combination."
  | finalReassigned n => s!"Final variable '{n}', can't re-assign."
  | strictUndeclared n => s!"(Strict Java mode) Assignment to undeclared variable: {n}"
  | declaredBefore n t => s!"Typed variable: {n} was previously declared with type: {t}"
  | notFound p => s!"Class or variable not found: {p}"
  | nullPointer p => s!"Null Pointer while evaluating: {p}"
  | undefinedWhile p => s!"Undefined variable or class name while evaluating: {p}"
  | primitiveAsObject p => s!"Can't treat primitive like an object. Error while evaluating: {p}"
  | notAClassName p => s!"{p} does not resolve to a class name."
  | fieldNotAccessible f shown => s!"Cannot access field: {f}, on object: {shown}"
  | redundantThis => "Redundant to call .this on This type"
  | onlyOnThis f => s!"Can only call .{f} on literal 'this'"
  | callerOnlyOnThis => "Can only call .caller on literal 'this' or literal '.caller'"
  | noCaller => "No caller: the call stack is exhausted"
  | classNotFound p => s!"Class: {p} not found in namespace"
  | assignToThis => "Can't assign to 'this'."
  | placeEvaluation inner => s!"LeftValue evaluation: {inner}"
  | assignToClass p => s!"Can't assign to class: {p}"
  | noPlace p => s!"Error in LeftValue: {p}"
  | assignToSpecial f => s!"Can't assign to special variable: {f}"
  | assignFieldOfNonObject p => s!"Can't assign field of non-object while evaluating: {p}"
  | methodOnUndefined m p => s!"Attempt to resolve method: {m}() on undefined variable or class name: {p}"
  | noEnclosingInstance c => s!"Can't find enclosing 'this' instance of class: {c}"
  | noStaticMember f shown => s!"No static field or inner class: {f} of {shown}"
  | nullInvocation => "Null Pointer in Method Invocation"
  | invokeOnUndefined m => s!"Attempt to invoke method: {m}() on undefined value"
  | invokeOnPrimitive m => s!"Attempt to invoke method: {m}() on a primitive"
  | assignFieldOfNothing k => s!"Can't assign field '{k}' of a null or undefined value"
  | resultNotAssignable => "method result is not assignable"
  | assignArrayLength => "Can't assign array length"
  | superMethodNotFound m c => s!"Superclass method not found: {m} in {c}"
  | labelledJump l => s!"Labelled break/continue not supported: {l}"
  | lockRequiresObject => "Synchronized block requires an object to lock on"
  | iterateNull =>
    "The collection, array, map, iterator, or enumeration portion of a for statement cannot be null."
  | cannotIterate t => s!"Can't iterate over type: {t}"
  | emptySwitch => "Empty switch statement."
  | switchWithoutLabel => "Switch body must start with a case label."
  | throwRequiresException => "Expression in 'throw' must be Exception type"
  | assignToNonPlace => "Can't assign to prefix."
  | undefinedArgument t => s!"Undefined argument: {t}"
  | classSuffixOnNonClass => "Attempt to use .class suffix on non class."
  | assignClassSuffix => "Can't assign .class"
  | propertyOnUndefined => "Attempt to access property on undefined variable or class name"
  | propertyOnPrimitive => "Attempt to access property on a primitive"
  | propertyKey => "Property expression must be a String or identifier."
  | noProperty k => s!"No such property: {k}"
  | initializerNeedsType => "Array initializer requires a typed declaration."
  | voidAssignment => "Void assignment."
  | stringOperator => "Use of non + operator with String LeftValue"
  | undefinedOperand => "Illegal use of undefined object or 'void' literal"
  | nullOperand => "Illegal use of null object or 'null' literal"
  | nonPrimitiveOperand l op r => s!"Non primitive value in operator: {l} {op} {r}"
  | instanceofRequiresType => "instanceof requires a type"
  | voidArray => "void[] is not a type"
  | cannotInstantiate t => s!"Can't instantiate type: {t}"
  | interfaceInstance t => s!"Can't create instance of an interface: {t}"
  | abstractInstance t => s!"Can't create instance of abstract class or interface: {t}"
  | noDimension => "Array allocation needs at least one dimension"
  | unsizedBeforeSized => "Array dimensions must be sized from the left"
  | sizeRequired => "Array size must be specified"
  | wrongDepth d => s!"Incompatible initializer. Allocation calls for a {d}-dimensional array"
  | voidElement => "Void in array initializer."
  | strictVariableType => "(Strict Java Mode) Undeclared variable type"
  | initializerForNonArray t => s!"Array initializer for non-array type: {t}"
  | voidInitializer n => s!"Void initializer for variable: {n}"
  | strictReturnType m => s!"(Strict Java Mode) Undeclared return type for method: {m}"
  | strictParameterType p m =>
    s!"(Strict Java Mode) Undeclared argument type, parameter: {p} in method: {m}"
  | staticFieldImport => "static field imports not supported yet"
  | staticImportClass n => s!"Can't find class for static import: {n}"
  | commandNotFound n types =>
    let shown := commaSeparated types
    s!"Command not found: {n}({shown})"
  | privateMethod shown => s!"{shown} is private in this scope."
  | methodNotFound n types object =>
    let shown := commaSeparated types
    s!"Method {n}({shown}) not found in object: {object}"
  | wrongArgumentCount m => s!"Wrong number of arguments for local method: {m}"
  | invalidArgument p m inner => "Invalid argument: `" ++ p ++ "' for method: " ++ m ++ " : " ++ inner
  | undefinedParameter p m => s!"Undefined variable or class name, parameter: {p} to method: {m}"
  | jumpInMethod => "'continue' or 'break' in method body"
  | jumpOutside kind => s!"'{kind}' outside of a loop or switch"
  | cannotExtend t => s!"Can't extend or implement: {t}"
  | finalSuperclass t => s!"Cannot inherit from final class: {t}"
  | constructorNotFound c types =>
    let shown := commaSeparated types
    s!"Constructor not found: {c}({shown})"
  | constructorTakesNothing c => s!"Constructor not found: {c} takes no arguments"
  | recursiveConstructor => "Recursive constructor call."
  | superConstructorNotFound c inner => s!"Superclass constructor not found for {c}: {inner}"
  | unsetDotted n => s!"Can't unset dotted name: {n}"

end Cause

/-- How a component without a store fails: the construct cannot be evaluated, an exception is to be
thrown into the script, or a host exception comes up as it is. -/
inductive Trouble where
  | fault (cause : Cause)
  | throws (exception : HostError) (cause : Cause)
  | host (exception : HostError)
  deriving DecidableEq, Repr

end ScriptCore
