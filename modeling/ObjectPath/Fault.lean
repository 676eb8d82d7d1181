import ObjectPath.Text.Quoted
import ObjectPath.Value

/-!
Faults: why an operation ended without a result.  Each cause is a constructor;
the wording of all of them is in `Fault.message`.
-/

namespace ObjectPath

/-! ## Causes -/

/-- Why a text is no path expression. -/
inductive ExpressionFault
  | missing
  | empty
  | noTypeName
  | noNodes
  | unbalanced (bracket : Char)
  | unclosed
  | emptySegment
  | tooManyNodes (limit : String) (count : Nat)
  | unknownType (typeName : String)
  | unresolved (typeName : String)
  | unnameableType
  | invalidSegment (segment : String)
  | fieldName
  | methodName
  | argumentKey (key : String)
  | index

/-- Why a well-formed path cannot be applied. -/
inductive OperationFault
  | notAnArray (node typeName : String)
  | indexesType (node typeName : String)
  | staticGivenRoot (source : String)
  | boundElsewhere (source bound given : String)
  | rootTypeMissing (source : String)
  | otherOwner (source typeName : String)
  | ownerMissing (source : String)

/-- Why an argument of a path or predicate operation is refused. -/
inductive ArgumentFault
  | emptySlice (first last : String)
  | testWithoutWhen
  | thanWithoutWhen
  | testMissing
  | thanMissing (test : String)
  | thanUnwanted (test : String)

inductive MemberKind
  | field
  | method
  deriving DecidableEq

/-- Why a position or length is out of range. -/
inductive RangeFault
  | position (name value : String) (size : Nat)
  | arrayLength
  | textLength
  | fractionDigits
  | radix
  | time
  | fractionAsBigint (number : String)
  | depth

/-- Why a value cannot be used as it was. -/
inductive UseFault
  | assignToSimple (name kindName : String)
  | readOnly (name : String)
  | readOnlyOf (name description : String)
  | notExtensible (name : String)
  | noSetter (name description : String)
  | assignToMissing (name missing : String)
  | assignOnSimple (name kindName text : String)
  | assignOnMissing
  | recordOfMissing
  | readOfMissing (name missing : String)
  | notDefinable (name : String)
  | redefined (name : String)
  | defineOnSimple
  | notConstructible (className : String)
  | notPrimitive
  | symbolAsText
  | symbolAsNumber
  | bigintAsNumber
  | mixedArithmetic
  | wrongReceiver (function expected : String)
  | notDate
  | foreignReceiver (function description : String)
  | missingReceiver (function : String)
  | appliedTo (description kind : String)
  | notList
  | pushedTooMany (count length : Nat)
  | listLength
  | notFunction (name : String)
  | notIterable (name : String)
  /-- A class was called; only the built-in ones tell their names. -/
  | classCall (className : Option String)
  | notSpecies
  | privateMember (name : String)
  | undeclarable
  | notBigint (text : String)
  | bigintInData
  /-- A value that holds itself; the lines of text tell how. -/
  | circularData (lines : List String)
  | circularParent
  | fixedParent (description : String)
  | notAccessor (function : String)
  /-- The condition on a constructor argument, in the words of the class. -/
  | requirement (message : String)

/-- Why a type registry refuses. -/
inductive RegistryFault
  | nameTaken (name className : String)
  | typeTaken (className name : String)
  | anonymous

/-- Why an operation failed. -/
inductive Fault
  | invalidExpression (expression : String) (reason : ExpressionFault) (cause : Option Fault)
  /-- A value that is no text was given in the place of an expression. -/
  | invalidValue (expression : Value) (shown : String) (reason : ExpressionFault)
      (cause : Option Fault)
  | missingArgument (node : String) (key : Option String)
  | unsupportedWrite (node : String)
  | unsupportedOperation (reason : OperationFault)
  | instantiation (typeName : Value) (shown : String) (detail : Option String)
      (cause : Option Fault)
  | invalidArgument (reason : ArgumentFault)
  | memberNotFound (kind : MemberKind) (owner member : String) (detail : Option String)
  | unknownType (typeName : String)
  | range (reason : RangeFault)
  | use (reason : UseFault)
  /-- A text that writes no big integer. -/
  | malformedBigint (text : String)
  | registry (reason : RegistryFault)
  | undeclaredType
  | raised (message : String)
  | raisedValue (value : Value)

/-! ## Wording -/

def ExpressionFault.message : ExpressionFault → String
  | .missing => "expression is missing"
  | .empty => "expression is empty"
  | .noTypeName => "static expression has no type name"
  | .noNodes => "static expression has no nodes"
  | .unbalanced bracket => "unbalanced \"" ++ String.singleton bracket ++ "\""
  | .unclosed => "unclosed bracket or parenthesis"
  | .emptySegment => "empty segment"
  | .tooManyNodes limit count => "more than " ++ limit ++ " nodes (" ++ Nat.repr count ++ ")"
  | .unknownType typeName => "unknown type \"" ++ typeName ++ "\""
  | .unresolved typeName => "does not resolve against " ++ typeName
  | .unnameableType => "cannot name the root type"
  | .invalidSegment segment => "invalid segment " ++ Text.quote segment
  | .fieldName => "field name is not an identifier"
  | .methodName => "method name is not an identifier"
  | .argumentKey key => "argument key " ++ Text.quote key ++ " is not an identifier"
  | .index => "index is not a non-negative integer"

def OperationFault.message : OperationFault → String
  | .notAnArray node typeName => node ++ ": " ++ typeName ++ " is not an array"
  | .indexesType node typeName =>
      node ++ " indexes its target, which cannot be the type " ++ typeName
  | .staticGivenRoot source =>
      source ++ " is a static expression and does not accept a root object"
  | .boundElsewhere source bound given => source ++ " is bound to " ++ bound ++ ", not " ++ given
  | .rootTypeMissing source => source ++ " is not a static expression; pass the root type"
  | .otherOwner source typeName => source ++ " only supports " ++ typeName ++ " as its root type"
  | .ownerMissing source => source ++ " is not a static expression; pass the owner type"

def ArgumentFault.message : ArgumentFault → String
  | .emptySlice first last => "end (" ++ last ++ ") must be greater than begin (" ++ first ++ ")"
  | .testWithoutWhen =>
      "The [is] predicate cannot be defined if the [when] path expression is not specified."
  | .thanWithoutWhen =>
      "The [than] path expression cannot be specified if the [when] path expression is not " ++
        "specified."
  | .testMissing =>
      "The [is] predicate cannot be undefined if the [when] path expression is specified."
  | .thanMissing test =>
      "The [than] path expression must be specified because the [" ++ test ++
        "] predicate requires two values."
  | .thanUnwanted test =>
      "The [than] path expression cannot be specified because the [" ++ test ++
        "] predicate requires only one value."

def RangeFault.message : RangeFault → String
  | .position name value size => name ++ ": " ++ value ++ ", size: " ++ Nat.repr size
  | .arrayLength => "Invalid array length"
  | .textLength => "Invalid string length"
  | .fractionDigits => "toFixed() digits argument must be between 0 and 100"
  | .radix => "toString() radix argument must be between 2 and 36"
  | .time => "Invalid time value"
  | .fractionAsBigint number =>
      "The number " ++ number ++ " cannot be converted to a BigInt because it is not an integer"
  | .depth => "Maximum call stack size exceeded"

def UseFault.message : UseFault → String
  | .assignToSimple name kindName => "Cannot assign '" ++ name ++ "' on a " ++ kindName
  | .readOnly name => "Cannot assign to read only property '" ++ name ++ "'"
  | .readOnlyOf name description =>
      "Cannot assign to read only property '" ++ name ++ "' of " ++ description
  | .notExtensible name => "Cannot add property " ++ name ++ ", object is not extensible"
  | .noSetter name description =>
      "Cannot set property " ++ name ++ " of " ++ description ++ " which has only a getter"
  | .assignToMissing name missing =>
      "Cannot set properties of " ++ missing ++ " (setting '" ++ name ++ "')"
  | .assignOnSimple name kindName text =>
      "Cannot create property '" ++ name ++ "' on " ++ kindName ++ " '" ++ text ++ "'"
  | .assignOnMissing => "Reflect.set called on non-object"
  | .recordOfMissing => "Cannot convert undefined or null to object"
  | .readOfMissing name missing =>
      "Cannot read properties of " ++ missing ++ " (reading '" ++ name ++ "')"
  | .notDefinable name => "Cannot define property " ++ name ++ ", object is not extensible"
  | .redefined name => "Cannot redefine property: " ++ name
  | .defineOnSimple => "Object.defineProperty called on non-object"
  | .notConstructible className => className ++ " is not a constructor"
  | .notPrimitive => "Cannot convert object to primitive value"
  | .symbolAsText => "Cannot convert a Symbol value to a string"
  | .symbolAsNumber => "Cannot convert a Symbol value to a number"
  | .bigintAsNumber => "Cannot convert a BigInt value to a number"
  | .mixedArithmetic => "Cannot mix BigInt and other types, use explicit conversions"
  | .wrongReceiver function expected => function ++ " requires that 'this' be a " ++ expected
  | .notDate => "this is not a Date object."
  | .foreignReceiver function description =>
      "Method " ++ function ++ " called on incompatible receiver " ++ description
  | .missingReceiver function => function ++ " called on null or undefined"
  | .appliedTo description kind =>
      "Function.prototype.apply was called on " ++ description ++ ", which is " ++ kind ++
        " and not a function"
  | .notList => "CreateListFromArrayLike called on non-object"
  | .pushedTooMany count length =>
      "Pushing " ++ Nat.repr count ++ " elements on an array-like of length " ++ Nat.repr length ++
        " is disallowed, as the total surpasses 2**53-1"
  | .listLength => "Invalid array length"
  | .notFunction name => name ++ " is not a function"
  | .notIterable name => name ++ " is not iterable"
  | .classCall none => "Class constructors cannot be invoked without 'new'"
  | .classCall (some className) =>
      "Class constructor " ++ className ++ " cannot be invoked without 'new'"
  | .notSpecies => "object.constructor[Symbol.species] is not a constructor"
  | .privateMember name =>
      "Cannot read private member " ++ name ++ " from an object whose class did not declare it"
  | .undeclarable => "Invalid value used as weak map key"
  | .notBigint text => "Cannot convert " ++ text ++ " to a BigInt"
  | .bigintInData => "Do not know how to serialize a BigInt"
  | .circularData lines => "\n".intercalate ("Converting circular structure to JSON" :: lines)
  | .circularParent => "Cyclic __proto__ value"
  | .fixedParent description => description ++ " is not extensible"
  | .notAccessor function => function ++ ": Expecting function"
  | .requirement message => message

def RegistryFault.message : RegistryFault → String
  | .nameTaken name className => "Type name " ++ name ++ " is already bound to " ++ className
  | .typeTaken className name => className ++ " is already registered as " ++ name
  | .anonymous => "Anonymous classes must be registered explicitly"

def MemberKind.title : MemberKind → String
  | .field => "Field"
  | .method => "Method"

namespace Fault

/-- The wording of a fault.  A raised value has no wording of its own. -/
def message : Fault → String
  | .invalidExpression expression reason _ =>
      "Invalid path expression " ++ Text.quote expression ++ ": " ++ reason.message
  | .invalidValue _ shown reason _ => "Invalid path expression " ++ shown ++ ": " ++ reason.message
  | .missingArgument node none =>
      node ++ " requires arguments but the argument map is missing or empty"
  | .missingArgument node (some key) => node ++ " has no argument for key \"" ++ key ++ "\""
  | .unsupportedWrite node => "Cannot write through " ++ node ++ ": no setter"
  | .unsupportedOperation reason => reason.message
  | .instantiation _ shown none _ => "Could not create an instance of " ++ shown
  | .instantiation _ shown (some detail) _ =>
      "Could not create an instance of " ++ shown ++ ": " ++ detail
  | .invalidArgument reason => reason.message
  | .memberNotFound kind owner member none =>
      kind.title ++ " not found: " ++ owner ++ "." ++ member
  | .memberNotFound kind owner member (some detail) =>
      kind.title ++ " not found: " ++ owner ++ "." ++ member ++ " (" ++ detail ++ ")"
  | .unknownType typeName => "Type not found: " ++ typeName
  | .range reason => reason.message
  | .use reason => reason.message
  | .malformedBigint text => "Cannot convert " ++ text ++ " to a BigInt"
  | .registry reason => reason.message
  | .undeclaredType => "@field requires a type as its argument"
  | .raised message => message
  | .raisedValue _ => ""

/-- The class of a fault, which callers tell faults apart by. -/
inductive Category
  | invalidExpression
  | missingArgument
  | unsupportedWrite
  | unsupportedOperation
  | instantiation
  | invalidArgument
  | memberNotFound
  | unknownType
  | range
  | use
  | malformed
  | general
  | value
  deriving DecidableEq

def Category.name : Category → String
  | .invalidExpression => "InvalidExpressionError"
  | .missingArgument => "MissingArgumentError"
  | .unsupportedWrite => "UnsupportedWriteError"
  | .unsupportedOperation => "UnsupportedOperationError"
  | .instantiation => "InstantiationError"
  | .invalidArgument => "InvalidArgumentError"
  | .memberNotFound => "MemberNotFoundError"
  | .unknownType => "UnknownTypeError"
  | .range => "RangeError"
  | .use => "TypeError"
  | .malformed => "SyntaxError"
  | .general => "Error"
  | .value => "thrown"

def category : Fault → Category
  | .invalidExpression .. => .invalidExpression
  | .invalidValue .. => .invalidExpression
  | .missingArgument .. => .missingArgument
  | .unsupportedWrite _ => .unsupportedWrite
  | .unsupportedOperation _ => .unsupportedOperation
  | .instantiation .. => .instantiation
  | .invalidArgument _ => .invalidArgument
  | .memberNotFound .. => .memberNotFound
  | .unknownType _ => .unknownType
  | .range _ => .range
  | .use _ => .use
  | .malformedBigint _ => .malformed
  | .registry _ => .general
  | .undeclaredType => .general
  | .raised _ => .general
  | .raisedValue _ => .value

/-- The code of a fault, by which programs tell faults of paths apart. -/
def code? : Fault → Option String
  | .invalidExpression .. => some "INVALID_EXPRESSION"
  | .invalidValue .. => some "INVALID_EXPRESSION"
  | .missingArgument .. => some "MISSING_ARGUMENT"
  | .unsupportedWrite _ => some "UNSUPPORTED_WRITE"
  | .unsupportedOperation _ => some "UNSUPPORTED_OPERATION"
  | .instantiation .. => some "INSTANTIATION_FAILURE"
  | .invalidArgument _ => some "INVALID_ARGUMENT"
  | .memberNotFound .. => some "MEMBER_NOT_FOUND"
  | _ => none

/-- What a fault is about, by name. -/
def details : Fault → List (String × Value)
  | .invalidExpression expression _ _ => [("expression", .string expression)]
  | .invalidValue expression _ _ _ => [("expression", expression)]
  | .missingArgument _ (some key) => [("key", .string key)]
  | .unsupportedWrite node => [("node", .string node)]
  | .instantiation typeName _ _ _ => [("typeName", typeName)]
  | .memberNotFound _ _ member _ => [("member", .string member)]
  | .unknownType typeName => [("typeName", .string typeName)]
  | _ => []

def cause? : Fault → Option Fault
  | .invalidExpression _ _ cause => cause
  | .invalidValue _ _ _ cause => cause
  | .instantiation _ _ _ cause => cause
  | _ => none

end Fault

end ObjectPath
