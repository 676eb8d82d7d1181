/-!
The classes, functions and constants that every graph starts with.  Each of them has a
fixed place: a class has two objects, the class itself and the object whose members its
instances share.
-/

namespace ObjectPath

/-! ## Classes -/

/-- The classes that every graph has. -/
inductive BuiltinClass
  | object
  | function
  | array
  | string
  | number
  | boolean
  | date
  | bigint
  | symbol
  /-- The class of the types of arrays. -/
  | arrayType
  | path
  | predicate
  | fieldNode
  | methodNode
  | arrayNode
  | compiler
  | resolver
  | registry
  | factory
  deriving DecidableEq, Repr

namespace BuiltinClass

def all : List BuiltinClass :=
  [.object, .function, .array, .string, .number, .boolean, .date, .bigint, .symbol, .arrayType,
    .path, .predicate, .fieldNode, .methodNode, .arrayNode, .compiler, .resolver, .registry,
    .factory]

def name : BuiltinClass → String
  | .object => "Object"
  | .function => "Function"
  | .array => "Array"
  | .string => "String"
  | .number => "Number"
  | .boolean => "Boolean"
  | .date => "Date"
  | .bigint => "BigInt"
  | .symbol => "Symbol"
  | .arrayType => "ArrayType"
  | .path => "PathExpression"
  | .predicate => "PathExpressionPredicate"
  | .fieldNode => "FieldNode"
  | .methodNode => "MethodNode"
  | .arrayNode => "ArrayNode"
  | .compiler => "PathCompiler"
  | .resolver => "DecoratorMemberResolver"
  | .registry => "TypeRegistry"
  | .factory => "DelegatedInstanceFactory"

/-- The number of arguments a built-in class states for its constructor. -/
def arity : BuiltinClass → Nat
  | .symbol => 0
  | .date => 7
  | _ => 1

/-- The place of the object whose members all instances share. -/
def sharedPlace (owner : BuiltinClass) : Nat :=
  2 * all.idxOf owner

def place (owner : BuiltinClass) : Nat :=
  2 * all.idxOf owner + 1

end BuiltinClass

/-! ## Functions -/

/-- What paths, predicates and nodes tell about themselves. -/
inductive PathPart
  | isStatic
  | length
  | firstNode
  | lastNode
  | argumentKeys
  | needsArguments
  deriving DecidableEq, Repr

namespace PathPart

def all : List PathPart :=
  [.isStatic, .length, .firstNode, .lastNode, .argumentKeys, .needsArguments]

def name : PathPart → String
  | .isStatic => "isStatic"
  | .length => "length"
  | .firstNode => "firstNode"
  | .lastNode => "lastNode"
  | .argumentKeys => "argumentKeys"
  | .needsArguments => "needsArguments"

end PathPart

/-- The functions that every graph has. -/
inductive BuiltinFunction
  /-- The text of a value, as the instances of a class give it. -/
  | textOf (owner : BuiltinClass)
  /-- The text of a value for readers, as the instances of a class give it. -/
  | localTextOf (owner : BuiltinClass)
  /-- The simple value of a value, as the instances of a class give it. -/
  | valueOf (owner : BuiltinClass)
  | hasOwnProperty
  | isPrototypeOf
  | propertyIsEnumerable
  | getParent
  | setParent
  | defineGetter
  | defineSetter
  | lookupGetter
  | lookupSetter
  | call
  | apply
  | join
  | push
  | map
  | someElement
  | toUpperCase
  | toLowerCase
  | trim
  | toFixed
  | getTime
  | toISOString
  | toJSON
  /-- The name of a type of arrays. -/
  | arrayTypeName
  | pathPart (part : PathPart)
  /-- Whether a path, predicate or node equals another value. -/
  | equalsOf (owner : BuiltinClass)
  deriving DecidableEq, Repr

namespace BuiltinFunction

def all : List BuiltinFunction :=
  [.textOf .object, .textOf .function, .textOf .array, .textOf .string, .textOf .number,
    .textOf .boolean, .textOf .date, .textOf .bigint, .textOf .symbol, .textOf .path,
    .textOf .predicate, .textOf .fieldNode,
    .localTextOf .object, .localTextOf .array, .localTextOf .number, .localTextOf .date,
    .localTextOf .bigint,
    .valueOf .object, .valueOf .string, .valueOf .number, .valueOf .boolean, .valueOf .date,
    .valueOf .bigint, .valueOf .symbol,
    .hasOwnProperty, .isPrototypeOf, .propertyIsEnumerable, .getParent,
    .setParent, .defineGetter, .defineSetter, .lookupGetter, .lookupSetter, .call, .apply, .join,
    .push, .map, .someElement,
    .toUpperCase, .toLowerCase, .trim, .toFixed, .getTime, .toISOString, .toJSON,
    .arrayTypeName, .equalsOf .path, .equalsOf .predicate, .equalsOf .fieldNode] ++
    PathPart.all.map .pathPart

def name : BuiltinFunction → String
  | .textOf _ => "toString"
  | .localTextOf _ => "toLocaleString"
  | .valueOf _ => "valueOf"
  | .hasOwnProperty => "hasOwnProperty"
  | .isPrototypeOf => "isPrototypeOf"
  | .propertyIsEnumerable => "propertyIsEnumerable"
  | .getParent => "get __proto__"
  | .setParent => "set __proto__"
  | .defineGetter => "__defineGetter__"
  | .defineSetter => "__defineSetter__"
  | .lookupGetter => "__lookupGetter__"
  | .lookupSetter => "__lookupSetter__"
  | .call => "call"
  | .apply => "apply"
  | .join => "join"
  | .push => "push"
  | .map => "map"
  | .someElement => "some"
  | .toUpperCase => "toUpperCase"
  | .toLowerCase => "toLowerCase"
  | .trim => "trim"
  | .toFixed => "toFixed"
  | .getTime => "getTime"
  | .toISOString => "toISOString"
  | .toJSON => "toJSON"
  | .arrayTypeName => "get name"
  | .pathPart part => "get " ++ part.name
  | .equalsOf _ => "equals"

/-- The number of arguments a built-in function states. -/
def arity : BuiltinFunction → Nat
  | .textOf .number => 1
  | .hasOwnProperty => 1
  | .isPrototypeOf => 1
  | .propertyIsEnumerable => 1
  | .setParent => 1
  | .defineGetter => 2
  | .defineSetter => 2
  | .lookupGetter => 1
  | .lookupSetter => 1
  | .call => 1
  | .apply => 2
  | .join => 1
  | .push => 1
  | .map => 1
  | .someElement => 1
  | .toFixed => 1
  | .toJSON => 1
  | .equalsOf _ => 1
  | _ => 0

/-- The place of a built-in function: the functions come after the classes. -/
def place (function : BuiltinFunction) : Nat :=
  2 * BuiltinClass.all.length + all.idxOf function

end BuiltinFunction

/-! ## Constants -/

/-- The objects besides classes and functions that every graph has. -/
inductive BuiltinConstant
  /-- What stands in the place of a test where none is applied. -/
  | noTest
  /-- The predicate that holds of everything. -/
  | acceptAll
  /-- The predicate that holds of nothing. -/
  | denyAll
  /-- The resolver, registry and factory of a compiler that is given no others. -/
  | resolver
  | registry
  | factory
  deriving DecidableEq, Repr

namespace BuiltinConstant

def all : List BuiltinConstant :=
  [.noTest, .acceptAll, .denyAll, .resolver, .registry, .factory]

def place (constant : BuiltinConstant) : Nat :=
  2 * BuiltinClass.all.length + BuiltinFunction.all.length + all.idxOf constant

end BuiltinConstant

end ObjectPath
