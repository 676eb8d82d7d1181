import ObjectPath.Graph.Store

/-!
The graph that every program starts with: the built-in classes, the objects whose
members their instances share, the built-in functions and the constants, each at its
fixed place.
-/

namespace ObjectPath

/-! ## Objects -/

def BuiltinFunction.object (function : BuiltinFunction) : Object where
  parent := some BuiltinClass.function.sharedPlace
  body := .function (.builtin function)
  slots :=
    [(.name "length", .data (.ofNat function.arity) .labelling),
      (.name "name", .data (.string function.name) .labelling)]
  extensible := true

namespace BuiltinClass

/-- The functions that the instances of a built-in class share under their own names. -/
def methods : BuiltinClass → List BuiltinFunction
  | .object =>
      [.defineGetter, .defineSetter, .hasOwnProperty, .lookupGetter, .lookupSetter,
        .isPrototypeOf, .propertyIsEnumerable, .textOf .object, .valueOf .object,
        .localTextOf .object]
  | .function => [.apply, .call, .textOf .function]
  | .array => [.join, .map, .push, .someElement, .localTextOf .array, .textOf .array]
  | .string => [.toLowerCase, .textOf .string, .toUpperCase, .trim, .valueOf .string]
  | .number => [.toFixed, .textOf .number, .valueOf .number, .localTextOf .number]
  | .boolean => [.textOf .boolean, .valueOf .boolean]
  | .date =>
      [.textOf .date, .toISOString, .getTime, .valueOf .date, .toJSON, .localTextOf .date]
  | .bigint => [.localTextOf .bigint, .textOf .bigint, .valueOf .bigint]
  | .symbol => [.textOf .symbol, .valueOf .symbol]
  | .path => [.equalsOf .path, .textOf .path]
  | .predicate => [.equalsOf .predicate, .textOf .predicate]
  | .fieldNode | .methodNode | .arrayNode => [.equalsOf .fieldNode, .textOf .fieldNode]
  | _ => []

/-- The parts of themselves that the instances of a built-in class tell. -/
def parts : BuiltinClass → List PathPart
  | .path => PathPart.all
  | .predicate => [.needsArguments]
  | .fieldNode | .methodNode | .arrayNode => [.argumentKeys, .needsArguments]
  | _ => []

/-- The accessors that the instances of a built-in class share. -/
def accessors : BuiltinClass → List (Key × Property)
  | .object =>
      [(.name "__proto__",
        .accessor (some BuiltinFunction.getParent.place) (some BuiltinFunction.setParent.place)
          false true)]
  | .arrayType =>
      [(.name "name", .accessor (some BuiltinFunction.arrayTypeName.place) none false true)]
  | owner =>
      owner.parts.map fun part =>
        (.name part.name,
          .accessor (some (BuiltinFunction.pathPart part).place) none false true)

/-- What the object is whose members the instances of a built-in class share. -/
def sharedBody : BuiltinClass → Body
  | .function => .function (.script [] false)
  | .array => .items 0 true
  | .string => .boxed (.string "")
  | .number => .boxed (.ofNat 0)
  | .boolean => .boxed (.boolean false)
  | _ => .plain

/-- The object whose members the instances of a built-in class share. -/
def sharedObject (owner : BuiltinClass) : Object where
  parent := match owner with
    | .object => none
    | _ => some BuiltinClass.object.sharedPlace
  body := owner.sharedBody
  slots :=
    (match owner with
      | .function =>
          [(Key.name "length", Property.data (.ofNat 0) .labelling),
            (.name "name", .data (.string "") .labelling)]
      | _ => []) ++
    (.name "constructor", .data (.object owner.place) .hidden) ::
      owner.methods.map (fun function =>
        (Key.name function.name, Property.data (.object function.place) .hidden)) ++
      owner.accessors
  extensible := true

def classObject (owner : BuiltinClass) : Object where
  parent := some BuiltinClass.function.sharedPlace
  body := .function (.builtinClass owner)
  slots :=
    [(.name "length", .data (.ofNat owner.arity) .labelling),
      (.name "name", .data (.string owner.name) .labelling),
      (.name "prototype", .data (.object owner.sharedPlace) .fixed)]
  extensible := true

end BuiltinClass

/-! ## Constants -/

def predicateSlots (whenPath test thanPath : Value) (holds : Bool) : List (Key × Property) :=
  [(.name "when", .data whenPath .plain), (.name "is", .data test .plain),
    (.name "than", .data thanPath .plain), (.name "defaultValue", .data (.boolean holds) .plain)]

def BuiltinConstant.object : BuiltinConstant → Object
  | .noTest =>
      { parent := some BuiltinClass.object.sharedPlace
        body := .plain
        slots :=
          [(.name "kind", .data (.string "undefined") ⟨false, true, false⟩),
            (.name "name", .data (.string "UNDEFINED") ⟨false, true, false⟩)]
        extensible := false }
  | .acceptAll => constantPredicate true
  | .denyAll => constantPredicate false
  | .resolver => emptyInstance .resolver
  | .registry => emptyInstance .registry
  | .factory => emptyInstance .factory
where
  emptyInstance (owner : BuiltinClass) : Object :=
    { parent := some owner.sharedPlace
      body := .plain
      slots := []
      extensible := true }
  constantPredicate (holds : Bool) : Object :=
    { parent := some BuiltinClass.predicate.sharedPlace
      body := .plain
      slots := predicateSlots .null (.object BuiltinConstant.noTest.place) .null holds
      extensible := true }

/-! ## The graph -/

namespace Graph

/-- The built-in classes that scripts can name. -/
def builtinNames : List (String × Value) :=
  [BuiltinClass.object, .string, .number, .boolean, .array, .date, .bigint, .symbol, .function].map
    fun owner => (owner.name, .object owner.place)

/-- The graph with the built-in classes and functions and nothing else. -/
def standard : Graph where
  objects :=
    (BuiltinClass.all.flatMap (fun owner => [owner.sharedObject, owner.classObject]) ++
      BuiltinFunction.all.map BuiltinFunction.object ++
      BuiltinConstant.all.map BuiltinConstant.object).toArray
  symbols := 0
  arrayTypes := []
  declarations := []
  classNames := builtinNames
  valueNames := []
  joining := []

end Graph

end ObjectPath
