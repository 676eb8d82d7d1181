import ObjectPath.Builtin
import ObjectPath.Entries
import ObjectPath.Key
import ObjectPath.Script
import ObjectPath.Text.Units

/-!
Object graphs.  Everything that is not a simple value is an object at a place:
records, arrays, dates, functions, classes, the types of arrays, and the objects
whose members the instances of a class share.  An object has slots of its own and at
most one parent, whose members it has as well unless it has its own of that key.

Looking a member up never changes the graph: `Graph.find?` searches the own slots of
a value and then those of its ancestors, nearest first.
-/

namespace ObjectPath

/-! ## Members -/

/-- What may be done to a slot: giving it another value, listing it, and defining it anew. -/
structure Flags where
  writable : Bool
  enumerable : Bool
  configurable : Bool
  deriving DecidableEq

namespace Flags

/-- A slot that was made by an assignment. -/
def plain : Flags :=
  ⟨true, true, true⟩

/-- A slot that listings leave out, such as a method of a class. -/
def hidden : Flags :=
  ⟨true, false, true⟩

/-- A slot that can only be defined anew, such as the name of a function. -/
def labelling : Flags :=
  ⟨false, false, true⟩

/-- A slot that never changes. -/
def fixed : Flags :=
  ⟨false, false, false⟩

end Flags

/-- A member: a slot with a value, or an accessor with the places of its functions. -/
inductive Property
  | data (value : Value) (flags : Flags)
  | accessor (getter setter : Option Nat) (enumerable configurable : Bool)

namespace Property

/-- Whether listings show the member. -/
def isEnumerable : Property → Bool
  | .data _ flags => flags.enumerable
  | .accessor _ _ enumerable _ => enumerable

def isConfigurable : Property → Bool
  | .data _ flags => flags.configurable
  | .accessor _ _ _ configurable => configurable

/-- The value of a slot; an accessor has none without being run. -/
def content? : Property → Option Value
  | .data value _ => some value
  | .accessor _ _ _ _ => none

def freeze : Property → Property
  | .data value flags => .data value ⟨false, flags.enumerable, false⟩
  | .accessor getter setter enumerable _ => .accessor getter setter enumerable false

end Property

/-! ## Objects -/

/-- What a constructor does after the constructor of the parent class has run. -/
structure Setup where
  failure : Option Statement
  requirement : Option Requirement
  fields : List FieldSetup

inductive Callee
  /-- A script is run; only some such functions can make instances. -/
  | script (body : List Statement) (constructs : Bool)
  | builtin (function : BuiltinFunction)
  | builtinClass (owner : BuiltinClass)
  /-- A defined class, which can only make instances. -/
  | definedClass (descends : Bool) (setup : Setup)

/-- What an object is besides its slots. -/
inductive Body
  | plain
  /-- The elements are the slots with element numbers below the length. -/
  | items (length : Nat) (resizable : Bool)
  /-- A date; without a time it is invalid. -/
  | date (time : Option Int)
  | boxed (content : Value)
  /-- A path or a node, with contents that only its own members can see. -/
  | sealed (contents : List Value)
  | function (callee : Callee)

/-- An object: its parent, if it has one, and its own slots. -/
structure Object where
  parent : Option Nat
  body : Body
  slots : List (Key × Property)
  /-- Whether slots can be added. -/
  extensible : Bool

/-! ## Declarations -/

structure FieldDeclaration where
  name : String
  type : Value

structure MethodDeclaration where
  name : String
  returnType : Value
  schemas : List Schema

/-- The declarations made on one class, in order of entry for each scope. -/
structure Declarations where
  fields : Scope → List (String × FieldDeclaration)
  methods : Scope → List (String × MethodDeclaration)

/-! ## Graphs -/

structure Graph where
  objects : Array Object
  /-- The number of symbols made so far. -/
  symbols : Nat
  /-- The types of arrays made so far, by their component types. -/
  arrayTypes : List (Value × Nat)
  /-- The declarations, by the places of their classes. -/
  declarations : List (Nat × Declarations)
  /-- The classes that scripts can name. -/
  classNames : List (String × Value)
  /-- The values that scripts can name. -/
  valueNames : List (String × Value)
  /-- The arrays that are being joined to a text. -/
  joining : List Nat

namespace Graph

def object? (graph : Graph) (place : Nat) : Option Object :=
  graph.objects[place]?

def objectOf? (graph : Graph) (value : Value) : Option Object :=
  value.place?.bind graph.object?

/-! ## Ancestors -/

/-- The places from a place up through the parents, at most as many as `limit`. -/
def placesFrom (graph : Graph) : Nat → Option Nat → List Nat
  | 0, _ => []
  | _, none => []
  | limit + 1, some place =>
      place :: placesFrom graph limit ((graph.object? place).bind (·.parent))

/-- The parent of a value.  Simple values have the one that their class shares, and
missing values the one that all records share. -/
def parentOf (graph : Graph) (value : Value) : Option Nat :=
  match value with
  | .undefined => some BuiltinClass.object.sharedPlace
  | .null => some BuiltinClass.object.sharedPlace
  | .boolean _ => some BuiltinClass.boolean.sharedPlace
  | .number _ => some BuiltinClass.number.sharedPlace
  | .bigint _ => some BuiltinClass.bigint.sharedPlace
  | .string _ => some BuiltinClass.string.sharedPlace
  | .symbol _ _ => some BuiltinClass.symbol.sharedPlace
  | .object place => (graph.object? place).bind (·.parent)

def ancestors (graph : Graph) (value : Value) : List Nat :=
  graph.placesFrom graph.objects.size (graph.parentOf value)

def descendsFrom (graph : Graph) (value : Value) (place : Nat) : Bool :=
  value.isObject && (graph.ancestors value).contains place

/-! ## Looking members up -/

/-- The own member of a text: its length or one of its units. -/
def textOwn? (text : String) : Key → Option Property
  | .name "length" => some (.data (.ofNat (Text.unitLength text)) .fixed)
  | .index position =>
      (Text.unitText? text position).map fun unit => .data (.string unit) ⟨false, true, false⟩
  | .name _ => none

end Graph

namespace Object

/-- The own member that an object has by what it is: the length of an array, or the
length and the units of a boxed text. -/
def intrinsic? (object : Object) (key : Key) : Option Property :=
  match object.body with
  | .items length resizable =>
      if key = .name "length" then
        some (.data (.ofNat length) ⟨resizable, false, false⟩)
      else
        none
  | .boxed (.string text) => Graph.textOwn? text key
  | _ => none

def own? (object : Object) (key : Key) : Option Property :=
  match object.intrinsic? key with
  | some property => some property
  | none => Entries.get? object.slots key

/-- The keys of the own members of an object, in reading order. -/
def keys (object : Object) : List Key :=
  let slots := (Key.arrange object.slots).map (·.1)
  match object.body with
  | .items _ _ => slots ++ [.name "length"]
  | .boxed (.string text) =>
      (List.range (Text.unitLength text)).map Key.index ++ slots ++ [.name "length"]
  | _ => slots

end Object

namespace Graph

def ownAt? (graph : Graph) (place : Nat) (key : Key) : Option Property :=
  (graph.object? place).bind (·.own? key)

def own? (graph : Graph) (value : Value) (key : Key) : Option Property :=
  match value with
  | .object place => graph.ownAt? place key
  | .string text => textOwn? text key
  | _ => none

/-- The nearest member of the ancestors of a value. -/
def inherited? (graph : Graph) (value : Value) (key : Key) : Option Property :=
  (graph.ancestors value).findSome? (graph.ownAt? · key)

/-- The member of a value: its own, else the nearest one of its ancestors. -/
def find? (graph : Graph) (value : Value) (key : Key) : Option Property :=
  match graph.own? value key with
  | some property => some property
  | none => graph.inherited? value key

def has (graph : Graph) (value : Value) (key : Key) : Bool :=
  (graph.find? value key).isSome

def ownKeys (graph : Graph) (value : Value) : List Key :=
  match value with
  | .object place => ((graph.object? place).map (·.keys)).getD []
  | .string text =>
      (List.range (Text.unitLength text)).map Key.index ++ [.name "length"]
  | _ => []

def listedKeys (graph : Graph) (value : Value) : List Key :=
  (graph.ownKeys value).filter fun key =>
    ((graph.own? value key).map Property.isEnumerable).getD false

/-! ## Kinds of values -/

def callee? (graph : Graph) (value : Value) : Option Callee :=
  match graph.objectOf? value with
  | some ⟨_, .function callee, _, _⟩ => some callee
  | _ => none

def isCallable (graph : Graph) (value : Value) : Bool :=
  (graph.callee? value).isSome

def constructs (graph : Graph) (value : Value) : Bool :=
  match graph.callee? value with
  | some (.script _ constructs) => constructs
  | some (.builtinClass _) => true
  | some (.definedClass _ _) => true
  | _ => false

/-- The kind of a value.  Classes count as functions; `null` and arrays count as objects. -/
def kind (graph : Graph) (value : Value) : Kind :=
  match value with
  | .undefined => .undefined
  | .null => .object
  | .boolean _ => .boolean
  | .number _ => .number
  | .bigint _ => .bigint
  | .string _ => .string
  | .symbol _ _ => .symbol
  | .object _ => if graph.isCallable value then .function else .object

def arrayLength? (graph : Graph) (value : Value) : Option Nat :=
  match graph.objectOf? value with
  | some ⟨_, .items length _, _, _⟩ => some length
  | _ => none

def isArray (graph : Graph) (value : Value) : Bool :=
  (graph.arrayLength? value).isSome

/-- The time of a date; the inner option is empty for an invalid date. -/
def date? (graph : Graph) (value : Value) : Option (Option Int) :=
  match graph.objectOf? value with
  | some ⟨_, .date time, _, _⟩ => some time
  | _ => none

/-- The simple value that a value is or boxes. -/
def unboxed (graph : Graph) (value : Value) : Value :=
  match graph.objectOf? value with
  | some ⟨_, .boxed content, _, _⟩ => content
  | _ => value

/-- Whether a value is a record: an object, not a function, whose parent is the one
that all records share, or that has none. -/
def isPlainRecord (graph : Graph) (value : Value) : Bool :=
  graph.kind value = .object &&
    match graph.parentOf value with
    | none => true
    | some place => place == BuiltinClass.object.sharedPlace

/-- Whether a value is the type of the arrays over some type. -/
def isArrayType (graph : Graph) (value : Value) : Bool :=
  graph.descendsFrom value BuiltinClass.arrayType.sharedPlace

def isPath (graph : Graph) (value : Value) : Bool :=
  graph.descendsFrom value BuiltinClass.path.sharedPlace

def isPredicate (graph : Graph) (value : Value) : Bool :=
  graph.descendsFrom value BuiltinClass.predicate.sharedPlace

/-- Whether a value is a date or descends from what dates share. -/
def isDate (graph : Graph) (value : Value) : Bool :=
  graph.descendsFrom value BuiltinClass.date.sharedPlace

/-! ## Declarations -/

def noDeclarations : Declarations :=
  ⟨fun _ => [], fun _ => []⟩

def declarationsAt (graph : Graph) (place : Nat) : Declarations :=
  (Entries.get? graph.declarations place).getD noDeclarations

/-- A class and the classes that it descends from, nearest first: the functions up to
the one that all functions share. -/
def lineage (graph : Graph) (owner : Value) : List Nat :=
  (owner.place?.toList ++ graph.ancestors owner).takeWhile fun place =>
    graph.isCallable (.object place) && place != BuiltinClass.function.sharedPlace

/-- The field declarations of a class and its ancestors; the nearest one of a name counts. -/
def fields (graph : Graph) (owner : Value) (scope : Scope) : List (String × FieldDeclaration) :=
  (graph.lineage owner).foldl
    (fun merged place => Entries.orElse merged ((graph.declarationsAt place).fields scope)) []

def methods (graph : Graph) (owner : Value) (scope : Scope) :
    List (String × MethodDeclaration) :=
  (graph.lineage owner).foldl
    (fun merged place => Entries.orElse merged ((graph.declarationsAt place).methods scope)) []

end Graph

end ObjectPath
