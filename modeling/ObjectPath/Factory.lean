import ObjectPath.Member

/-!
Instance factories supply the values that are filled into empty intermediate
slots.  A factory is asked for a type and told the arguments of the evaluation;
an empty answer means that it has no value to give.
-/

namespace ObjectPath

/-- A factory as an evaluation uses it. -/
abbrev Factory :=
  Value → Option ArgumentMap → Run Value

/-- Asks a factory for a value of a type.  Any fault is reported as a failure to make
an instance of that type, unless it already is such a failure. -/
def produce (factory : Factory) (type : Value) (arguments : Option ArgumentMap) : Run Value :=
  tryCatch (factory type arguments) fun cause => do
    match cause with
    | .instantiation .. => throw cause
    | _ => throw (← Run.instantiationFault (← Run.typeName type) cause)

/-! ## Factories by producers -/

/-- A factory that asks the producer entered for a type, and makes the value by default
if there is none: an empty array, or an instance made by the resolver. -/
structure ProducerTable where
  producers : List (Value × Producer)
  resolver : Resolver

namespace ProducerTable

def bare (resolver : Resolver) : ProducerTable :=
  ⟨[], resolver⟩

def put (table : ProducerTable) (type : Value) (producer : Producer) : ProducerTable :=
  { table with producers := Entries.put table.producers type producer }

/-- Returns a type to the default. -/
def remove (table : ProducerTable) (type : Value) : ProducerTable :=
  { table with producers := Entries.erase table.producers type }

def has (table : ProducerTable) (type : Value) : Bool :=
  Entries.has table.producers type

/-- A table whose producers give the zero values of numbers, truth values and texts. -/
def standard (resolver : Resolver) : ProducerTable :=
  (((bare resolver).put (.object BuiltinClass.number.place) (.constant (.number (.ofNat 0)))).put
    (.object BuiltinClass.boolean.place) (.constant (.boolean false))).put
    (.object BuiltinClass.string.place) (.constant (.string ""))

def supply (table : ProducerTable) : Factory := fun type arguments => do
  match Entries.get? table.producers type with
  | some producer => producer.run arguments
  | none =>
      if (← get).isArrayType type then Run.newArray [] else table.resolver.create type []

end ProducerTable

end ObjectPath
