import ObjectPath.Script.Perform

/-!
The types of values and what types are called.  A type is a class or the type of the
arrays over some type; the class of a value is what it finds as its `constructor`.
-/

namespace ObjectPath

/-- The open type: any name may be a member of its instances. -/
def openType : Value :=
  .object BuiltinClass.object.place

namespace Run

/-! ## Names -/

/-- The name of a type; a class may give anything as its name. -/
def typeName (type : Value) : Run Value :=
  typeNameWith perform type

def typeText (type : Value) : Run String :=
  typeTextWith perform type

/-! ## Classes -/

/-- Whether a value is a class: a function with an object for its instances to share. -/
def isConstructor (value : Value) : Run Bool := do
  if (← get).isCallable value then
    let shared ← read value "prototype"
    pure (shared ≠ .undefined)
  else
    pure false

def isType (value : Value) : Run Bool := do
  if (← get).isArrayType value then pure true else isConstructor value

def typeOf (value : Value) : Run Value := do
  if (← get).isArray value then
    pure (.object BuiltinClass.array.place)
  else
    let owner ← readAsObject value "constructor"
    if ← isConstructor owner then pure owner else pure openType

/-! ## Types of arrays -/

/-- The type of the elements of an array type; the elements of any other type are of the
open type. -/
def componentOf (type : Value) : Run Value := do
  if (← get).isArrayType type then read type "componentType" else pure openType

/-- Takes at most `limit` array dimensions off a type. -/
def elementWithin : Nat → Value → Run Value
  | 0, type => pure type
  | limit + 1, type => do
      if (← get).isArrayType type then
        elementWithin limit (← read type "componentType")
      else
        pure type

def elementType (type : Value) : Run Value := do
  elementWithin (← get).objects.size type

/-- The array type to ask a factory for when a slot of a type is to hold an array. -/
def requestedArray (type : Value) : Run Value :=
  if type = openType then arrayOf openType else pure type

end Run

end ObjectPath
