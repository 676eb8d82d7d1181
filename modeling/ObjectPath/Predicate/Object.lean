import ObjectPath.Graph.Standard
import ObjectPath.Path.Object
import ObjectPath.Predicate

/-!
Predicates as values: objects of the graph with their paths, their test and their default
value in slots.
-/

namespace ObjectPath.Session

/-- A test as a value, which cannot be changed. -/
def testValue (test : Test) : Session Value :=
  if test.serial = Test.undefined.serial then
    pure (.object BuiltinConstant.noTest.place)
  else
    productValue (.test test.serial) do
      onGraph do
        let function ← Run.newFunction "" []
        let value ← Run.newOf .object .plain
          [plainSlot "kind" (.string test.kind.name), plainSlot "name" (.string test.name),
            plainSlot "test" function]
        modify (·.freeze value)
        pure value

def sideValue : Option Path → Session Value
  | none => pure .null
  | some path => pathValue path

def predicateValue (predicate : Predicate) : Session Value :=
  if predicate.same .acceptAll then
    pure (.object BuiltinConstant.acceptAll.place)
  else if predicate.same .denyAll then
    pure (.object BuiltinConstant.denyAll.place)
  else
    productValue (.predicate predicate.serial) do
      let whenPath ← sideValue predicate.whenPath
      let test ← testValue predicate.test
      let thanPath ← sideValue predicate.thanPath
      onGraph (Run.newOf .predicate .plain
        (predicateSlots whenPath test thanPath predicate.defaultValue))

end ObjectPath.Session
