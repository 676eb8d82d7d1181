import ObjectPath.Script.Dates
import ObjectPath.Script.Lists
import ObjectPath.Script.Numerals
import ObjectPath.Script.Paths
import ObjectPath.Text.Blank
import ObjectPath.Text.LetterCase

/-!
The built-in functions, each a run on its receiver and arguments.
-/

namespace ObjectPath.Run

/-! ## Texts and simple values -/

/-- The built-in text of a value, as a member of one of the built-in classes. -/
def builtinText (invoke : Invoker) (owner : BuiltinClass) (receiver base : Value) :
    Run Value := do
  match owner with
  | .array => listText invoke receiver
  | .date => dateText "toString" Calendar.longText receiver
  | .function => do
      match functionText (← get) receiver with
      | some text => pure (.string text)
      | none => throw (.use (.wrongReceiver "Function.prototype.toString" "Function"))
  | .number => baseReceiver invoke .number receiver base
  | .bigint => baseReceiver invoke .bigint receiver base
  | .path => stepWith invoke receiver "source"
  | .predicate => predicateText invoke receiver
  | .fieldNode => stepWith invoke receiver "text"
  | .string | .boolean | .symbol => do
      let content ← simpleReceiver owner "toString" receiver
      pure (.string (content.simpleText?.getD ""))
  | _ => pure (.string (tagText (← get) receiver))

def builtinLocalText (invoke : Invoker) (owner : BuiltinClass) (receiver : Value) :
    Run Value := do
  match owner with
  | .array => joinForReaders invoke receiver
  | .date => dateText "toLocaleString" Calendar.readerText receiver
  | .number => groupedReceiver .number receiver
  | .bigint => groupedReceiver .bigint receiver
  | _ => do
      present "Object.prototype.toLocaleString" receiver
      callNamed invoke receiver "toString"

/-- The simple value of a receiver, as a member of one of the built-in classes. -/
def builtinValue (owner : BuiltinClass) (receiver : Value) : Run Value := do
  match owner with
  | .date => timeNumber receiver
  | .object => objectOf receiver
  | _ => simpleReceiver owner "valueOf" receiver

def changedText (invoke : Invoker) (words : String) (change : String → String)
    (receiver : Value) : Run Value := do
  present words receiver
  pure (.string (change (← messageText invoke receiver)))

/-! ## Calls -/

def callBuiltin (invoke : Invoker) (function : BuiltinFunction) (receiver : Value)
    (arguments : List Value) : Run Value := do
  let first := arguments.getD 0 .undefined
  let second := arguments.getD 1 .undefined
  match function with
  | .textOf owner => builtinText invoke owner receiver first
  | .localTextOf owner => builtinLocalText invoke owner receiver
  | .valueOf owner => builtinValue owner receiver
  | .hasOwnProperty => ownPasses invoke receiver first fun _ => true
  | .propertyIsEnumerable => ownPasses invoke receiver first Property.isEnumerable
  | .isPrototypeOf => isAncestor receiver first
  | .getParent => parentValue receiver
  | .setParent => changeParent receiver first
  | .defineGetter => defineAccessor invoke true receiver first second
  | .defineSetter => defineAccessor invoke false receiver first second
  | .lookupGetter => lookUpAccessor invoke true receiver first
  | .lookupSetter => lookUpAccessor invoke false receiver first
  | .call => callReceiver invoke receiver first arguments.tail
  | .apply => applyReceiver invoke receiver first second
  | .join => joinElements invoke receiver first
  | .push => pushAll invoke receiver arguments
  | .map => mapReceiver invoke receiver first second
  | .someElement => someOfReceiver invoke receiver first second
  | .toUpperCase => changedText invoke "String.prototype.toUpperCase" Text.upperCase receiver
  | .toLowerCase => changedText invoke "String.prototype.toLowerCase" Text.lowerCase receiver
  | .trim => changedText invoke "String.prototype.trim" Text.trim receiver
  | .toFixed => fixedReceiver invoke receiver first
  | .getTime => timeNumber receiver
  | .toISOString => isoText receiver
  | .toJSON => dateInData invoke receiver
  | .arrayTypeName => do
      let component ← stepWith invoke receiver "componentType"
      pure (.string ((← typeTextWith invoke component) ++ "[]"))
  | .pathPart part => partOf invoke part receiver
  | .equalsOf owner => equalsOther invoke owner receiver first

end ObjectPath.Run
