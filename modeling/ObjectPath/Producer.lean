import ObjectPath.Format
import ObjectPath.Schema

/-!
Making values of a type.  A constructor that fails, and a producer that fails,
are reported as a failure to make an instance of the type, with the fault behind it.
-/

namespace ObjectPath

/-- The argument map of an evaluation: values by argument key. -/
abbrev ArgumentMap :=
  List (String × Value)

namespace Run

/-! ## Failures -/

/-- The failure to make an instance of a type.  The texts of the name and of a raised
value are part of the message, so finding them can fail in its own way. -/
def instantiationFault (typeName : Value) (cause : Fault) : Run Fault := do
  let shown ← messageText perform typeName
  match cause with
  -- A missing cause is left out of the message; any other value is part of it.
  | .raisedValue .undefined => pure (.instantiation typeName shown none none)
  | .raisedValue value => do
      let detail ← textOf perform value
      pure (.instantiation typeName shown (some detail) (some cause))
  | _ => pure (.instantiation typeName shown (some cause.message) (some cause))

/-- Runs a computation and reports its fault as a failure to make an instance. -/
def attributing (type : Value) (computation : Run Value) : Run Value :=
  tryCatch computation fun cause => do
    throw (← instantiationFault (← Run.typeName type) cause)

/-! ## Making values -/

def newInstance (owner : Value) (arguments : List Value) : Run Value :=
  attributing owner (create owner arguments)

def argumentRecord : Option ArgumentMap → Run Value
  | none => pure .undefined
  | some entries =>
      newRecord (Entries.ofList (entries.map fun entry => (Key.ofText entry.1, entry.2)))

/-- Whether a key is in an argument map; without a map no key is. -/
def hasArgument (arguments : Option ArgumentMap) (key : String) : Bool :=
  (arguments.map (Entries.has · key)).getD false

/-- What a record with the entries of an argument map gives for a key. -/
def argumentMember (arguments : Option ArgumentMap) (key : String) : Run Value := do
  match arguments with
  | none => pure .undefined
  | some entries =>
      match Entries.get? entries key with
      | some value => pure value
      | none => do read (← argumentRecord (some entries)) key

end Run

def Producer.run (arguments : Option ArgumentMap) : Producer → Run Value
  | .constant content => Run.build content
  | .argumentOr key otherwise =>
      match arguments.bind (Entries.get? · key) with
      | some value => pure value
      | none => Run.build otherwise
  | .createFrom className key => do
      let given ← Run.argumentMember arguments key
      match Entries.get? (← get).classNames className with
      | some owner => Run.create owner [given]
      | none => pure .undefined
  | .raise message => throw (.raised message)
  | .raiseValue content => do
      throw (.raisedValue (← Run.build content))
  | .failCreating typeName => throw (.instantiation (.string typeName) typeName none none)

end ObjectPath
