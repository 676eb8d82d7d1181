import ObjectPath.Script.Create
import ObjectPath.Script.Evaluate

/-!
Carrying out activations: calls of functions, and constructors that make instances.
`perform` ties the knot, at most `depthLimit` activations deep, so that a script that
calls itself for ever ends in a fault.
-/

namespace ObjectPath

open Run

/-! ## New instances -/

def setUpFields (invoke : Invoker) (target : Value) (arguments : List Value) :
    List FieldSetup → Run Unit
  | [] => pure ()
  | field :: rest => do
      let given := match field.position with
        | some position => arguments.getD position .undefined
        | none => .undefined
      let value ← if given == .undefined then field.initial.build invoke else pure given
      defineWith invoke target (.ofText field.name) value
      setUpFields invoke target arguments rest

/-- What the constructor of one class does to a new instance. -/
def setUp (invoke : Invoker) (target : Value) (arguments : List Value) (setup : Setup) :
    Run Unit := do
  match setup.failure with
  | some statement =>
      let _ ← statement.execute invoke ⟨target, arguments⟩
  | none => pure ()
  match setup.requirement with
  | some requirement =>
      let given := arguments.getD requirement.position .undefined
      if ((← get).kind given).name == requirement.kindName then
        pure ()
      else
        throw (.use (.requirement requirement.message))
  | none => pure ()
  setUpFields invoke target arguments setup.fields

def createParent (invoke : Invoker) (callee : Value) (arguments : List Value) (owner : Value) :
    Run Value := do
  match (← get).parentOf callee with
  | some place => invoke (.create (.object place) arguments owner)
  | none => throw (.use (.notConstructible "Super constructor null of anonymous class"))

/-- Runs a constructor to make an instance of a class. -/
def createInstance (invoke : Invoker) (callee : Value) (arguments : List Value) (owner : Value) :
    Run Value := do
  match (← get).callee? callee with
  | some (.builtinClass builtin) => createBuiltin invoke builtin arguments owner
  | some (.definedClass descends setup) => do
      let value ← if descends then createParent invoke callee arguments owner
        else newInstanceOf invoke owner .object .plain []
      setUp invoke value arguments setup
      pure value
  | some (.script body true) => do
      let value ← newInstanceOf invoke owner .object .plain []
      let result ← runBody invoke ⟨value, arguments⟩ body
      -- A constructor that returns an object gives this object in place of the new one.
      pure (if result.isObject then result else value)
  | _ => throw (.use (.notConstructible "type"))

/-! ## Activations -/

def callFunction (invoke : Invoker) (callee receiver : Value) (arguments : List Value) :
    Run Value := do
  match (← get).callee? callee with
  | some (.script body _) => runBody invoke ⟨receiver, arguments⟩ body
  | some (.builtin function) => callBuiltin invoke function receiver arguments
  | some (.builtinClass builtin) => callClass invoke builtin arguments
  | some (.definedClass _ _) => throw (.use (.classCall none))
  | none => throw (.use (.notFunction "fn"))

/-- Carries out one activation, with an invoker for those that it asks for. -/
def Activation.run (invoke : Invoker) : Activation → Run Value
  | .call callee receiver arguments => callFunction invoke callee receiver arguments
  | .create callee arguments owner => createInstance invoke callee arguments owner

/-- The greatest number of activations inside one another. -/
def depthLimit : Nat :=
  4000

/-- Carries out activations up to a depth. -/
def performWithin : Nat → Invoker
  | 0, _ => throw (.range .depth)
  | depth + 1, activation => activation.run (performWithin depth)

def perform : Invoker :=
  performWithin depthLimit

namespace Run

def read (value : Value) (name : String) : Run Value :=
  readWith perform value (.ofText name)

/-- Reads a member of a value that must not be missing. -/
def step (value : Value) (name : String) : Run Value :=
  stepWith perform value name

/-- Reads a member of a value as an object: a getter is run on the value made an object. -/
def readAsObject (value : Value) (name : String) : Run Value := do
  match (← get).find? value (.ofText name) with
  | some (.accessor (some getter) _ _ _) =>
      perform (.call (.object getter) (← toObject value) [])
  | found => receive perform value found

def call (callee receiver : Value) (arguments : List Value) : Run Value :=
  perform (.call callee receiver arguments)

def define (target : Value) (key : Key) (value : Value) : Run Unit :=
  defineWith perform target key value

def create (owner : Value) (arguments : List Value) : Run Value :=
  perform (.create owner arguments owner)

def build (template : Template) : Run Value :=
  template.build perform

end Run

end ObjectPath
