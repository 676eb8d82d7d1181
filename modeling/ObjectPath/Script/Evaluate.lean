import ObjectPath.Script.Builtin

/-!
Running scripts: building the values of templates, evaluating expressions and executing
statements.  Every step is given the invoker that carries out the calls and creations
it asks for.
-/

namespace ObjectPath

open Run

/-! ## Templates -/

mutual

def Template.build (invoke : Invoker) : Template → Run Value
  | .undefined => pure .undefined
  | .null => pure .null
  | .boolean value => pure (.boolean value)
  | .number value => pure (.number value)
  | .bigint value => pure (.bigint value)
  | .string value => pure (.string value)
  | .symbol description => newSymbol description
  | .date milliseconds =>
      let time := match milliseconds with
        | some (.finite value) => Calendar.clip (value.toRat.num.tdiv value.toRat.den)
        | some .negativeZero => some 0
        | _ => none
      newOf .date (.date time) []
  | .hole => pure .undefined
  | .array elements => do newArray (← buildElements invoke elements)
  | .record entries => do newRecord (← buildSlots invoke entries)
  | .bareRecord entries => do
      allocate ⟨none, .plain, dataSlots (← buildSlots invoke entries), true⟩
  | .frozen content => do
      let value ← content.build invoke
      modify (·.freeze value)
      pure value
  | .create className arguments slots => do
      let values ← buildAll invoke arguments
      match Entries.get? (← get).classNames className with
      | none => pure .undefined
      | some owner =>
          let value ← invoke (.create owner values owner)
          defineSlots invoke value slots
          pure value
  | .function name body => newFunction name body
  | .type name => do pure ((← typeNamed? name).getD .undefined)
  | .variable name => do
      pure ((Entries.get? (← get).valueNames name).getD .undefined)

def buildElements (invoke : Invoker) : List Template → Run (List (Option Value))
  | [] => pure []
  | .hole :: rest => do
      let values ← buildElements invoke rest
      pure (none :: values)
  | template :: rest => do
      let value ← template.build invoke
      let values ← buildElements invoke rest
      pure (some value :: values)

def buildAll (invoke : Invoker) : List Template → Run (List Value)
  | [] => pure []
  | template :: rest => do
      let value ← template.build invoke
      let values ← buildAll invoke rest
      pure (value :: values)

/-- Builds the slots of a record; a repeated key keeps its place and takes the last value. -/
def buildSlots (invoke : Invoker) (entries : List (String × Template)) :
    Run (List (Key × Value)) := do
  let pairs ← buildPairs invoke entries
  pure (Entries.ofList pairs)

def buildPairs (invoke : Invoker) : List (String × Template) → Run (List (Key × Value))
  | [] => pure []
  | (name, template) :: rest => do
      let value ← template.build invoke
      let pairs ← buildPairs invoke rest
      pure ((Key.ofText name, value) :: pairs)

def defineSlots (invoke : Invoker) (target : Value) : List (String × Template) → Run Unit
  | [] => pure ()
  | (name, template) :: rest => do
      let value ← template.build invoke
      defineWith invoke target (.ofText name) value
      defineSlots invoke target rest

end

/-! ## Expressions -/

/-- What a running body can refer to. -/
structure Frame where
  receiver : Value
  arguments : List Value

namespace Frame

/-- An argument; undefined if it was not passed. -/
def argument (frame : Frame) (position : Nat) : Value :=
  frame.arguments.getD position .undefined

end Frame

/-- Reads a member of an array; undefined for anything else. -/
def readOnArray (invoke : Invoker) (owner : Value) (key : Key) : Run Value := do
  if (← get).isArray owner then readWith invoke owner key else pure .undefined

/-- Whether an array has a value at one of some positions. -/
def containsFrom (invoke : Invoker) (owner wanted : Value) : List Nat → Run Bool
  | [] => pure false
  | position :: rest => do
      let element ← readWith invoke owner (.ofIndex position)
      if element.sameOrNan wanted then pure true else containsFrom invoke owner wanted rest

def partText (value : Value) : String :=
  match value with
  | .symbol _ _ => "[object]"
  | _ => value.simpleText?.getD "[object]"

mutual

def Expression.evaluate (invoke : Invoker) (frame : Frame) : Expression → Run Value
  | .receiver => pure frame.receiver
  | .argument position => pure (frame.argument position)
  | .arguments => newArray (frame.arguments.map some)
  | .constant content => content.build invoke
  | .slot owner name => do
      let value ← owner.evaluate invoke frame
      if value.isMissing then pure .undefined else readWith invoke value (.ofText name)
  | .element owner position => do
      let value ← owner.evaluate invoke frame
      readOnArray invoke value (.ofIndex position)
  | .elementAtArgument owner argument => do
      let value ← owner.evaluate invoke frame
      match frame.argument argument with
      | .number number => readOnArray invoke value (.ofText number.text)
      | _ => pure .undefined
  | .firstPresent first second => do
      let value ← first.evaluate invoke frame
      if value.isMissing then second.evaluate invoke frame else pure value
  | .identical left right => do
      let first ← left.evaluate invoke frame
      let second ← right.evaluate invoke frame
      pure (.boolean (first.same second))
  | .text parts => do
      let values ← evaluateAll invoke frame parts
      pure (.string (← bounded (Text.concat (values.map partText))))
  | .lowerCase content => do
      match ← content.evaluate invoke frame with
      | .string value => pure (.string (Text.lowerCase value))
      | _ => pure .undefined
  | .contains owner item => do
      let value ← owner.evaluate invoke frame
      let wanted ← item.evaluate invoke frame
      let length := ((← get).arrayLength? value).getD 0
      pure (.boolean (← containsFrom invoke value wanted (List.range length)))
  | .function name body => newFunction name body

def evaluateAll (invoke : Invoker) (frame : Frame) : List Expression → Run (List Value)
  | [] => pure []
  | expression :: rest => do
      let value ← expression.evaluate invoke frame
      let values ← evaluateAll invoke frame rest
      pure (value :: values)

end

/-! ## Statements -/

/-- One more than a value: numbers are added to, texts get a digit appended. -/
def increase (invoke : Invoker) (value : Value) : Run Value := do
  match ← simplify invoke .either value with
  | .string text => pure (.string (← bounded (text ++ "1")))
  | .bigint _ => throw (.use .mixedArithmetic)
  | simple =>
      match simple.simpleNumber with
      | .ok number => pure (.number (number.add (.ofNat 1)))
      | .error reason => throw (.use reason)

/-- Runs one statement; a `return` gives a result. -/
def Statement.execute (invoke : Invoker) (frame : Frame) : Statement → Run (Option Value)
  | .return result => do
      let value ← result.evaluate invoke frame
      pure (some value)
  | .assign name content => do
      let value ← content.evaluate invoke frame
      assignStrictly invoke frame.receiver (.ofText name) value
      pure none
  | .assignOn owner name content => do
      let target ← owner.evaluate invoke frame
      let value ← content.evaluate invoke frame
      assignStrictly invoke target (.ofText name) value
      pure none
  | .increment name => do
      match frame.receiver with
      | .undefined => throw (.use (.readOfMissing name "undefined"))
      | .null => throw (.use (.readOfMissing name "null"))
      | receiver =>
          let value ← readWith invoke receiver (.ofText name)
          let next ← increase invoke value
          assignStrictly invoke receiver (.ofText name) next
          pure none
  | .raise message => throw (.raised message)
  | .raiseValue content => do
      let value ← content.build invoke
      throw (.raisedValue value)

/-- Runs statements up to the first `return`; the result is undefined without one. -/
def runBody (invoke : Invoker) (frame : Frame) : List Statement → Run Value
  | [] => pure .undefined
  | statement :: rest => do
      match ← statement.execute invoke frame with
      | some value => pure value
      | none => runBody invoke frame rest

end ObjectPath
