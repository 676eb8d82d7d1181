import ObjectPath.Script.Objects

/-!
Lists: arrays and whatever else has a length and elements.  A list is read element by
element, joined to a text, appended to, or mapped to a new array.
-/

namespace ObjectPath.Run

/-! ## Reading -/

def greatestLength : Nat :=
  9007199254740991

def greatestArrayLength : Nat :=
  4294967295

def statedLength (invoke : Invoker) (value : Value) : Run Nat := do
  let length ← numberOf invoke (← readWith invoke value (.name "length"))
  match length with
  | .infinity false => pure greatestLength
  | _ => pure (min (wholePart length).toNat greatestLength)

def readElements (invoke : Invoker) (value : Value) : List Nat → Run (List Value)
  | [] => pure []
  | position :: rest => do
      let element ← readWith invoke value (.ofIndex position)
      let elements ← readElements invoke value rest
      pure (element :: elements)

/-- What a value has under keys, by the texts of the keys. -/
def readEntries (invoke : Invoker) (value : Value) : List Key → Run (List (String × Value))
  | [] => pure []
  | key :: rest => do
      let content ← readWith invoke value key
      let entries ← readEntries invoke value rest
      pure ((key.text, content) :: entries)

/-- The own members of a value that listings show, in reading order. -/
def listedEntries (invoke : Invoker) (value : Value) : Run (List (String × Value)) := do
  readEntries invoke value ((← get).listedKeys value)

/-! ## Joining -/

/-- The texts of what a value has at positions, as `convert` gives them; missing elements
are empty. -/
def elementTexts (invoke : Invoker) (convert : Value → Run String) (value : Value) :
    List Nat → Run (List String)
  | [] => pure []
  | position :: rest => do
      let element ← readWith invoke value (.ofIndex position)
      let text ← if element.isMissing then pure "" else convert element
      let texts ← elementTexts invoke convert value rest
      pure (text :: texts)

def greatestTextLength : Nat :=
  536870888

def bounded (text : String) : Run String :=
  if greatestTextLength < Text.unitLength text then throw (.range .textLength) else pure text

def leaveJoining (place : Nat) : Run Unit :=
  modify fun graph => { graph with joining := graph.joining.filter (· != place) }

/-- The texts of the elements of a list with another text between them.  Within itself a
list is joined to nothing, so that a list that holds itself has a text. -/
def joinTexts (invoke : Invoker) (convert : Value → Run String) (list : Value) (length : Nat)
    (between : String) : Run String := do
  let place := list.place?.getD (← get).objects.size
  if length = 0 || (← get).joining.contains place then
    pure ""
  else
    if greatestTextLength < (length - 1) * Text.unitLength between then throw (.range .textLength)
    modify fun graph => { graph with joining := place :: graph.joining }
    -- However the joining ends, the list is not being joined any more afterwards.
    let text ← tryCatch (do
      let texts ← elementTexts invoke convert list (List.range length)
      bounded (Text.joinWith between texts))
      fun fault => do
        leaveJoining place
        throw fault
    leaveJoining place
    pure text

def joinLength (invoke : Invoker) (list : Value) : Run Nat := do
  let length ← statedLength invoke list
  if greatestArrayLength < length then throw (.use .listLength) else pure length

def joinElements (invoke : Invoker) (receiver separator : Value) : Run Value := do
  let list ← objectOf receiver
  let length ← joinLength invoke list
  let between ← if separator = .undefined then pure "," else messageText invoke separator
  pure (.string (← joinTexts invoke (messageText invoke) list length between))

def joinForReaders (invoke : Invoker) (receiver : Value) : Run Value := do
  let list ← objectOf receiver
  let length ← joinLength invoke list
  let convert (element : Value) : Run String := do
    messageText invoke (← callNamed invoke element "toLocaleString")
  pure (.string (← joinTexts invoke convert list length ","))

/-- The text of a receiver as that of a list: what its own `join` gives. -/
def listText (invoke : Invoker) (receiver : Value) : Run Value := do
  let list ← objectOf receiver
  let join ← readWith invoke list (.name "join")
  if (← get).isCallable join then
    invoke (.call join list [])
  else
    pure (.string (tagText (← get) list))

/-! ## Appending -/

/-- Assigns values to the elements of a list, one after the other, from a length on. -/
def pushFrom (invoke : Invoker) (list : Value) : Nat → List Value → Run Nat
  | length, [] => pure length
  | length, value :: rest => do
      assignStrictly invoke list (.ofIndex length) value
      pushFrom invoke list (length + 1) rest

/-- Appends values to a receiver and gives its new length. -/
def pushAll (invoke : Invoker) (receiver : Value) (values : List Value) : Run Value := do
  let list ← objectOf receiver
  let length ← statedLength invoke list
  if greatestLength < length + values.length then
    throw (.use (.pushedTooMany values.length length))
  let length ← pushFrom invoke list length values
  assignStrictly invoke list (.name "length") (.ofNat length)
  pure (.ofNat length)

/-! ## Mapping -/

/-- A new array for what a list is mapped to.  An array whose class descends from the
class of arrays is mapped to an instance of that class. -/
def mappedArray (invoke : Invoker) (list : Value) (length : Nat) : Run Value := do
  if !(← get).isArray list then
    plainArray
  else
    let owner ← readWith invoke list (.name "constructor")
    let graph ← get
    let array := Value.object BuiltinClass.array.place
    if owner = array then
      plainArray
    else if owner = .undefined then
      plainArray
    else if !owner.isObject then
      throw (.use .notSpecies)
    else if graph.descendsFrom owner BuiltinClass.array.place then
      if graph.constructs owner then
        invoke (.create owner [.ofNat length] owner)
      else
        throw (.use .notSpecies)
    else
      plainArray
where
  plainArray : Run Value :=
    if greatestArrayLength < length then throw (.range .arrayLength)
    else newOf .array (.items length true) []

/-- Puts what `transform` makes of the elements of a list at positions into an array.
Holes stay holes. -/
def mapInto {State : Type} (invoke : Invoker)
    (transform : State → Nat → Value → Run (Value × State)) (list array : Value) :
    State → List Nat → Run State
  | state, [] => pure state
  | state, position :: rest => do
      let key := Key.ofIndex position
      -- What is called may change the list, so each element is looked for anew.
      if (← get).has list key then
        let element ← readWith invoke list key
        let (value, state) ← transform state position element
        defineWith invoke array key value
        mapInto invoke transform list array state rest
      else
        mapInto invoke transform list array state rest

/-- Maps a list to a new array, with a state that is handed from element to element. -/
def mapList {State : Type} (invoke : Invoker)
    (transform : State → Nat → Value → Run (Value × State)) (state : State) (list : Value)
    (length : Nat) : Run Value := do
  let array ← mappedArray invoke list length
  let _ ← mapInto invoke transform list array state (List.range length)
  pure array

/-- A function that a list is to be taken through. -/
def callback (function : Value) : Run Unit := do
  let graph ← get
  if graph.isCallable function then pure ()
  else throw (.use (.notFunction (describeAny graph function)))

def mapReceiver (invoke : Invoker) (receiver function frame : Value) : Run Value := do
  present "Array.prototype.map" receiver
  let list ← objectOf receiver
  let length ← statedLength invoke list
  callback function
  let transform (_ : Unit) (position : Nat) (element : Value) : Run (Value × Unit) := do
    pure (← invoke (.call function frame [element, .ofNat position, list]), ())
  mapList invoke transform () list length

/-- Whether a test holds of an element of a list at one of some positions; holes are
passed over. -/
def anyElement (invoke : Invoker) (list : Value) (test : Nat → Value → Run Bool) :
    List Nat → Run Bool
  | [] => pure false
  | position :: rest => do
      let key := Key.ofIndex position
      if (← get).has list key then
        let element ← readWith invoke list key
        if ← test position element then pure true else anyElement invoke list test rest
      else
        anyElement invoke list test rest

def someOfReceiver (invoke : Invoker) (receiver function frame : Value) : Run Value := do
  present "Array.prototype.some" receiver
  let list ← objectOf receiver
  let length ← statedLength invoke list
  callback function
  let test (position : Nat) (element : Value) : Run Bool := do
    pure (← invoke (.call function frame [element, .ofNat position, list])).isTruthy
  pure (.boolean (← anyElement invoke list test (List.range length)))

/-! ## Calls with a list of arguments -/

/-- The greatest number of elements that a list of arguments can have at all. -/
def greatestListLength : Nat :=
  134217727

/-- The greatest number of arguments of a call. -/
def greatestCallLength : Nat :=
  125000

/-- The words for what a value is that was called like a function. -/
def kindWithArticle (graph : Graph) (value : Value) : String :=
  match value, graph.kind value with
  | .null, _ => "null"
  | _, .object => "an object"
  | _, kind => "a " ++ kind.name

def argumentList (invoke : Invoker) (list : Value) : Run (List Value) := do
  if list.isMissing then
    pure []
  else if !list.isObject then
    throw (.use .notList)
  else
    let length ← statedLength invoke list
    if greatestListLength < length then
      throw (.range .arrayLength)
    else if greatestCallLength < length then
      throw (.range .depth)
    else
      readElements invoke list (List.range length)

def applyReceiver (invoke : Invoker) (receiver frame list : Value) : Run Value := do
  let graph ← get
  if graph.isCallable receiver then
    invoke (.call receiver frame (← argumentList invoke list))
  else if list.isMissing then
    throw (.use (.notFunction "Reflect.apply"))
  else
    throw (.use (.appliedTo (describeAny graph receiver) (kindWithArticle graph receiver)))

/-- Calls a receiver with the arguments that follow. -/
def callReceiver (invoke : Invoker) (receiver frame : Value) (arguments : List Value) :
    Run Value := do
  if (← get).isCallable receiver then
    invoke (.call receiver frame arguments)
  else
    throw (.use (.notFunction "Reflect.apply"))

end ObjectPath.Run
