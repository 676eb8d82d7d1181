import ObjectPath.Script.Conversion

/-!
Assigning and defining members.  An assignment through a path says whether the member
takes the value; one in a script fails if it does not.  A definition replaces what can be
defined anew.
-/

namespace ObjectPath.Run

/-- The length of an array that a value names, which must be a count.  The value is
converted twice, once for the count and once for the number that it must equal. -/
def lengthOf (invoke : Invoker) (value : Value) : Run Nat := do
  let _ ← numberOf invoke value
  let number ← numberOf invoke value
  match number.toInt? with
  | some length =>
      if 0 ≤ length && length < 4294967296 then pure length.toNat else throw (.range .arrayLength)
  | none => throw (.range .arrayLength)

/-- Assigns a member of a value, and says whether the member takes it. -/
def assignWith (invoke : Invoker) (target : Value) (key : Key) (value : Value) : Run Bool := do
  match (← get).placement target key with
  | .slot =>
      modify (·.store target key value)
      pure true
  | .length =>
      let length ← lengthOf invoke value
      modify (·.modifyTarget target (·.resize length))
      pure true
  | .setter place =>
      let _ ← invoke (.call (.object place) target [value])
      pure true
  | .readOnly => pure false
  | .noSetter => pure false
  | .notExtensible => pure false

/-! ## Definition -/

/-- Defines an own slot of an object.  The length of an array must be one, and even then
it cannot be defined anew. -/
def defineWith (invoke : Invoker) (target : Value) (key : Key) (value : Value) : Run Unit := do
  if (← get).isLength target key then
    let _ ← lengthOf invoke value
    throw (.use (.redefined key.text))
  else
    defineMember target key (.data value .plain)

/-! ## Descriptions for messages -/

/-- The word for what an object is, as its built-in text gives it. -/
def bodyWord : Body → String
  | .items _ _ => "Array"
  | .date _ => "Date"
  | .boxed (.boolean _) => "Boolean"
  | .boxed (.number _) => "Number"
  | .boxed (.string _) => "String"
  | .boxed (.bigint _) => "BigInt"
  | .boxed (.symbol _ _) => "Symbol"
  | .function _ => "Function"
  | _ => "Object"

def wordOf (graph : Graph) (value : Value) : String :=
  ((graph.objectOf? value).map fun object => bodyWord object.body).getD "Object"

/-- The name that messages know a function by: that of a built-in one.  Other functions
get their names only after they were made. -/
def madeName (graph : Graph) (function : Value) : String :=
  match graph.callee? function with
  | some (.builtinClass owner) => owner.name
  | some (.builtin builtin) => builtin.name
  | _ => ""

def functionText (graph : Graph) (function : Value) : Option String :=
  match graph.callee? function with
  | some (.definedClass _ _) => some "class \x7b \x7d"
  | some (.script _ _) => some "() \x7b \x7d"
  | some _ => some ("function " ++ madeName graph function ++ "() \x7b [native code] \x7d")
  | none => none

/-- The name of the class that an object finds as its `constructor`. -/
def constructorName (graph : Graph) (value : Value) : String :=
  match graph.find? value (.name "constructor") with
  | some (.data owner _) =>
      let name := madeName graph owner
      if name = "" then wordOf graph value else name
  | _ => wordOf graph value

/-- How messages describe an object: by the class that it finds as its `constructor` if
its text is the built-in one. -/
def describe (graph : Graph) (value : Value) : String :=
  match functionText graph value with
  | some text => text
  | none =>
      let plain := "[object " ++ wordOf graph value ++ "]"
      match graph.find? value (.name "toString"), graph.find? value (.name "constructor") with
      | some (.data text _), some (.data owner _) =>
          let name := madeName graph owner
          if text = .object (BuiltinFunction.textOf .object).place && name != "" then
            "#<" ++ name ++ ">"
          else
            plain
      | _, _ => plain

def describeAny (graph : Graph) (value : Value) : String :=
  value.simpleText?.getD (describe graph value)

/-- How messages name a value that was called and is no function. -/
def calledText (graph : Graph) (value : Value) : String :=
  let kind := (graph.kind value).name
  match value with
  | .string text => kind ++ " \"" ++ text ++ "\""
  | .null => kind ++ " null"
  | .boolean _ => kind ++ " " ++ describeAny graph value
  | .number number => kind ++ " " ++ number.text
  | _ => kind

/-! ## Strict assignment -/

def assignObject (invoke : Invoker) (target : Value) (key : Key) (value : Value) : Run Unit := do
  let graph ← get
  let placement := graph.placement target key
  if ← assignWith invoke target key value then
    pure ()
  else
    match placement with
    | .noSetter => throw (.use (.noSetter key.text (describe graph target)))
    | .notExtensible => throw (.use (.notExtensible key.text))
    | _ =>
        throw (.use (.readOnlyOf key.text
          ((graph.kind target).name ++ " '" ++ describe graph target ++ "'")))

/-- Assigns a member of a simple value, which takes none but may have a setter. -/
def assignSimple (invoke : Invoker) (target : Value) (key : Key) (value : Value) : Run Unit := do
  let graph ← get
  let kindName := (graph.kind target).name
  let text := target.simpleText?.getD ""
  match graph.placement target key with
  | .setter place =>
      let _ ← invoke (.call (.object place) target [value])
      pure ()
  | .readOnly => throw (.use (.readOnlyOf key.text (kindName ++ " '" ++ text ++ "'")))
  | .noSetter => throw (.use (.noSetter key.text text))
  | _ => throw (.use (.assignOnSimple key.text kindName text))

def assignStrictly (invoke : Invoker) (target : Value) (key : Key) (value : Value) : Run Unit := do
  match target with
  | .undefined => throw (.use (.assignToMissing key.text "undefined"))
  | .null => throw (.use (.assignToMissing key.text "null"))
  | .object _ => assignObject invoke target key value
  | _ => assignSimple invoke target key value

end ObjectPath.Run
