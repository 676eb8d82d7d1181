import ObjectPath.Text.Quoted
import ObjectPath.Typing

/-!
Values written as JSON.  A value may say by a `toJSON` of its own what to write in its
place.  Functions, symbols and undefined have no JSON: records leave them out and lists
write `null` for them.  A value that holds itself cannot be written.
-/

namespace ObjectPath.Json

/-! ## Values that hold themselves -/

/-- The steps into a value that is being written, outermost first: the words for the
place of a value, and the value. -/
abbrev Trail :=
  List (String × Value)

def stepLine (graph : Graph) (step : String × Value) : String :=
  "    |     " ++ step.1 ++ " -> object with constructor '" ++
    Run.constructorName graph step.2 ++ "'"

/-- The account of a circle: where it starts, at most three steps, and the step that
closes it. -/
def circleLines (graph : Graph) (start : Value) (steps : Trail) (closing : String) :
    List String :=
  let shown := if 3 < steps.length then
      (steps.take 2).map (stepLine graph) ++
        "    |     ..." :: (steps.drop (steps.length - 1)).map (stepLine graph)
    else
      steps.map (stepLine graph)
  ("    --> starting at object with constructor '" ++ Run.constructorName graph start ++ "'") ::
    shown ++ ["    --- " ++ closing ++ " closes the circle"]

/-- A value must not be among those that it stands in. -/
def refuseCircle (trail : Trail) (words : String) (value : Value) : Run Unit := do
  match trail.dropWhile (·.2 != value) with
  | [] => pure ()
  | start :: steps =>
      throw (.use (.circularData (circleLines (← get) start.2 steps words)))

/-! ## Writing -/

/-- The value to write in the place of a value, by its own account. -/
def replacement (key : String) (value : Value) : Run Value := do
  let isAsked := match value with
    | .object _ => true
    | .bigint _ => true
    | _ => false
  if isAsked then
    let convert ← Run.read value "toJSON"
    if (← get).isCallable convert then Run.call convert value [.string key] else pure value
  else
    pure value

/-- A value without the object around it, except that symbols keep theirs. -/
def unwrapped (value : Value) : Run Value := do
  if value.isObject then
    match (← get).unboxed value with
    | .number _ => do pure (.number (← Run.numberOf perform value))
    | .string _ => do pure (.string (← Run.textOf perform value))
    | .symbol _ _ => pure value
    | content => pure content
  else
    pure value

def simple? : Value → Except UseFault (Option String)
  | .undefined => .ok none
  | .null => .ok (some "null")
  | .boolean true => .ok (some "true")
  | .boolean false => .ok (some "false")
  | .number .nan => .ok (some "null")
  | .number (.infinity _) => .ok (some "null")
  | .number value => .ok (some value.text)
  | .bigint _ => .error .bigintInData
  | .string value => .ok (some (Text.quote value))
  | .symbol _ _ => .ok none
  | .object _ => .ok none

def writeElements (write : String → String → Value → Run (Option String)) (array : Value) :
    List Nat → Run (List String)
  | [] => pure []
  | position :: rest => do
      let key := Nat.repr position
      let text ← write ("index " ++ key) key (← Run.read array key)
      let texts ← writeElements write array rest
      pure (text.getD "null" :: texts)

def writeMembers (write : String → String → Value → Run (Option String)) (record : Value) :
    List Key → Run (List String)
  | [] => pure []
  | key :: rest => do
      let name := key.text
      let text ← write ("property '" ++ name ++ "'") name (← Run.read record name)
      let texts ← writeMembers write record rest
      match text with
      | some text => pure ((Text.quote name ++ ":" ++ text) :: texts)
      | none => pure texts

/-- The JSON of a value inside others.  Each level goes into an object. -/
def writeWithin : Nat → Trail → String → String → Value → Run (Option String)
  | 0, _, _, _, _ => throw (.range .depth)
  | levels + 1, trail, words, key, value => do
      let value ← unwrapped (← replacement key value)
      if value.isObject && !(← get).isCallable value then
        refuseCircle trail words value
        let write := writeWithin levels (trail ++ [(words, value)])
        match (← get).arrayLength? value with
        | some length =>
            let texts ← writeElements write value (List.range length)
            pure (some ("[" ++ ",".intercalate texts ++ "]"))
        | none =>
            let texts ← writeMembers write value ((← get).listedKeys value)
            pure (some ("\x7b" ++ ",".intercalate texts ++ "\x7d"))
      else
        match simple? value with
        | .ok text => pure text
        | .error reason => throw (.use reason)

/-- As many levels as a graph has objects are enough for all of them; getters may make
some more. -/
def levels (graph : Graph) : Nat :=
  graph.objects.size + depthLimit

def text? (value : Value) : Run (Option String) := do
  writeWithin (levels (← get)) [] "" "" value

end ObjectPath.Json
