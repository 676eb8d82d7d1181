import ObjectPath.Class.Declare

/-!
Argument checks.  Declared parameters require one argument per schema, and every
schema must accept its argument; undeclared parameters accept anything.
-/

namespace ObjectPath

/-! ## One schema -/

/-- What a schema says about a value. -/
inductive Verdict
  | accepted (value : Value)
  | rejected (issues : List String)
  | deferred

/-- The kind of a value as schemas name it: `null` and arrays are kinds of their own. -/
def Graph.schemaKind (graph : Graph) (value : Value) : Kind :=
  match value with
  | .null => .null
  | _ => if graph.isArray value then .array else graph.kind value

def integerText? (text : String) : Option Number :=
  let digits := match text.toList with
    | '-' :: rest => rest
    | characters => characters
  if Text.isDigitList digits then some (.ofText text) else none

/-! ## Schemas by their own account -/

def issueMessage (issue : Value) : Run String := do
  Run.messageText perform (← Run.step issue "message")

def issueMessages : List Value → Run (List String)
  | [] => pure []
  | issue :: rest => do
      let message ← issueMessage issue
      let messages ← issueMessages rest
      pure (message :: messages)

/-- The items of a list of issues: the elements of an array or the characters of a text. -/
def issueItems (issues : Value) : Run (List Value) := do
  let graph ← get
  match graph.arrayLength? issues, graph.unboxed issues with
  | some length, _ => Run.readElements perform issues (List.range length)
  | none, .string text => pure ((Text.characters text.toList).map (Value.string ∘ String.ofList))
  | none, _ => throw (.use (.notIterable "result.issues"))

/-- Asks a schema that says by its own function what it accepts. -/
def askSchema (schema value : Value) : Run Verdict := do
  let answers ← Run.step schema Run.schemaSlot
  let result ← Run.callMember perform answers "validate" "schema.~standard.validate" [value]
  let issues ← Run.step result "issues"
  if issues.isTruthy then
    let items ← issueItems (← Run.step result "issues")
    pure (.rejected (← issueMessages items))
  else
    pure (.accepted (← Run.step result "value"))

/-! ## Verdicts -/

namespace Schema

def isInstance (value owner : Value) : Run Bool := do
  match ← Run.read owner "prototype" with
  | .object place => do pure ((← get).descendsFrom value place)
  | _ => pure false

def validate (value : Value) : Schema → Run Verdict
  | .ofKind kind => do
      let received := (← get).schemaKind value
      if received = kind then
        pure (.accepted value)
      else
        pure (.rejected ["Expected " ++ kind.name ++ ", received " ++ received.name])
  | .anything => pure (.accepted value)
  | .upperCase => do
      match value with
      | .string text => pure (.accepted (.string (Text.upperCase text)))
      | _ =>
          let received := (← get).schemaKind value
          pure (.rejected ["Expected string, received " ++ received.name])
  | .integerText =>
      match value with
      | .string text =>
          match integerText? text with
          | some number => pure (.accepted (.number number))
          | none => pure (.rejected ["Not an integer"])
      | _ => pure (.rejected ["Not an integer"])
  | .rejectSilently => pure (.rejected [])
  | .deferred => pure .deferred
  | .nullable content =>
      match value with
      | .null => pure (.accepted .null)
      | _ => content.validate value
  | .instanceOf className => do
      let isHeld ← match Entries.get? (← get).classNames className with
        | some owner => isInstance value owner
        | none => pure false
      if isHeld then
        pure (.accepted value)
      else
        pure (.rejected ["Input not instance of " ++ className])
  | .reject reasons => pure (.rejected reasons)
  | .replaceUndefined content =>
      match value with
      | .undefined => do pure (.accepted (← Run.build content))
      | _ => pure (.accepted value)
  | .failing message => throw (.raised message)
  | .custom content => askSchema content value

end Schema

/-! ## Argument lists -/

abbrev ArgumentCheck :=
  Except (List String) (List Value)

def argumentIssues (position : Nat) (issues : List String) : List String :=
  issues.map fun issue => "arg" ++ Nat.repr position ++ ": " ++ issue

/-- Asks schemas about arguments in order, and collects the accepted values and the
issues. -/
def checkEach (position : Nat) : List Schema → List Value → Run (List Value × List String)
  | schema :: schemas, value :: values => do
      let verdict ← schema.validate value
      let (accepted, issues) ← checkEach (position + 1) schemas values
      match verdict with
      | .accepted content => pure (content :: accepted, issues)
      | .rejected reasons => pure (accepted, argumentIssues position reasons ++ issues)
      | .deferred =>
          pure (accepted,
            argumentIssues position ["asynchronous schemas are not supported"] ++ issues)
  | _, _ => pure ([], [])

def countIssue (expected given : Nat) : String :=
  "Expected " ++ Nat.repr expected ++ " argument" ++ (if expected = 1 then "" else "s") ++
    ", got " ++ Nat.repr given

/-- Checks call arguments against the schemas of a method. -/
def checkArguments (schemas : List Schema) (values : List Value) : Run ArgumentCheck := do
  if schemas.isEmpty then
    pure (.ok values)
  else if values.length ≠ schemas.length then
    pure (.error [countIssue schemas.length values.length])
  else
    let (accepted, issues) ← checkEach 0 schemas values
    pure (if issues.isEmpty then .ok accepted else .error issues)

end ObjectPath
