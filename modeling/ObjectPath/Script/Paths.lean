import ObjectPath.Script.Objects

/-!
What paths, nodes and predicates tell about themselves as objects of a graph.  A path
seals its first node, its last node and its argument keys, and a node its argument keys;
anything else is read from their slots.
-/

namespace ObjectPath.Run

/-! ## Sealed contents -/

/-- A sealed content of a receiver, counted from the last; a message names it by a private
name. -/
def sealedContent (receiver : Value) (fromLast : Nat) (name : String) : Run Value := do
  match (← get).objectOf? receiver with
  | some ⟨_, .sealed contents, _, _⟩ =>
      match contents.reverse[fromLast]? with
      | some content => pure content
      | none => throw (.use (.privateMember name))
  | _ => throw (.use (.privateMember name))

/-! ## Parts -/

/-- Whether a path that a predicate may have reads arguments. -/
def sideNeeds (invoke : Invoker) (predicate : Value) (side : String) : Run Bool := do
  let path ← stepWith invoke predicate side
  if path.isMissing then
    pure false
  else
    pure (← readWith invoke path (.name "needsArguments")).isTruthy

def partOf (invoke : Invoker) (part : PathPart) (receiver : Value) : Run Value := do
  match part with
  | .isStatic => do
      let rootType ← stepWith invoke receiver "rootType"
      pure (.boolean (rootType != .null))
  | .length => do
      let nodes ← stepWith invoke receiver "nodes"
      stepWith invoke nodes "length"
  | .firstNode => sealedContent receiver 2 "#first"
  | .lastNode => sealedContent receiver 1 "#last"
  | .argumentKeys => sealedContent receiver 0 "#argumentKeys"
  | .needsArguments => do
      if (← get).isPredicate receiver then
        if ← sideNeeds invoke receiver "when" then pure (.boolean true)
        else pure (.boolean (← sideNeeds invoke receiver "than"))
      else
        let keys ← sealedContent receiver 0 "#argumentKeys"
        pure (.boolean (((← get).arrayLength? keys).getD 0 != 0))

/-! ## Texts -/

/-- The text of a predicate: its paths and the name of its test, or its default value. -/
def predicateText (invoke : Invoker) (receiver : Value) : Run Value := do
  let whenPath ← stepWith invoke receiver "when"
  let inside ← if whenPath.isTruthy then do
      let source ← readWith invoke whenPath (.name "source")
      let test ← stepWith invoke (← readWith invoke receiver (.name "is")) "name"
      let thanPath ← readWith invoke receiver (.name "than")
      let rest ← if thanPath.isTruthy then do
          pure [← readWith invoke thanPath (.name "source")]
        else pure []
      let texts ← ([source, test] ++ rest).mapM fun part =>
        if part.isMissing then pure "" else messageText invoke part
      pure (Text.joinWith " " texts)
    else messageText invoke (← readWith invoke receiver (.name "defaultValue"))
  pure (.string ("PathExpressionPredicate(" ++ inside ++ ")"))

/-! ## Equality -/

def isNode (graph : Graph) (value : Value) : Bool :=
  [BuiltinClass.fieldNode, .methodNode, .arrayNode].any fun owner =>
    graph.descendsFrom value owner.sharedPlace

def sameSlot (invoke : Invoker) (receiver other : Value) (name : String) : Run Bool := do
  let theirs ← readWith invoke other (.name name)
  pure (theirs.same (← stepWith invoke receiver name))

/-- Whether two sides of predicates are the same, or the first says that it equals the
second. -/
def sameSide (invoke : Invoker) (receiver other : Value) (side : String) : Run Bool := do
  let mine ← stepWith invoke receiver side
  let theirs ← readWith invoke other (.name side)
  if mine.same theirs then
    pure true
  else if mine = .null then
    pure false
  else
    pure (← callMember invoke mine "equals" "a.equals" [theirs]).isTruthy

def equalsOther (invoke : Invoker) (owner : BuiltinClass) (receiver other : Value) :
    Run Value := do
  let graph ← get
  match owner with
  | .path =>
      if graph.isPath other then do
        pure (.boolean (← sameSlot invoke receiver other "source"))
      else pure (.boolean false)
  | .predicate => do
      if graph.isPredicate other then
        if !(← sameSide invoke receiver other "when") then pure (.boolean false)
        else if !(← sameSlot invoke receiver other "is") then pure (.boolean false)
        else if !(← sameSide invoke receiver other "than") then pure (.boolean false)
        else pure (.boolean (← sameSlot invoke receiver other "defaultValue"))
      else pure (.boolean false)
  | _ =>
      if isNode graph other then do
        pure (.boolean (← sameSlot invoke receiver other "text"))
      else pure (.boolean false)

end ObjectPath.Run
