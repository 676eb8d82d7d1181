import ObjectPath.Compile

/-!
Evaluation: reads, writes and the filling of empty slots.

A read walks the nodes in order and gives `null` as soon as a value is missing.
With a factory, a missing value before the last node is made by the factory and
written back first, so such reads can change the graph.

A write always fills missing values, with the factory of the compiler if it is
given none.  If the factory has no value to give, the write is abandoned: that is
logged, and a strict compiler fails as well.
-/

namespace ObjectPath

structure EvaluateOptions where
  arguments : Option ArgumentMap
  factory : Option Factory

namespace Session

/-! ## Walking -/

/-- Where a walk ended: at a position, or at a node whose value is missing and, if a
factory was asked, the type it was asked for. -/
inductive Walk
  | arrived (position : Position)
  | stopped (index : Nat) (type : Option Value)

def reportFilled (path : Path) (index : Nat) (node : Node) (type value : Value) :
    Session Unit := do
  let typeName ← onGraph (Run.typeName type)
  emit path.compiler .filled path.source
    (.filled path.compiler path.source index node.text typeName value (← get).graph)

/-- Walks nodes from a position.  The first of them is number `index` of the path. -/
def walk (path : Path) (resolver : Resolver) (options : EvaluateOptions) (index : Nat)
    (position : Position) : List Node → Session Walk
  | [] => pure (.arrived position)
  | node :: rest => do
      let value ← onGraph (node.read resolver options.arguments position)
      if value.isMissing then
        match options.factory with
        | none => pure (.stopped index none)
        | some supply =>
            let type ← onGraph (node.typeAt resolver options.arguments position)
            let made ← onGraph (produce supply type options.arguments)
            if made.isMissing then
              pure (.stopped index (some type))
            else if ← onGraph
                (node.write resolver options.arguments options.factory position made) then
              reportFilled path index node type made
              walk path resolver options (index + 1) (.onValue made) rest
            else
              pure (.stopped index (some type))
      else
        walk path resolver options (index + 1) (.onValue value) rest

def resolverOf (path : Path) : Session Resolver := do
  pure ((← get).compiler path.compiler).resolver

/-- Walks every node of a path but the last. -/
def walkPath (path : Path) (start : Position) (options : EvaluateOptions) : Session Walk := do
  walk path (← resolverOf path) options 0 start path.nodes.dropLast

/-! ## Reading and writing from a position -/

def evaluate (path : Path) (start : Position) (options : EvaluateOptions) : Session Value := do
  match ← walkPath path start options with
  | .stopped _ _ => pure .null
  | .arrived position =>
      let value ← onGraph
        (path.lastNode.read (← resolverOf path) options.arguments position)
      pure value.orNull

/-- Gives a write up at a node whose value could not be made. -/
def abandon (path : Path) (index : Nat) (type : Value) : Session Unit := do
  let typeName ← onGraph (Run.typeName type)
  let node := (path.nodes[index]?.map Node.text).getD ""
  emit path.compiler .abandoned path.source
    (.abandoned path.compiler path.source index node typeName)
  if ((← get).compiler path.compiler).strictWrites then
    -- The name is asked for anew: the handlers of the event ran in between.
    let typeName ← onGraph (Run.typeName type)
    throw (.instantiation typeName (← onGraph (Run.messageText perform typeName)) none none)

def assign (path : Path) (start : Position) (value : Value) (options : EvaluateOptions) :
    Session Unit := do
  let world ← get
  let factory := options.factory.getD (world.factory (world.compiler path.compiler).factory)
  let options : EvaluateOptions := { options with factory := some factory }
  match ← walkPath path start options with
  | .stopped index type => abandon path index (type.getD openType)
  | .arrived position =>
      let resolver ← resolverOf path
      let written ← onGraph
        (path.lastNode.write resolver options.arguments options.factory position value)
      if written then
        pure ()
      else
        -- Only an array node refuses, and what it lacks is its array, not the element.
        let type ← onGraph (path.lastNode.typeAt resolver options.arguments position)
        abandon path (path.size - 1) (← onGraph (Run.arrayOf type))

/-! ## Evaluation on a root -/

def refuseRoot (path : Path) : Fault :=
  .unsupportedOperation (.staticGivenRoot path.source)

/-- Reads a path from a root; `null` for a missing root or any missing value. -/
def getValue (path : Path) (root : Value) (options : EvaluateOptions) : Session Value := do
  -- A static path is only refused a root that is there; a write refuses it any root.
  if root.isMissing then
    pure .null
  else if path.isStatic then
    throw (refuseRoot path)
  else
    evaluate path (.onValue root) options

/-- Writes a path under a root, making missing values on the way.  A missing root
abandons the write. -/
def setValue (path : Path) (root value : Value) (options : EvaluateOptions) : Session Unit := do
  if path.isStatic then
    throw (refuseRoot path)
  else if root.isMissing then
    abandon path 0 openType
  else
    assign path (.onValue root) value options

/-! ## Evaluation on a class -/

/-- The class from which a path starts: its own root type, or the one that is given. -/
def staticRoot (path : Path) (given : Option Value) : Session Position := do
  match path.rootType, given with
  | some bound, none => pure (.onClass bound)
  | some bound, some other =>
      if other = bound then
        pure (.onClass bound)
      else
        let boundText ← onGraph (Run.typeText bound)
        let otherText ← onGraph (Run.typeText other)
        throw (.unsupportedOperation (.boundElsewhere path.source boundText otherText))
  | none, some owner => pure (.onClass owner)
  | none, none => throw (.unsupportedOperation (.rootTypeMissing path.source))

def getStaticValue (path : Path) (given : Option Value) (options : EvaluateOptions) :
    Session Value := do
  evaluate path (← staticRoot path given) options

def setStaticValue (path : Path) (given : Option Value) (value : Value)
    (options : EvaluateOptions) : Session Unit := do
  assign path (← staticRoot path given) value options

end Session

end ObjectPath
