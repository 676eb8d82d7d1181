import ObjectPath.Compile

/-!
Operations on paths: slices, joins, the static and the non-static form, and the
members that nodes name.
-/

namespace ObjectPath.Session

/-! ## Positions in a path -/

/-- The position that a value is in a sequence: an integer from 0, below `limit`. -/
def positionOf? (limit : Nat) : Value → Option Nat
  | .number number =>
      match number.toInt? with
      | some (.ofNat position) => if position < limit then some position else none
      | _ => none
  | _ => none

def positionText (value : Value) : Session String :=
  onGraph (Run.messageText perform value)

/-- A position in a path of `size` nodes, which must be below `limit`. -/
def checkPosition (name : String) (limit size : Nat) (value : Value) : Session Nat := do
  match positionOf? limit value with
  | some position => pure position
  | none => throw (.range (.position name (← positionText value) size))

/-! ## Slices -/

def joinedText (nodes : List Node) : String :=
  ".".intercalate (nodes.map Node.text)

/-- The path of the nodes from `first` up to but not including `last`, which is the end
of the path unless given.  A slice that starts with the first node keeps the root type. -/
def subPath (path : Path) (first : Value) (last : Option Value) : Session Path := do
  let size := path.size
  let last := match last with
    | some .undefined => .ofNat size
    | some value => value
    | none => .ofNat size
  if first.same (.ofNat 0) && last.same (.ofNat size) then
    pure path
  else
    let start ← checkPosition "begin" size size first
    -- The end lies one past the last node, so the size itself is allowed.
    let stop ← checkPosition "end" (size + 1) size last
    if stop ≤ start then
      throw (.invalidArgument (.emptySlice (← positionText first) (← positionText last)))
    else
      let text := joinedText ((path.nodes.take stop).drop start)
      match path.rootType with
      | some owner =>
          if start = 0 then
            compileBound path.compiler owner text
          else
            compile path.compiler text
      | none => compile path.compiler text

/-- How many nodes to move by: one unless given. -/
def countOf (count : Option Value) : Value :=
  match count with
  | some .undefined => .ofNat 1
  | some value => value
  | none => .ofNat 1

def moveForward (path : Path) (count : Option Value) : Session Path :=
  subPath path (countOf count) (some (.ofNat path.size))

def moveBackward (path : Path) (count : Option Value) : Session Path := do
  let number ← onGraph (Run.operandOf perform (countOf count))
  subPath path (.ofNat 0) (some (.number ((Number.ofNat path.size).subtract number)))

/-! ## Static and non-static form -/

def bind (path : Path) (type : Value) : Session Path :=
  compileBound path.compiler type path.source

def unbind (path : Path) : Session Path := do
  if path.isStatic then
    let text ← lift (PathText.toNonStatic path.source)
    compile path.compiler text
  else
    pure path

/-- The path of the nodes of `path` followed by those of `other`.  The root type of
`other`, if it has one, is left out. -/
def concat (path other : Path) : Session Path := do
  let tail ← unbind other
  compile path.compiler (path.source ++ "." ++ tail.source)

/-! ## Members -/

/-- The class from which the type walk of a path starts. -/
def ownerOf (path : Path) (given : Option Value) : Session Value := do
  match path.rootType, given with
  | some bound, none => pure bound
  | some bound, some other =>
      if other = bound then
        pure bound
      else
        let boundText ← onGraph (Run.typeText bound)
        throw (.unsupportedOperation (.otherOwner path.source boundText))
  | none, some owner => pure owner
  | none, none => throw (.unsupportedOperation (.ownerMissing path.source))

def firstScope (path : Path) : Scope :=
  if path.isStatic then .onClass else .onInstance

/-- The member that a node of a path names, found by walking declared types. -/
def memberOf (path : Path) (index : Value) (given : Option Value)
    (arguments : Option ArgumentMap) : Session (Option Member) := do
  let position ← checkPosition "index" path.size path.size index
  let owner ← ownerOf path given
  let resolver := ((← get).compiler path.compiler).resolver
  onGraph (memberAlong resolver arguments path.nodes position owner (firstScope path))

def lastMember (path : Path) (given : Option Value) (arguments : Option ArgumentMap) :
    Session (Option Member) :=
  memberOf path (.ofNat (path.size - 1)) given arguments

end ObjectPath.Session
