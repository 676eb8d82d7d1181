import ObjectPath.Comparison
import ObjectPath.Evaluation

/-!
Predicates over paths.  The path `when` is evaluated on the first root, `than` on
the second, and a test decides.  A method that takes the argument key `rootObj`
receives the root its side is evaluated on, unless there is an argument map.
-/

namespace ObjectPath

/-! ## Predicates -/

/-- A test of what two paths give; without a path it is its default value.  Two
predicates are the same object when their serial numbers are. -/
structure Predicate where
  serial : Nat
  whenPath : Option Path
  test : Test
  thanPath : Option Path
  defaultValue : Bool

/-- The argument key that stands for the root of a side. -/
def rootKey : String :=
  "rootObj"

/-- The argument map to evaluate a path with: the given one, else one that binds the
root if the path asks for it. -/
def rootArguments (path : Path) (root : Value) (given : Option ArgumentMap) :
    Option ArgumentMap :=
  match given with
  | some arguments => some arguments
  | none => if path.argumentKeys.contains rootKey then some [(rootKey, root)] else none

namespace Predicate

def acceptAll : Predicate :=
  ⟨0, none, .undefined, none, true⟩

def denyAll : Predicate :=
  ⟨1, none, .undefined, none, false⟩

/-- The serial numbers below this one belong to the predicates above. -/
def firstFree : Nat :=
  2

def needsArguments (predicate : Predicate) : Bool :=
  (predicate.whenPath.map Path.needsArguments).getD false ||
    (predicate.thanPath.map Path.needsArguments).getD false

/-- Whether neither side reads any argument but the root. -/
def hasOnlyRootKey (predicate : Predicate) : Bool :=
  ((predicate.whenPath.map Path.argumentKeys).getD [] ++
    (predicate.thanPath.map Path.argumentKeys).getD []).all (· == rootKey)

/-- Whether two sides have the same source, or are both missing. -/
def sameSource : Option Path → Option Path → Bool
  | none, none => true
  | some path, some other => path.equal other
  | _, _ => false

def same (predicate other : Predicate) : Bool :=
  predicate.serial == other.serial

/-- Predicates are equal when their sources, tests and default values are. -/
def equal (predicate other : Predicate) : Bool :=
  sameSource predicate.whenPath other.whenPath && predicate.test.serial == other.test.serial &&
    sameSource predicate.thanPath other.thanPath &&
    predicate.defaultValue == other.defaultValue

def text (predicate : Predicate) : String :=
  match predicate.whenPath with
  | none => "PathExpressionPredicate(" ++ toString predicate.defaultValue ++ ")"
  | some path =>
      let parts := [path.source, predicate.test.name] ++
        (predicate.thanPath.map Path.source).toList
      "PathExpressionPredicate(" ++ " ".intercalate parts ++ ")"

end Predicate

/-! ## Building -/

namespace Session

def newPredicate (whenPath : Path) (test : Test) (thanPath : Option Path) : Session Predicate := do
  let world ← get
  set { world with predicates := world.predicates + 1 }
  pure ⟨Predicate.firstFree + world.predicates, some whenPath, test, thanPath, false⟩

/-- Builds a predicate from texts.  If neither a path nor a test is given the result is
the default predicate; an inconsistent combination is refused. -/
def predicate (compiler : Nat) (whenText : String) (test : Test) (thanText : String)
    (otherwise : Option Predicate) : Session (Option Predicate) := do
  let hasWhen := Text.trim whenText != ""
  let hasThan := Text.trim thanText != ""
  if !hasWhen then
    if test.kind ≠ .undefined then
      throw (.invalidArgument .testWithoutWhen)
    else if hasThan then
      throw (.invalidArgument .thanWithoutWhen)
    else
      pure otherwise
  else
    match test.kind, hasThan with
    | .undefined, _ => throw (.invalidArgument .testMissing)
    | .binary, false => throw (.invalidArgument (.thanMissing test.name))
    | .unary, true => throw (.invalidArgument (.thanUnwanted test.name))
    | .unary, false => do
        let path ← compile compiler whenText
        pure (some (← newPredicate path test none))
    | .binary, true => do
        let path ← compile compiler whenText
        let other ← compile compiler thanText
        pure (some (← newPredicate path test (some other)))

/-! ## Testing -/

/-- Evaluates one side.  A static path starts from its own root type; a class given as
the root is the class to start from. -/
def evaluateSide (path : Path) (root : Value) (options : EvaluateOptions) : Session Value := do
  if path.isStatic then
    getStaticValue path none options
  else if ← onGraph (Run.isConstructor root) then
    getStaticValue path (some root) options
  else
    getValue path root options

/-- Evaluates one side with the arguments that it is given or that its root makes. -/
def evaluateRooted (path : Path) (root : Value) (options : EvaluateOptions) : Session Value :=
  evaluateSide path root
    { options with arguments := rootArguments path root options.arguments }

/-- Whether a predicate holds of two roots; the second is the first unless given. -/
def test (predicate : Predicate) (first : Value) (second : Option Value)
    (options : EvaluateOptions) : Session Bool := do
  let second := match second with
    | none => first
    | some .undefined => first
    | some root => root
  match predicate.whenPath, predicate.test.kind with
  | none, _ => pure predicate.defaultValue
  | some path, kind =>
      let value ← evaluateRooted path first options
      match kind, predicate.thanPath with
      | .undefined, _ => pure predicate.defaultValue
      | .unary, _ => onGraph (predicate.test.holds value .undefined)
      | .binary, none => pure predicate.defaultValue
      | .binary, some path =>
          let other ← evaluateRooted path second options
          onGraph (predicate.test.holds value other)

end Session

end ObjectPath
