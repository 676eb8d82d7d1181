import ObjectPath.Fault
import ObjectPath.Text.Blank
import ObjectPath.Text.Identifier

/-!
The text of path expressions.  A static expression names its root type in front
of the path, as in `class(example.Person)addresses[0].state`.  A path is a list of
segments joined by dots; dots inside brackets and parentheses do not separate.
-/

namespace ObjectPath.PathText

/-! ## Static expressions -/

/-- What a static expression starts with. -/
def staticMark : List Char :=
  "class(".toList

/-- The two parts of a static expression: the name of its root type and the path. -/
structure StaticParts where
  typeName : String
  body : String
  deriving DecidableEq

def afterStaticMark? (text : List Char) : Option (List Char) :=
  if staticMark.isPrefixOf text then some (text.drop staticMark.length) else none

/-- Takes a static expression apart; a text without the static mark is none. -/
def parseStatic (text : String) : Except Fault (Option StaticParts) :=
  match afterStaticMark? text.toList with
  | none => .ok none
  | some rest =>
      match Text.cutAt ')' rest with
      | none => .error (.invalidExpression text .noTypeName none)
      | some ([], _) => .error (.invalidExpression text .noTypeName none)
      | some (_, []) => .error (.invalidExpression text .noNodes none)
      | some (typeName, body) =>
          .ok (some ⟨String.ofList typeName, String.ofList body⟩)

/-- A trimmed text without the static mark and the root type, if it has them. -/
def withoutType (text : String) : Except Fault String :=
  match parseStatic text with
  | .ok (some parts) => .ok parts.body
  | .ok none => .ok text
  | .error fault => .error fault

/-- A text without the static mark and the root type, if it has them. -/
def toNonStatic (text : String) : Except Fault String :=
  withoutType (Text.trim text)

def withType (typeName body : String) : String :=
  "class(" ++ typeName ++ ")" ++ body

def toStatic (typeName text : String) : Except Fault String :=
  match toNonStatic text with
  | .ok body => .ok (withType typeName body)
  | .error fault => .error fault

/-! ## Segments -/

def opens (character : Char) : Bool :=
  character == '(' || character == '['

def closes (character : Char) : Bool :=
  character == ')' || character == ']'

/-- The segments of a text at a bracket depth; the first of them continues what came
before. -/
def splitFrom : Nat → List Char → Except ExpressionFault (List (List Char))
  | depth, [] => if depth = 0 then .ok [[]] else .error .unclosed
  | depth, character :: rest =>
      if opens character then
        continueFirst character (splitFrom (depth + 1) rest)
      -- What was opened last is closed, be it of the other kind.
      else if closes character then
        match depth with
        | 0 => .error (.unbalanced character)
        | outer + 1 => continueFirst character (splitFrom outer rest)
      else if character = '.' && depth == 0 then
        (splitFrom 0 rest).map ([] :: ·)
      else
        continueFirst character (splitFrom depth rest)
where
  continueFirst (character : Char) :
      Except ExpressionFault (List (List Char)) → Except ExpressionFault (List (List Char))
    | .ok [] => .ok [[character]]
    | .ok (segment :: segments) => .ok ((character :: segment) :: segments)
    | .error reason => .error reason

/-- The segments of a path, none of which may be empty. -/
def splitList (text : List Char) : Except ExpressionFault (List (List Char)) :=
  match splitFrom 0 text with
  | .ok segments => if segments.contains [] then .error .emptySegment else .ok segments
  | .error reason => .error reason

/-- The segments of the path `body`; faults name `expression`. -/
def splitSegments (expression body : String) : Except Fault (List String) :=
  match splitList body.toList with
  | .ok segments => .ok (segments.map String.ofList)
  | .error reason => .error (.invalidExpression expression reason none)

end ObjectPath.PathText
