/-!
Identifiers and digit strings, the two kinds of word that a path expression is
made of.
-/

namespace ObjectPath.Text

/-! ## Identifiers -/

/-- An identifier starts with a Latin letter, an underscore or a dollar sign. -/
def startsIdentifier (character : Char) : Bool :=
  character.isAlpha || character == '_' || character == '$'

/-- Later characters of an identifier may also be decimal digits. -/
def continuesIdentifier (character : Char) : Bool :=
  startsIdentifier character || character.isDigit

/-- Identifiers are never empty. -/
def isIdentifierList : List Char → Bool
  | [] => false
  | first :: rest => startsIdentifier first && rest.all continuesIdentifier

def isIdentifier (text : String) : Bool :=
  isIdentifierList text.toList

/-! ## Digit strings -/

/-- A digit string is a non-empty run of decimal digits. -/
def isDigitList (text : List Char) : Bool :=
  !text.isEmpty && text.all Char.isDigit

def digitsValue (text : List Char) : Nat :=
  text.foldl (fun value digit => value * 10 + (digit.toNat - '0'.toNat)) 0

/-- Splits a text at every separator; the parts are one more than the separators. -/
def splitOnChar (separator : Char) : List Char → List (List Char)
  | [] => [[]]
  | character :: rest =>
      if character = separator then
        [] :: splitOnChar separator rest
      else
        match splitOnChar separator rest with
        | [] => [[character]]
        | part :: parts => (character :: part) :: parts

/-- The parts of a text before and after the first mark, if there is one. -/
def cutAt (mark : Char) : List Char → Option (List Char × List Char)
  | [] => none
  | character :: rest =>
      if character = mark then
        some ([], rest)
      else
        (cutAt mark rest).map fun parts => (character :: parts.1, parts.2)

end ObjectPath.Text
