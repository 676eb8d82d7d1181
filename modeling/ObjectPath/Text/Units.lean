/-!
Texts as sequences of sixteen-bit units.  A unit is a character of the first plane or
one half of a pair of halves; a pair is a character of another plane.  Lengths of texts
count units and sorted output compares them, so a character of another plane counts
twice and sorts before the last characters of the first plane.

A half may stand alone, which no character can.  So 2048 characters of the last private
plane are taken to hold the halves, and a pair that is one of those characters itself is
kept as the holders of its halves.  In this way every sequence of units has one
settled text, which `settle` finds.
-/

namespace ObjectPath.Text

/-! ## Halves -/

/-- The character that holds a half. -/
def halfChar (unit : Nat) : Char :=
  Char.ofNat (0x100000 + unit)

/-- The half that a character holds. -/
def half? (character : Char) : Option Nat :=
  let code := character.toNat
  if 0x10D800 ≤ code && code < 0x10E000 then some (code - 0x100000) else none

def isFirstHalf (character : Char) : Bool :=
  match half? character with
  | some unit => decide (unit < 0xDC00)
  | none => false

def isSecondHalf (character : Char) : Bool :=
  match half? character with
  | some unit => decide (0xDC00 ≤ unit)
  | none => false

/-- The units of a character of another plane than the first. -/
def pairOf (code : Nat) : Nat × Nat :=
  (0xD800 + (code - 0x10000) / 0x400, 0xDC00 + (code - 0x10000) % 0x400)

def charOfPair (first second : Nat) : Char :=
  Char.ofNat (0x10000 + (first - 0xD800) * 0x400 + (second - 0xDC00))

/-! ## Units of a text -/

/-- One unit for a character of the first plane or a held half, a pair for any other. -/
def charUnits (character : Char) : List Nat :=
  let code := character.toNat
  if code < 0x10000 then
    [code]
  else if let some unit := half? character then
    [unit]
  else
    [(pairOf code).1, (pairOf code).2]

def units (text : String) : List Nat :=
  text.toList.flatMap charUnits

def unitLength (text : String) : Nat :=
  (units text).length

def ofUnit (unit : Nat) : String :=
  String.singleton (if 0xD800 ≤ unit && unit < 0xE000 then halfChar unit else Char.ofNat unit)

def unitText? (text : String) (position : Nat) : Option String :=
  (units text)[position]?.map ofUnit

/-! ## Settled texts -/

/-- Puts a character in front of a settled text.  Two halves that meet become the
character that they are, unless that is a holder itself. -/
def attach (character : Char) (text : List Char) : List Char :=
  match half? character, text with
  | some first, next :: rest =>
      match half? next with
      | some second =>
          let pair := charOfPair first second
          if first < 0xDC00 && 0xDC00 ≤ second && (half? pair).isNone then pair :: rest
          else character :: text
      | none => character :: text
  | _, _ => character :: text

/-- The settled text of the same units. -/
def settleList (text : List Char) : List Char :=
  text.foldr attach []

/-- The settled text of the same units; only a text with held halves can differ from it. -/
def settle (text : String) : String :=
  if text.toList.any fun character => (half? character).isSome then
    String.ofList (settleList text.toList)
  else
    text

/-- Texts one after the other.  Halves that meet become one character. -/
def concat (texts : List String) : String :=
  settle (String.join texts)

def joinWith (between : String) (texts : List String) : String :=
  settle (between.intercalate texts)

/-! ## Characters of a text -/

/-- Puts a character in front of the characters of a text, where two halves in a pair
count as one. -/
def addCharacter (character : Char) (characters : List (List Char)) : List (List Char) :=
  match characters with
  | [next] :: rest =>
      if isFirstHalf character && isSecondHalf next then [character, next] :: rest
      else [character] :: characters
  | _ => [character] :: characters

/-- The characters of a settled text, a pair of held halves being one of them. -/
def characters (text : List Char) : List (List Char) :=
  text.foldr addCharacter []

/-! ## Order -/

/-- A text comes before another when its units do, compared from the left. -/
def unitsBefore (left right : String) : Bool :=
  decide (units left < units right)

def startsWith (text start : String) : Bool :=
  (units start).isPrefixOf (units text)

/-- Texts sorted by their units; equal texts keep their order. -/
def sortByUnits {α : Type} (name : α → String) (items : List α) : List α :=
  items.mergeSort fun left right => !unitsBefore (name right) (name left)

end ObjectPath.Text
