import ObjectPath.Text.Units

/-!
Texts on their way in and out.  Lines of quoted texts are read with every half in its
holder, so that what is read afterwards is settled, and are written with the pairs of
held halves as the characters that they are.
-/

namespace ObjectPath.Text

/-! ## Reading -/

/-- The unit that four hexadecimal digits write. -/
def escapedUnit? (digits : List Char) : Option Nat :=
  digits.foldl
    (fun value digit =>
      match value, "0123456789abcdef".toList.idxOf? digit.toLower with
      | some value, some place => some (value * 16 + place)
      | _, _ => none)
    (some 0)

/-- The character that holds the half which four hexadecimal digits write. -/
def escapedHalf? (digits : List Char) : Option Char :=
  match escapedUnit? digits with
  | some unit => if 0xD800 ≤ unit && unit < 0xE000 then some (halfChar unit) else none
  | none => none

/-- A character as it is held: one that would be a holder is kept as the holders of its
halves. -/
def heldCharacter (character : Char) : List Char :=
  if (half? character).isSome then
    let (first, second) := pairOf character.toNat
    [halfChar first, halfChar second]
  else
    [character]

/-- A quoted text with every half in its holder; `taken` is what was read before, the
last of it first. -/
def holdAfter (taken : List Char) : List Char → List Char
  | '\\' :: 'u' :: a :: b :: c :: d :: rest =>
      match escapedHalf? [a, b, c, d] with
      | some half => holdAfter (half :: taken) rest
      | none => holdAfter (d :: c :: b :: a :: 'u' :: '\\' :: taken) rest
  | '\\' :: character :: rest => holdAfter (character :: '\\' :: taken) rest
  | character :: rest => holdAfter ((heldCharacter character).reverse ++ taken) rest
  | [] => taken.reverse

/-- A quoted text whose texts are settled. -/
def held (text : String) : String :=
  settle (String.ofList (holdAfter [] text.toList))

/-! ## Writing -/

/-- A character of a settled text as it is written: a pair of halves is the character
that it is. -/
def releasedCharacter (character : List Char) : List Char :=
  match character.filterMap half? with
  | [first, second] => [charOfPair first second]
  | _ => character

/-- A text without held pairs. -/
def released (text : String) : String :=
  String.ofList ((characters text.toList).flatMap releasedCharacter)

end ObjectPath.Text
