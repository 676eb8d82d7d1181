/-!
Slot keys.  A slot is known by an element number or by a name, and the slots of an
object are read with the element numbers first.
-/

namespace ObjectPath

/-! ## Slot keys -/

/-- The key of a slot: an element number below `2 ^ 32 - 1`, or any other name. -/
inductive Key
  | index (position : Nat)
  | name (text : String)
  deriving DecidableEq

namespace Key

def indexLimit : Nat :=
  4294967295

/-- The key of an element; a number past the limit is a name like any other. -/
def ofIndex (position : Nat) : Key :=
  if position < indexLimit then
    .index position
  else
    .name (Nat.repr position)

/-- The key that a text writes: a decimal number without leading zeros is an element
number. -/
def ofText (text : String) : Key :=
  let position := Nat.ofDigitChars 10 text.toList 0
  if position < indexLimit && Nat.repr position == text then .index position else .name text

def text : Key → String
  | .index position => Nat.repr position
  | .name text => text

/-- Keys in reading order: element numbers ascending, then names in order of entry. -/
def arrange {α : Type} (slots : List (Key × α)) : List (Key × α) :=
  let numbered := slots.filter fun slot => match slot.1 with
    | .index _ => true
    | .name _ => false
  let named := slots.filter fun slot => match slot.1 with
    | .index _ => false
    | .name _ => true
  let position (slot : Key × α) : Nat := match slot.1 with
    | .index position => position
    | .name _ => 0
  numbered.mergeSort (fun left right => decide (position left ≤ position right)) ++ named

end Key

end ObjectPath
