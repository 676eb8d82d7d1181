import ObjectPath.Text.CaseTable
import ObjectPath.Text.WordTable

/-!
Letter case of texts.  The upper case of a letter may have several letters; the
lower case has one, save for a capital I with a dot.  A Greek capital sigma at the
end of a word has a lower case of its own.
-/

namespace ObjectPath.Text

/-! ## Upper case -/

def upperChar (character : Char) : List Char :=
  match upperExpansions.find? (·.1 == character.toNat) with
  | some (_, codes) => codes.map Char.ofNat
  | none => [Char.ofNat (partner upperRuns character.toNat)]

def upperCase (text : String) : String :=
  String.ofList (text.toList.flatMap upperChar)

/-! ## Lower case -/

def isCased (character : Char) : Bool :=
  isWithin casedRanges character.toNat

/-- Whether a character inside a word does not end it although it is no letter. -/
def isInsideWord (character : Char) : Bool :=
  isWithin insideWordRanges character.toNat

/-- Whether the next character of a text that does not stand inside words is a letter
with letter case. -/
def startsCased (text : List Char) : Bool :=
  match text.dropWhile isInsideWord with
  | [] => false
  | character :: _ => isCased character

/-- The lower case of a character after some characters, the last of them first, and
before others. -/
def lowerChar (before : List Char) (character : Char) (after : List Char) : List Char :=
  let code := character.toNat
  if code = 0x3A3 && startsCased before && !startsCased after then
    [Char.ofNat 0x3C2]
  else if code = 0x130 then
    ['i', Char.ofNat 0x307]
  else
    [Char.ofNat (partner lowerRuns code)]

/-- The lower case of characters that follow others, the last of those first. -/
def lowerAfter (before : List Char) : List Char → List Char
  | [] => []
  | character :: rest => lowerChar before character rest ++ lowerAfter (character :: before) rest

def lowerCase (text : String) : String :=
  String.ofList (lowerAfter [] text.toList)

end ObjectPath.Text
