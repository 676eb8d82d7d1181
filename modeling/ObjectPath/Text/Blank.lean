/-!
Blank characters and trimming.  Expression texts, argument keys and indices may
be surrounded by blanks, which are dropped before the text is read.
-/

namespace ObjectPath.Text

/-! ## Blank characters -/

/-- The blanks are the tabulators, line ends, spaces and space separators, and
the byte order mark. -/
def isBlank (character : Char) : Bool :=
  let code := character.toNat
  (9 ≤ code && code ≤ 13) || code == 0x20 || code == 0xA0 || code == 0x1680 ||
    (0x2000 ≤ code && code ≤ 0x200A) || code == 0x2028 || code == 0x2029 ||
    code == 0x202F || code == 0x205F || code == 0x3000 || code == 0xFEFF

/-! ## Trimming -/

def trimEnd : List Char → List Char
  | [] => []
  | character :: rest =>
      match trimEnd rest with
      | [] => if isBlank character then [] else [character]
      | trimmed => character :: trimmed

def trimList (text : List Char) : List Char :=
  trimEnd (text.dropWhile isBlank)

/-- The text without the blanks at either end. -/
def trim (text : String) : String :=
  String.ofList (trimList text.toList)

end ObjectPath.Text
