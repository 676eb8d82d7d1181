import ObjectPath.Text.Units

/-!
Quoted texts.  A quoted text stands between double quotes; a double quote, a
backslash, the control characters and halves of pairs that stand alone are written as
escapes.
-/

namespace ObjectPath.Text

/-! ## Quoting -/

def hexDigit (value : Nat) : Char :=
  (Nat.digitChar value)

def numberEscape (unit : Nat) : List Char :=
  ['\\', 'u', hexDigit (unit / 4096), hexDigit (unit / 256 % 16), hexDigit (unit / 16 % 16),
    hexDigit (unit % 16)]

def escape (character : Char) : List Char :=
  let code := character.toNat
  if character = '"' then
    ['\\', '"']
  else if character = '\\' then
    ['\\', '\\']
  else if code = 8 then
    ['\\', 'b']
  else if code = 9 then
    ['\\', 't']
  else if code = 10 then
    ['\\', 'n']
  else if code = 12 then
    ['\\', 'f']
  else if code = 13 then
    ['\\', 'r']
  else if code < 32 then
    numberEscape code
  else
    match half? character with
    | some unit => numberEscape unit
    | none => [character]

/-- The escape of a character of a text; a pair of halves stands for itself. -/
def escapeCharacter (character : List Char) : List Char :=
  match character with
  | [single] => escape single
  | pair => pair

def quoteList (text : List Char) : List Char :=
  '"' :: ((characters text).flatMap escapeCharacter ++ ['"'])

def quote (text : String) : String :=
  String.ofList (quoteList text.toList)

end ObjectPath.Text
