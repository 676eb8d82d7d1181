import ObjectPath.Fault
import ObjectPath.Text.Quoted

/-!
Syntax trees as parsers hand them over: nodes with named parts.  A part that is not there
reads as `absent`; reading a part of nothing fails.
-/

namespace ObjectPath.Lint

/-- A syntax tree with named parts, or a constant in one. -/
inductive Tree
  | absent
  | null
  | boolean (value : Bool)
  | number (value : Number)
  | text (value : String)
  | list (items : List Tree)
  | node (parts : List (String × Tree))

instance : Inhabited Tree :=
  ⟨.absent⟩

/-- What reading a tree gives, unless it fails. -/
abbrev Reading :=
  Except UseFault

namespace Tree

/-! ## Parts -/

/-- Whether there is nothing to read parts of. -/
def isMissing : Tree → Bool
  | .absent => true
  | .null => true
  | _ => false

def part (tree : Tree) (name : String) : Reading Tree :=
  match tree with
  | .absent => .error (.readOfMissing name "undefined")
  | .null => .error (.readOfMissing name "null")
  | .node parts => .ok (((parts.find? (·.1 == name)).map (·.2)).getD .absent)
  | _ => .ok .absent

/-- The items of a tree that is gone through one by one: those of a list, or the
characters of a text.  The words are those of the message for any other tree. -/
def items (words : String) : Tree → Reading (List Tree)
  | .list items => .ok items
  | .text value => .ok (value.toList.map fun character => .text (String.singleton character))
  | _ => .error (.notIterable words)

/-- The items of a tree that is asked for some of them by a member of lists.  The words are
those of the message for a tree without that member. -/
def itemsBy (member words : String) (tree : Tree) : Reading (List Tree) :=
  match tree with
  | .list items => .ok items
  | _ => do
      let _ ← tree.part member
      .error (.notFunction (words ++ "." ++ member))

/-! ## Constants -/

def isTruthy : Tree → Bool
  | .absent => false
  | .null => false
  | .boolean value => value
  | .number value => !(value == .nan || value.equal (.ofNat 0))
  | .text value => value != ""
  | .list _ => true
  | .node _ => true

/-- Whether two trees are the same constant; lists and nodes are not constants. -/
def same : Tree → Tree → Bool
  | .absent, .absent => true
  | .null, .null => true
  | .boolean left, .boolean right => left == right
  | .number left, .number right => left.equal right
  | .text left, .text right => left == right
  | _, _ => false

def isText (tree : Tree) (value : String) : Bool :=
  tree.same (.text value)

mutual

/-- The text of a tree as the name of a property. -/
def shown : Tree → Reading String
  | .absent => .ok "undefined"
  | .null => .ok "null"
  | .boolean true => .ok "true"
  | .boolean false => .ok "false"
  | .number value => .ok value.text
  | .text value => .ok value
  | .list items => do .ok (",".intercalate (← shownItems items))
  | .node parts =>
      if parts.any (·.1 == "toString") then .error .notPrimitive else .ok "[object Object]"

/-- The texts of the items of a list; missing items are empty. -/
def shownItems : List Tree → Reading (List String)
  | [] => .ok []
  | item :: rest => do
      let text ← if item.isMissing then .ok "" else item.shown
      let texts ← shownItems rest
      .ok (text :: texts)

end

/-! ## Writing -/

mutual

/-- A tree written as JSON, which leaves parts out that are not there. -/
def json? : Tree → Option String
  | .absent => none
  | .null => some "null"
  | .boolean true => some "true"
  | .boolean false => some "false"
  | .number value => some value.text
  | .text value => some (Text.quote value)
  | .list items => some ("[" ++ ",".intercalate (jsonItems items) ++ "]")
  | .node parts => some ("\x7b" ++ ",".intercalate (jsonParts parts) ++ "\x7d")

def jsonItems : List Tree → List String
  | [] => []
  | item :: rest => item.json?.getD "null" :: jsonItems rest

def jsonParts : List (String × Tree) → List String
  | [] => []
  | (name, content) :: rest =>
      match content.json? with
      | some written => (Text.quote name ++ ":" ++ written) :: jsonParts rest
      | none => jsonParts rest

end

end Tree

end ObjectPath.Lint
