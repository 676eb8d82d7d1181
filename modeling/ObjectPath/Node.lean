import ObjectPath.Entries
import ObjectPath.Fault
import ObjectPath.Text.Blank
import ObjectPath.Text.Identifier

/-!
Nodes: the segments of a compiled path.

* `name` is a field node;
* `getName()` is a method node, with argument keys inside the parentheses;
* `items[0]` is an array node whose inner node is `items`;
* `[0]` is an array node that indexes the current target itself.

A node is known by its text.  A node table makes one node per text, and gives each
a serial number by which two nodes of one text can be told apart.
-/

namespace ObjectPath

/-! ## Nodes -/

/-- A segment of a compiled path. -/
inductive Node
  | field (serial : Nat) (name : String)
  | method (serial : Nat) (text name : String) (keys : List String)
  | array (serial : Nat) (text : String) (index : Nat) (inner : Option Node)

namespace Node

def serial : Node → Nat
  | .field serial _ => serial
  | .method serial _ _ _ => serial
  | .array serial _ _ _ => serial

def text : Node → String
  | .field _ name => name
  | .method _ text _ _ => text
  | .array _ text _ _ => text

/-- The keys that the node reads from the argument map, in call order. -/
def argumentKeys : Node → List String
  | .field _ _ => []
  | .method _ _ _ keys => keys
  | .array _ _ _ none => []
  | .array _ _ _ (some inner) => inner.argumentKeys

def needsArguments (node : Node) : Bool :=
  !node.argumentKeys.isEmpty

/-- The method through which a value is written where this one reads it: `setX` for
`getX`, none for any other name. -/
def setterOf (name : String) : Option String :=
  match name.toList with
  | 'g' :: 'e' :: 't' :: rest => some (String.ofList ('s' :: 'e' :: 't' :: rest))
  | _ => none

end Node

/-! ## Segments read from text -/

def greatestIndex : Nat :=
  9007199254740991

namespace Segment

/-- The parts of a text before and after the last opening bracket. -/
def splitAtLastBracket (text : List Char) : Option (List Char × List Char) :=
  match text.reverse.dropWhile (· != '[') with
  | [] => none
  | _ :: before => some (before.reverse, (text.reverse.takeWhile (· != '[')).reverse)

/-- The argument keys between the parentheses of a method segment. -/
def keysOf (inside : List Char) : List (List Char) :=
  match Text.trimList inside with
  | [] => []
  | trimmed => (Text.splitOnChar ',' trimmed).map Text.trimList

/-- Name and argument keys of a segment that ends in a closing parenthesis. -/
def readMethod (text : List Char) : Except ExpressionFault (List Char × List (List Char)) :=
  match Text.cutAt '(' text with
  | none => .error .methodName
  | some (name, inside) =>
      if Text.isIdentifierList name then
        let keys := keysOf inside.dropLast
        match keys.find? (!Text.isIdentifierList ·) with
        | some key => .error (.argumentKey (String.ofList key))
        | none => .ok (name, keys)
      else
        .error .methodName

/-- Inner text and index of a segment that ends in a closing bracket. -/
def readArray (text : List Char) : Except ExpressionFault (List Char × Nat) :=
  match splitAtLastBracket text with
  | none => .error .index
  | some (inner, inside) =>
      let digits := Text.trimList inside.dropLast
      if Text.isDigitList digits && Text.digitsValue digits ≤ greatestIndex then
        .ok (inner, Text.digitsValue digits)
      else
        .error .index

theorem readArray_length {text inner : List Char} {index : Nat}
    (read : readArray text = .ok (inner, index)) :
    inner.length < text.length := by
  unfold readArray splitAtLastBracket at read
  have lengths := congrArg List.length
    (List.takeWhile_append_dropWhile (p := (· != '[')) (l := text.reverse))
  simp only [List.length_append, List.length_reverse] at lengths
  cases rest : text.reverse.dropWhile (· != '[') with
  | nil => simp [rest] at read
  | cons bracket before =>
      simp only [rest] at read
      rw [rest] at lengths
      simp only [List.length_cons] at lengths
      split at read
      · cases read
        simp only [List.length_reverse]
        omega
      · cases read

end Segment

/-! ## Node tables -/

/-- The nodes made so far, by text, and the next serial number. -/
structure NodeTable where
  entries : List (String × Node)
  nextSerial : Nat

namespace NodeTable

def empty : NodeTable :=
  ⟨[], 0⟩

def size (table : NodeTable) : Nat :=
  table.entries.length

/-- Drops every node; serial numbers are not used again. -/
def clear (table : NodeTable) : NodeTable :=
  { table with entries := [] }

/-- Enters a node that was made with the next serial number. -/
def enter (table : NodeTable) (text : String) (node : Node) : Node × NodeTable :=
  (node, ⟨table.entries ++ [(text, node)], table.nextSerial + 1⟩)

def fault (text : List Char) (reason : ExpressionFault) : Fault :=
  .invalidExpression (String.ofList text) reason none

/-- The node of a segment: the one made before, or a new one.  The inner node of an
array node is entered before the array node itself. -/
def node (table : NodeTable) (text : List Char) : Except Fault (Node × NodeTable) :=
  let name := String.ofList text
  match Entries.get? table.entries name with
  | some node => .ok (node, table)
  | none =>
      match text.getLast? with
      | some ')' =>
          match Segment.readMethod text with
          | .error reason => .error (fault text reason)
          | .ok (method, keys) =>
              .ok (table.enter name
                (.method table.nextSerial name (String.ofList method) (keys.map String.ofList)))
      | some ']' =>
          match read : Segment.readArray text with
          | .error reason => .error (fault text reason)
          | .ok (inner, index) =>
              have _shorter := Segment.readArray_length read
              -- An index that nothing stands before is one on the target itself.
              if inner.isEmpty then
                .ok (table.enter name (.array table.nextSerial name index none))
              else
                match node table inner with
                | .error reason => .error reason
                | .ok (innerNode, later) =>
                    .ok (later.enter name (.array later.nextSerial name index (some innerNode)))
      | _ =>
          if Text.isIdentifierList text then
            .ok (table.enter name (.field table.nextSerial name))
          else
            .error (fault text .fieldName)
termination_by text.length
decreasing_by assumption

end NodeTable

end ObjectPath
