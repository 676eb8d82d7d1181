import ObjectPath.Json
import ObjectPath.Text.Identifier

/-!
Text of values for messages.  Data is written out in full; an instance of a class
is shown by the name of its class only.  Every object is written out once and
numbered in order of first visit; later visits show the number.

A value is first laid out as a tree, which may run getters and what dates say about
themselves; `Layout.text` then writes the tree.
-/

namespace ObjectPath

namespace Format

/-! ## Layouts -/

/-- A value laid out for writing. -/
inductive Layout
  | leaf (text : String)
  /-- An object that was laid out before, by its number. -/
  | visited (number : Nat)
  | list (elements : List (Option Layout))
  | record (entries : List (String × Layout))

instance : Inhabited Layout :=
  ⟨.leaf ""⟩

/-- The text of a slot key: quoted unless it is an identifier. -/
def key (text : String) : String :=
  if Text.isIdentifier text then text else Text.quote text

mutual

def Layout.text : Layout → String
  | .leaf text => text
  | .visited number => "$" ++ Nat.repr number
  | .list elements => "[" ++ ", ".intercalate (elementTexts elements) ++ "]"
  | .record entries => "\x7b" ++ ", ".intercalate (entryTexts entries) ++ "\x7d"

def elementTexts : List (Option Layout) → List String
  | [] => []
  | none :: rest => "<hole>" :: elementTexts rest
  | some element :: rest => element.text :: elementTexts rest

def entryTexts : List (String × Layout) → List String
  | [] => []
  | (name, content) :: rest => (key name ++ ": " ++ content.text) :: entryTexts rest

end

/-! ## Leaves -/

/-- The text of a number, which tells the zeros apart. -/
def number : Number → String
  | .negativeZero => "-0"
  | value => value.text

/-- The text of a value that is no object; objects have none here. -/
def simple? : Value → Option String
  | .undefined => some "undefined"
  | .null => some "null"
  | .boolean true => some "true"
  | .boolean false => some "false"
  | .number value => some (number value)
  | .bigint value => some (Int.repr value ++ "n")
  | .string value => some (Text.quote value)
  | .symbol _ none => some "Symbol()"
  | .symbol _ (some description) => some ("Symbol(" ++ Text.quote description ++ ")")
  | .object _ => none

def functionText (function : Value) : Run String := do
  if (← Run.step function "name").isTruthy then
    let name ← Run.messageText perform (← Run.step function "name")
    pure ("[class " ++ name ++ "]")
  else
    pure "[Function]"

/-- The text of a date, by what it says about itself. -/
def dateText (date : Value) : Run String := do
  let time ← Run.callMember perform date "getTime" "thing.getTime" []
  if (← Run.numberOf perform time) == .nan then
    pure "Date(Invalid)"
  else
    let calendar ← Run.callMember perform date "toISOString" "thing.toISOString" []
    pure ("Date(" ++ ((← Json.text? calendar).getD "undefined") ++ ")")

/-- The text of an instance: the name of what it finds as its `constructor`. -/
def instanceText (value : Value) : Run String := do
  let owner ← Run.read value "constructor"
  let name ← if owner.isMissing then pure .undefined else Run.step owner "name"
  match name with
  | .string text => pure ("[" ++ (if text = "" then "object" else text) ++ "]")
  | _ => pure "[object]"

/-! ## Laying out -/

/-- Lays the elements of an array at positions out, with the objects seen up to their
end. -/
def layElements (lay : List Value → Value → Run (Layout × List Value)) (array : Value)
    (seen : List Value) : List Nat → Run (List (Option Layout) × List Value)
  | [] => pure ([], seen)
  | position :: rest => do
      let key := Key.ofIndex position
      if (← get).has array key then
        let (first, seen) ← lay seen (← Run.readWith perform array key)
        let (elements, seen) ← layElements lay array seen rest
        pure (some first :: elements, seen)
      else
        let (elements, seen) ← layElements lay array seen rest
        pure (none :: elements, seen)

/-- Lays entries out, with the objects seen up to their end. -/
def layEntries (lay : List Value → Value → Run (Layout × List Value)) (seen : List Value) :
    List (String × Value) → Run (List (String × Layout) × List Value)
  | [] => pure ([], seen)
  | (name, value) :: rest => do
      let (first, seen) ← lay seen value
      let (entries, seen) ← layEntries lay seen rest
      pure ((name, first) :: entries, seen)

/-- Lays a value out after the objects in `seen`, and gives the objects seen with it.
Each level lays out an object that was not seen before. -/
def layWithin : Nat → List Value → Value → Run (Layout × List Value)
  | 0, _, _ => throw (.range .depth)
  | levels + 1, seen, value => do
      match simple? value with
      | some text => pure (.leaf text, seen)
      | none =>
          let graph ← get
          -- Functions take no number and are written anew wherever they stand.
          if graph.isCallable value then
            pure (.leaf (← functionText value), seen)
          else
            match seen.idxOf? value with
            | some position => pure (.visited position, seen)
            | none =>
                let seen := seen ++ [value]
                if graph.isDate value then
                  pure (.leaf (← dateText value), seen)
                else
                  match graph.arrayLength? value with
                  | some length =>
                      let (elements, seen) ←
                        layElements (layWithin levels) value seen (List.range length)
                      pure (.list elements, seen)
                  | none =>
                      if graph.isPlainRecord value then
                        let (entries, seen) ←
                          layEntries (layWithin levels) seen (← Run.listedEntries perform value)
                        pure (.record entries, seen)
                      else
                        pure (.leaf (← instanceText value), seen)

/-- As many levels as a graph has objects are enough for all of them, and one more for
the values inside the last; getters may make some more objects. -/
def levels (graph : Graph) : Nat :=
  graph.objects.size + depthLimit

def value (value : Value) : Run String := do
  let (layout, _) ← layWithin (levels (← get)) [] value
  pure layout.text

/-- The texts of the elements of an argument list, as what the list is mapped to.  Its
values share one numbering. -/
def mappedTexts (list : Value) : Run Value := do
  let levels := levels (← get)
  let transform (seen : List Value) (_ : Nat) (element : Value) : Run (Value × List Value) := do
    let (layout, seen) ← layWithin levels seen element
    pure (.string layout.text, seen)
  Run.mapList perform transform [] list (← Run.statedLength perform list)

/-- The texts of an argument list, mapped in its own way if it has one. -/
def textsIn (list : Value) : Run Value := do
  let map ← Run.step list "map"
  if map = .object BuiltinFunction.map.place then
    mappedTexts list
  else if (← get).isCallable map then
    Run.call map list [← Run.newFunction "" []]
  else
    throw (.use (.notFunction "args.map"))

/-- The text of a value as an argument list: the texts of its elements, joined. -/
def argumentsIn (list : Value) : Run String := do
  let texts ← textsIn list
  let joined ← Run.callMember perform texts "join" "args.map(...).join" [.string ", "]
  let inside ← Run.messageText perform (← Run.simplify perform .either joined)
  pure ("(" ++ inside ++ ")")

def arguments (values : List Value) : Run String := do
  argumentsIn (← Run.newArray (values.map some))

end Format

end ObjectPath
