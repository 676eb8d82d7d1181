/-!
Types as scripts write them, and the two scopes of members.  In a graph a type is a
value: a class, or the type of the arrays over a component type.
-/

namespace ObjectPath

/-! ## Scopes -/

/-- Where a member lives: on the instances of a class or on the class itself. -/
inductive Scope
  | onInstance
  | onClass
  deriving DecidableEq, Repr

/-! ## Written types -/

/-- A type as it is written: a class identifier and a number of array dimensions. -/
structure TypeName where
  className : String
  dimensions : Nat
  deriving DecidableEq, Repr

/-- The type that a text names: each pair of brackets at the end is a dimension. -/
def TypeName.ofText (text : String) : TypeName :=
  strip text.toList.reverse 0
where
  /-- Takes the dimensions off the end of a text that is given backwards. -/
  strip : List Char → Nat → TypeName
    | ']' :: '[' :: rest, dimensions => strip rest (dimensions + 1)
    | rest, dimensions => ⟨String.ofList rest.reverse, dimensions⟩

end ObjectPath
