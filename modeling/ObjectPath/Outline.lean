import ObjectPath.Typing

/-!
Outlines: values written out as trees.  Objects are numbered in order of first
visit, an object before its contents; a later visit to one is its number.  Functions,
types, paths and predicates are not numbered, and names are kept as they are found.
-/

namespace ObjectPath

/-- A value as a tree. -/
inductive Outline
  /-- A value that is no object. -/
  | simple (value : Value)
  | visited (number : Nat)
  | date (time : Value)
  | list (elements : List (Option Outline))
  /-- The slots of a record that has the members of every object. -/
  | record (entries : List (String × Outline))
  /-- The slots of a record without a parent. -/
  | bareRecord (entries : List (String × Outline))
  /-- The slots of an instance, and the name of its class. -/
  | instanceOf (className : Value) (entries : List (String × Outline))
  /-- A class or another function, by its name. -/
  | function (isClass : Bool) (name : Value)
  | arrayType (name : Value)
  | path (source : Value)
  | predicate (text : Value)

instance : Inhabited Outline :=
  ⟨.visited 0⟩

namespace Outline

/-- The outlines of the elements of an array at positions, with the objects seen up to
their end. -/
def ofElements (outline : List Value → Value → Run (Outline × List Value)) (array : Value)
    (seen : List Value) : List Nat → Run (List (Option Outline) × List Value)
  | [] => pure ([], seen)
  | position :: rest => do
      let key := Key.ofIndex position
      if (← get).has array key then
        let (first, seen) ← outline seen (← Run.readWith perform array key)
        let (outlines, seen) ← ofElements outline array seen rest
        pure (some first :: outlines, seen)
      else
        let (outlines, seen) ← ofElements outline array seen rest
        pure (none :: outlines, seen)

def ofEntries (outline : List Value → Value → Run (Outline × List Value)) (seen : List Value) :
    List (String × Value) → Run (List (String × Outline) × List Value)
  | [] => pure ([], seen)
  | (name, value) :: rest => do
      let (first, seen) ← outline seen value
      let (outlines, seen) ← ofEntries outline seen rest
      pure ((name, first) :: outlines, seen)

/-- An object with slots: a record, or an instance of the class that its parent finds as
its `constructor`. -/
def ofSlots (value : Value) (entries : List (String × Outline)) : Run Outline := do
  match (← get).parentOf value with
  | none => pure (.bareRecord entries)
  | some place =>
      if place = BuiltinClass.object.sharedPlace then
        pure (.record entries)
      else
        let owner ← Run.read (.object place) "constructor"
        let name ← if owner.isMissing then pure .undefined else Run.step owner "name"
        pure (.instanceOf name entries)

/-- The outline of a value after the objects in `seen`, and the objects seen with it.
Each level enters an object that was not seen before. -/
def ofValueWithin : Nat → List Value → Value → Run (Outline × List Value)
  | 0, _, _ => throw (.range .depth)
  | levels + 1, seen, value => do
      let graph ← get
      if !value.isObject then
        pure (.simple value, seen)
      -- Functions, types, paths and predicates take no number.
      else if graph.isCallable value then
        let isClass ← Run.isConstructor value
        pure (.function isClass (← Run.step value "name"), seen)
      else if graph.isArrayType value then
        pure (.arrayType (← Run.typeName value), seen)
      else if graph.isPath value then
        pure (.path (← Run.read value "source"), seen)
      else if graph.isPredicate value then
        pure (.predicate (← Run.callMember perform value "toString" "v.toString" []), seen)
      else
        match seen.idxOf? value with
        | some number => pure (.visited number, seen)
        | none =>
            let seen := seen ++ [value]
            if graph.isDate value then
              pure (.date (← Run.callMember perform value "getTime" "v.getTime" []), seen)
            else
              match graph.arrayLength? value with
              | some length =>
                  let (elements, seen) ←
                    ofElements (ofValueWithin levels) value seen (List.range length)
                  pure (.list elements, seen)
              | none =>
                  let (entries, seen) ←
                    ofEntries (ofValueWithin levels) seen (← Run.listedEntries perform value)
                  pure (← ofSlots value entries, seen)

/-- The outline of a value.  As many levels as there are objects are enough for all of
them, and one more for the values inside the last; getters may make some more objects. -/
def ofValue (value : Value) : Run Outline := do
  let (outline, _) ← ofValueWithin ((← get).objects.size + depthLimit) [] value
  pure outline

end Outline

end ObjectPath
