import ObjectPath.Evaluation

/-!
Reading and writing many paths on one root.
-/

namespace ObjectPath.Session

/-- The value of every path, entered under its text in order. -/
def getAll (compiler : Nat) (root : Value) (options : EvaluateOptions) :
    List String → List (String × Value) → Session (List (String × Value))
  | [], values => pure values
  | text :: rest, values => do
      let path ← compile compiler text
      let value ← getValue path root options
      getAll compiler root options rest (Entries.put values text value)

/-- Writes each value at its path in order, so that earlier entries can make what later
ones write into. -/
def setAll (compiler : Nat) (root : Value) (options : EvaluateOptions) :
    List (String × Value) → Session Unit
  | [] => pure ()
  | (text, value) :: rest => do
      let path ← compile compiler text
      setValue path root value options
      setAll compiler root options rest

/-- Entries in the order in which a record with them is read. -/
def recordOrder (entries : List (String × Value)) : List (String × Value) :=
  (Key.arrange (Entries.ofList (entries.map fun entry => (Key.ofText entry.1, entry.2)))).map
    fun slot => (slot.1.text, slot.2)

end ObjectPath.Session
