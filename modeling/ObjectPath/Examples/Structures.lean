import ObjectPath.Script

/-!
Structures without behaviour of their own: grids of numbers and trees.
-/

namespace ObjectPath.Examples

/-- Nested arrays, a field of the open type and an undeclared one. -/
def grid : ClassDefinition where
  identifier := "Grid"
  name := "Grid"
  parent := none
  failure := none
  requirement := none
  fields :=
    [⟨"cells", .onInstance, some ⟨"Number", 2⟩, none, .null⟩,
     ⟨"meta", .onInstance, some ⟨"Object", 0⟩, none, .null⟩,
     ⟨"free", .onInstance, none, none, .null⟩,
     ⟨"cube", .onInstance, some ⟨"Address", 3⟩, none, .null⟩]
  accessors := []
  methods := []

/-- A tree whose branches are fields and elements of arrays. -/
def tree : ClassDefinition where
  identifier := "Tree"
  name := "Tree"
  parent := none
  failure := none
  requirement := none
  fields :=
    [⟨"value", .onInstance, some ⟨"Number", 0⟩, some 0, .null⟩,
     ⟨"left", .onInstance, some ⟨"Tree", 0⟩, none, .null⟩,
     ⟨"right", .onInstance, some ⟨"Tree", 0⟩, none, .null⟩,
     ⟨"kids", .onInstance, some ⟨"Tree", 1⟩, none, .null⟩,
     ⟨"grid", .onInstance, some ⟨"Tree", 2⟩, none, .null⟩,
     ⟨"ROOT", .onClass, some ⟨"Tree", 0⟩, none, .null⟩]
  accessors := []
  methods :=
    [⟨"getLeft", .onInstance, .method [.type ⟨"Tree", 0⟩], [.return (.slot .receiver "left")]⟩,
     ⟨"setLeft", .onInstance, .none, [.assign "left" (.argument 0)]⟩,
     ⟨"getKids", .onInstance, .method [.type ⟨"Tree", 1⟩], [.return (.slot .receiver "kids")]⟩,
     ⟨"setKids", .onInstance, .method [.type ⟨"Object", 0⟩, .schema (.ofKind .array)],
       [.assign "kids" (.argument 0)]⟩,
     ⟨"self", .onInstance, .method [.type ⟨"Tree", 0⟩], [.return .receiver]⟩,
     ⟨"nth", .onInstance, .method [.type ⟨"Tree", 0⟩, .schema (.ofKind .number)],
       [.return (.elementAtArgument (.slot .receiver "kids") 0)]⟩]

end ObjectPath.Examples
