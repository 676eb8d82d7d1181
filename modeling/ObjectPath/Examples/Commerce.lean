import ObjectPath.Script

/-!
Money and shopping carts: a method `equals`, and accessors of every kind.
-/

namespace ObjectPath.Examples

/-- An amount that is equal to any of the same number of cents. -/
def money : ClassDefinition where
  identifier := "Money"
  name := "Money"
  parent := none
  failure := none
  requirement := none
  fields :=
    [⟨"cents", .onInstance, some ⟨"Number", 0⟩, some 0, .number (.ofNat 0)⟩]
  accessors := []
  methods :=
    [⟨"equals", .onInstance, .none,
       [.return (.identical (.slot (.argument 0) "cents") (.slot .receiver "cents"))]⟩]

/-- A cart whose slots are read and written through accessors. -/
def cart : ClassDefinition where
  identifier := "Cart"
  name := "Cart"
  parent := none
  failure := none
  requirement := none
  fields :=
    [⟨"_label", .onInstance, none, none, .null⟩,
     ⟨"_reads", .onInstance, none, none, .number (.ofNat 0)⟩,
     ⟨"_addr", .onInstance, none, none, .null⟩,
     ⟨"_sunk", .onInstance, none, none, .null⟩]
  accessors :=
    [⟨"total", .onInstance, .none, some [.return (.constant (.number (.ofNat 3)))], none⟩,
     ⟨"label", .onInstance, .field (.type ⟨"String", 0⟩),
       some [.increment "_reads", .return (.slot .receiver "_label")],
       some [.assign "_label" (.text [.constant (.string "<"), .argument 0,
       .constant (.string ">")])]⟩,
     ⟨"addr", .onInstance, .field (.type ⟨"Address", 0⟩),
       some [.increment "_reads", .return (.slot .receiver "_addr")],
       some [.assign "_addr" (.argument 0)]⟩,
     ⟨"plain", .onInstance, .none, some [.increment "_reads", .return (.slot .receiver "_addr")],
       some [.assign "_addr" (.argument 0)]⟩,
     ⟨"sink", .onInstance, .none, none, some [.assign "_sunk" (.argument 0)]⟩,
     ⟨"bareTotal", .onInstance, .bareMethod, some [.return (.constant (.number (.ofNat 7)))], none⟩,
     ⟨"fnGetter", .onInstance, .none,
       some [.return (.function "inner" [.return (.constant (.string "called"))])], none⟩,
     ⟨"boom", .onInstance, .none, some [.raise "getter failed"], some [.raise "setter failed"]⟩,
     ⟨"VERSION", .onClass, .none, some [.return (.constant (.string "v1"))], none⟩,
     ⟨"MODE", .onClass, .field (.type ⟨"String", 0⟩), some [.return (.constant .null)],
       some [.raise "static setter failed"]⟩]
  methods := []

end ObjectPath.Examples
