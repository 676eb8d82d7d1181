import ObjectPath.Script

/-!
Classes whose constructors fail, and one with fields of such types.
-/

namespace ObjectPath.Examples

/-- A class that demands a text. -/
def strict : ClassDefinition where
  identifier := "Strict"
  name := "Strict"
  parent := none
  failure := none
  requirement := some ⟨0, "string", "id is required"⟩
  fields :=
    [⟨"id", .onInstance, none, some 0, .null⟩]
  accessors := []
  methods := []

/-- A class whose constructor always fails. -/
def broken : ClassDefinition where
  identifier := "Broken"
  name := "Broken"
  parent := none
  failure := some (.raise "broken constructor")
  requirement := none
  fields :=
    [⟨"x", .onInstance, none, none, .number (.ofNat 1)⟩]
  accessors := []
  methods := []

/-- A class whose constructor raises a text. -/
def brokenValue : ClassDefinition where
  identifier := "BrokenValue"
  name := "BrokenValue"
  parent := none
  failure := some (.raiseValue (.string "just a string"))
  requirement := none
  fields := []
  accessors := []
  methods := []

/-- Fields of types that can and cannot be made. -/
def holder : ClassDefinition where
  identifier := "Holder"
  name := "Holder"
  parent := none
  failure := none
  requirement := none
  fields :=
    [⟨"strict", .onInstance, some ⟨"Strict", 0⟩, none, .null⟩,
     ⟨"broken", .onInstance, some ⟨"Broken", 0⟩, none, .null⟩,
     ⟨"brokenValue", .onInstance, some ⟨"BrokenValue", 0⟩, none, .null⟩,
     ⟨"any", .onInstance, some ⟨"Object", 0⟩, none, .null⟩,
     ⟨"list", .onInstance, some ⟨"Object", 1⟩, none, .null⟩,
     ⟨"arr", .onInstance, some ⟨"Array", 0⟩, none, .null⟩,
     ⟨"str", .onInstance, some ⟨"String", 0⟩, none, .null⟩,
     ⟨"num", .onInstance, some ⟨"Number", 0⟩, none, .null⟩,
     ⟨"bool", .onInstance, some ⟨"Boolean", 0⟩, none, .null⟩,
     ⟨"strs", .onInstance, some ⟨"String", 1⟩, none, .null⟩,
     ⟨"undef", .onInstance, some ⟨"Address", 0⟩, none, .undefined⟩,
     ⟨"stricts", .onInstance, some ⟨"Strict", 1⟩, none, .null⟩]
  accessors := []
  methods := []

end ObjectPath.Examples
