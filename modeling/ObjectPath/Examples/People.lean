import ObjectPath.Script

/-!
People and where they live.  People have fields, methods that read and write
them, and members of the class itself; employees declare some of them anew.
-/

namespace ObjectPath.Examples

/-- A state and a country. -/
def address : ClassDefinition where
  identifier := "Address"
  name := "Address"
  parent := none
  failure := none
  requirement := none
  fields :=
    [⟨"state", .onInstance, some ⟨"String", 0⟩, none, .null⟩,
     ⟨"country", .onInstance, some ⟨"String", 0⟩, none, .null⟩]
  accessors := []
  methods := []

/-- A person with addresses, a home and phones. -/
def person : ClassDefinition where
  identifier := "Person"
  name := "Person"
  parent := none
  failure := none
  requirement := none
  fields :=
    [⟨"NAME", .onClass, some ⟨"String", 0⟩, none, .string "foo"⟩,
     ⟨"NULL", .onClass, some ⟨"String", 0⟩, none, .null⟩,
     ⟨"ADDRESS", .onClass, some ⟨"Address", 0⟩, none, .create "Address" [] []⟩,
     ⟨"LIST", .onClass, some ⟨"Address", 1⟩, none, .null⟩,
     ⟨"count", .onClass, none, none, .number (.ofNat 0)⟩,
     ⟨"name", .onInstance, some ⟨"String", 0⟩, some 0, .null⟩,
     ⟨"addresses", .onInstance, some ⟨"Address", 1⟩, some 1, .null⟩,
     ⟨"home", .onInstance, some ⟨"Address", 0⟩, none, .null⟩,
     ⟨"nickname", .onInstance, none, none, .string ""⟩,
     ⟨"_phones", .onInstance, none, none, .null⟩]
  accessors := []
  methods :=
    [⟨"getName", .onInstance, .method [.type ⟨"String", 0⟩], [.return (.slot .receiver "name")]⟩,
     ⟨"setName", .onInstance, .none, [.assign "name" (.argument 0)]⟩,
     ⟨"getPhones", .onInstance, .method [.type ⟨"String", 1⟩],
       [.return (.slot .receiver "_phones")]⟩,
     ⟨"setPhones", .onInstance, .none, [.assign "_phones" (.argument 0)]⟩,
     ⟨"hasPhone", .onInstance, .method [.type ⟨"Boolean", 0⟩, .schema (.ofKind .string)],
       [.return (.contains (.slot .receiver "_phones") (.argument 0))]⟩,
     ⟨"greet", .onInstance, .method [.type ⟨"String", 0⟩, .schema (.ofKind .string)],
       [.return (.text [.argument 0, .constant (.string ", "), .slot .receiver "name"])]⟩,
     ⟨"primaryAddress", .onInstance, .method [.type ⟨"Address", 0⟩],
       [.return (.firstPresent (.element (.slot .receiver "addresses") 0) (.constant .null))]⟩,
     ⟨"getDefaultName", .onClass, .method [.type ⟨"String", 0⟩],
       [.return (.slot (.constant (.type ⟨"Person", 0⟩)) "NAME")]⟩,
     ⟨"setDefaultName", .onClass, .none,
       [.assignOn (.constant (.type ⟨"Person", 0⟩)) "NAME" (.argument 0)]⟩,
     ⟨"lowercaseName", .onClass,
       .method [.type ⟨"String", 0⟩, .schema (.nullable (.instanceOf "Person"))],
       [.return (.firstPresent (.lowerCase (.slot (.argument 0) "name")) (.constant .null))]⟩]

/-- A person with a salary and a boss. -/
def employee : ClassDefinition where
  identifier := "Employee"
  name := "Employee"
  parent := some "Person"
  failure := none
  requirement := none
  fields :=
    [⟨"DEPT", .onClass, some ⟨"String", 0⟩, none, .string "eng"⟩,
     ⟨"NULL", .onClass, some ⟨"Address", 0⟩, none, .null⟩,
     ⟨"salary", .onInstance, some ⟨"Number", 0⟩, none, .number (.ofNat 0)⟩,
     ⟨"boss", .onInstance, some ⟨"Employee", 0⟩, none, .null⟩,
     ⟨"home", .onInstance, some ⟨"Object", 0⟩, none, .null⟩,
     ⟨"nickname", .onInstance, none, none, .string "emp"⟩]
  accessors := []
  methods :=
    [⟨"badge", .onInstance, .none, [.return (.constant (.string "E"))]⟩,
     ⟨"greet", .onInstance,
       .method [.type ⟨"String", 0⟩, .schema (.ofKind .string), .schema (.ofKind .string)],
       [.return (.text [.argument 0, .constant (.string "/"), .argument 1, .constant (.string "/"),
       .slot .receiver "name"])]⟩,
     ⟨"getName", .onInstance, .none,
       [.return (.text [.constant (.string "emp:"), .slot .receiver "name"])]⟩,
     ⟨"getPhones", .onInstance, .method [.type ⟨"Object", 0⟩],
       [.return (.slot .receiver "_phones")]⟩,
     ⟨"getDept", .onClass, .bareMethod,
       [.return (.slot (.constant (.type ⟨"Employee", 0⟩)) "DEPT")]⟩]

end ObjectPath.Examples
