import ObjectPath.Script

/-!
A service: methods with every kind of parameter.
-/

namespace ObjectPath.Examples

/-- A service that answers with the arguments it was given. -/
def service : ClassDefinition where
  identifier := "Service"
  name := "Service"
  parent := none
  failure := none
  requirement := none
  fields :=
    [⟨"log", .onInstance, none, none, .null⟩,
     ⟨"item", .onInstance, none, none, .null⟩]
  accessors := []
  methods :=
    [⟨"add", .onInstance,
       .method [.type ⟨"Number", 0⟩, .schema (.ofKind .number), .schema (.ofKind .number)],
       [.return .arguments]⟩,
     ⟨"echo", .onInstance, .none, [.return .arguments]⟩,
     ⟨"bareEcho", .onInstance, .bareMethod, [.return .arguments]⟩,
     ⟨"upper", .onInstance, .method [.type ⟨"String", 0⟩, .schema .upperCase],
       [.return .arguments]⟩,
     ⟨"toInt", .onInstance, .method [.type ⟨"Number", 0⟩, .schema .integerText],
       [.return .arguments]⟩,
     ⟨"multi", .onInstance,
       .method [.type ⟨"Object", 0⟩, .schema (.reject ["bad one", "bad two"]),
       .schema (.ofKind .string)], [.return .arguments]⟩,
     ⟨"dropped", .onInstance,
       .method [.type ⟨"Object", 0⟩, .schema .rejectSilently, .schema .anything],
       [.return .arguments]⟩,
     ⟨"later", .onInstance, .method [.type ⟨"Object", 0⟩, .schema .deferred], [.return .arguments]⟩,
     ⟨"defaulted", .onInstance,
       .method [.type ⟨"Object", 0⟩, .schema (.replaceUndefined (.string "dflt"))],
       [.return .arguments]⟩,
     ⟨"explodes", .onInstance, .method [.type ⟨"Object", 0⟩, .schema (.failing "schema failed")],
       [.return .arguments]⟩,
     ⟨"schemaOnly", .onInstance, .method [.schema (.ofKind .string)], [.return .arguments]⟩,
     ⟨"junk", .onInstance,
       .method [.type ⟨"String", 0⟩, .other (.number (.ofNat 5)), .type ⟨"Number", 0⟩,
       .schema (.ofKind .string), .other (.record [])], [.return .arguments]⟩,
     ⟨"noType", .onInstance, .method [], [.return .arguments]⟩,
     ⟨"typedList", .onInstance, .method [.type ⟨"Address", 1⟩], [.return (.constant .null)]⟩,
     ⟨"fail", .onInstance, .method [.type ⟨"String", 0⟩], [.raise "service down"]⟩,
     ⟨"failValue", .onInstance, .none, [.raiseValue (.number (.ofNat 42))]⟩,
     ⟨"getItem", .onInstance, .method [.type ⟨"Address", 0⟩], [.return (.slot .receiver "item")]⟩,
     ⟨"setItem", .onInstance,
       .method [.type ⟨"Object", 0⟩, .schema (.nullable (.instanceOf "Address"))],
       [.assign "item" (.argument 0)]⟩,
     ⟨"getNoSetter", .onInstance, .method [.type ⟨"Address", 0⟩], [.return (.constant .null)]⟩,
     ⟨"get", .onInstance, .none, [.return (.slot .receiver "log")]⟩,
     ⟨"set", .onInstance, .none, [.assign "log" (.argument 0)]⟩,
     ⟨"getting", .onInstance, .none, [.return (.constant (.string "getting!"))]⟩,
     ⟨"setting", .onInstance, .none,
       [.assign "log" (.text [.constant (.string "ting:"), .argument 0])]⟩,
     ⟨"getUpper", .onInstance, .none, [.return (.slot .receiver "log")]⟩,
     ⟨"setUpper", .onInstance, .method [.type ⟨"Object", 0⟩, .schema .upperCase],
       [.assign "log" (.argument 0)]⟩,
     ⟨"Getter", .onInstance, .none, [.return (.constant (.number (.ofNat 1)))]⟩]

/-- A class without a name. -/
def anonymous : ClassDefinition where
  identifier := "Anon"
  name := ""
  parent := none
  failure := none
  requirement := none
  fields :=
    [⟨"x", .onInstance, some ⟨"Number", 0⟩, none, .number (.ofNat 1)⟩,
     ⟨"KEY", .onClass, some ⟨"String", 0⟩, none, .string "k"⟩]
  accessors := []
  methods := []

end ObjectPath.Examples
