import ObjectPath.Member

/-!
Members as values: records that describe a member.
-/

namespace ObjectPath

namespace FieldMember

/-- A new record of a field, with functions that read and write the field on their first
argument. -/
def record (member : FieldMember) : Run Value := do
  let getter ← Run.newFunction "get" [.return (.slot (.argument 0) member.name)]
  let setter ← Run.newFunction "set" [.assignOn (.argument 0) member.name (.argument 1)]
  Run.newRecord
    [(.name "kind", .string "field"), (.name "name", .string member.name),
      (.name "owner", member.owner), (.name "type", member.type),
      (.name "static", .boolean (member.scope == .onClass)),
      (.name "declared", .boolean member.declared), (.name "get", getter),
      (.name "set", setter)]

end FieldMember

namespace MethodMember

def record (member : MethodMember) : Run Value := do
  let function ← Run.newFunction "invoke" []
  Run.newRecord
    [(.name "kind", .string "method"), (.name "name", .string member.name),
      (.name "owner", member.owner), (.name "returnType", member.returnType),
      (.name "static", .boolean (member.scope == .onClass)),
      (.name "declared", .boolean member.declared), (.name "invoke", function)]

end MethodMember

def Member.record : Member → Run Value
  | .field member => member.record
  | .method member => member.record

end ObjectPath
