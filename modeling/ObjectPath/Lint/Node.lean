import ObjectPath.Lint

/-!
The programs and classes that syntax trees are.  The part `type` of a node tells its
kind.
-/

namespace ObjectPath.Lint

/-! ## Imports -/

def ImportedName.ofTree (tree : Tree) : Reading ImportedName := do
  let kind ← tree.part "type"
  if kind.isText "Identifier" then
    .ok (.identifier (← tree.part "name"))
  else if kind.isText "Literal" then
    .ok (.literal (← tree.part "value"))
  else
    .ok .other

def ImportSpecifier.ofTree (tree : Tree) : Reading ImportSpecifier := do
  if (← tree.part "type").isText "ImportSpecifier" then
    let imported := tree.part "imported" >>= ImportedName.ofTree
    .ok (.named imported (tree.part "local" >>= (·.part "name")))
  else
    .ok .other

def ProgramStatement.ofTree (tree : Tree) : Reading ProgramStatement := do
  if (← tree.part "type").isText "ImportDeclaration" then
    let specifiers := tree.part "specifiers" >>= Tree.items "stmt.specifiers"
    .ok (.importFrom (tree.part "source" >>= (·.part "value"))
      (specifiers.map (·.map ImportSpecifier.ofTree)))
  else
    .ok .other

def Program.ofTree (tree : Tree) : Program :=
  (tree.part "body" >>= Tree.items "program.body").map (·.map ProgramStatement.ofTree)

/-! ## Classes -/

def Decorator.ofTree (tree : Tree) : Reading Decorator := do
  let expression ← tree.part "expression"
  if (← expression.part "type").isText "CallExpression" then
    let callee ← expression.part "callee"
    if (← callee.part "type").isText "Identifier" then
      .ok (.callOf (← callee.part "name"))
    else
      .ok .other
  else
    .ok .other

def MemberKey.ofTree (tree : Tree) : Reading MemberKey := do
  let kind ← tree.part "type"
  if kind.isText "Identifier" then
    .ok (.identifier (← tree.part "name"))
  else if kind.isText "Literal" then
    .ok (.literal (← tree.part "value"))
  else if kind.isText "PrivateIdentifier" then
    .ok .privateName
  else
    .ok .computed

/-- Who may use a member whose accessibility a tree gives. -/
def Accessibility.ofTree (tree : Tree) : Accessibility :=
  if tree.isText "private" || tree.isText "protected" then .members else .everyone

def ClassMember.ofTree (tree : Tree) : Reading ClassMember := do
  if (← tree.part "type").isText "PropertyDefinition" then
    let decorators := tree.part "decorators" >>= Tree.itemsBy "some" "node.decorators"
    .ok (.property
      { key := tree.part "key" >>= MemberKey.ofTree
        accessibility := .ofTree (← tree.part "accessibility")
        declareOnly := (← tree.part "declare").isTruthy
        decorators := decorators.map (·.map Decorator.ofTree) })
  else
    .ok .other

def membersOf (tree : Tree) : Reading (List (Reading ClassMember)) := do
  let body ← (← tree.part "body").part "body"
  .ok ((← body.itemsBy "filter" "node.body.body").map ClassMember.ofTree)

def ClassNode.ofTree (tree : Tree) : ClassNode where
  name := ((tree.part "id" >>= (·.part "name")).toOption).getD .absent
  members := membersOf tree

end ObjectPath.Lint
