import ObjectPath.Lint.Tree

/-!
A lint rule for class declarations.  In a class that declares the type of at least
one property, every other public property must declare one too: an undeclared
property is of the open type, so filling a slot through it makes a plain record in
place of the intended class.

Each part of a program is a `Reading`, which fails if the part cannot be read; a fault
shows only when the rule comes to that part.
-/

namespace ObjectPath.Lint

/-! ## Programs and classes -/

inductive ImportedName
  | identifier (name : Tree)
  | literal (value : Tree)
  | other

inductive ImportSpecifier
  | named (imported : Reading ImportedName) (localName : Reading Tree)
  | other

inductive ProgramStatement
  | importFrom (source : Reading Tree) (specifiers : Reading (List (Reading ImportSpecifier)))
  | other

abbrev Program :=
  Reading (List (Reading ProgramStatement))

inductive MemberKey
  | identifier (name : Tree)
  | literal (value : Tree)
  | privateName
  | computed

/-- A decorator: a call of a name, or anything else. -/
inductive Decorator
  | callOf (name : Tree)
  | other

inductive Accessibility
  | everyone
  | members

structure PropertyNode where
  key : Reading MemberKey
  accessibility : Accessibility
  /-- Whether the property only tells the compiler about a slot made elsewhere. -/
  declareOnly : Bool
  decorators : Reading (List (Reading Decorator))

inductive ClassMember
  | property (node : PropertyNode)
  | other

structure ClassNode where
  name : Tree
  members : Reading (List (Reading ClassMember))

/-! ## Finding the decorator -/

/-- The package whose decorator declares property types. -/
def packageName : String :=
  "pathwise"

/-- The name under which the package exports the decorator. -/
def decoratorName : String :=
  "field"

def ImportedName.isDecorator : ImportedName → Bool
  | .identifier name => name.isText decoratorName
  | .literal value => value.isText decoratorName
  | .other => false

/-- The local name that an import list gives the decorator. -/
def localName? : List (Reading ImportSpecifier) → Reading (Option Tree)
  | [] => .ok none
  | specifier :: rest => do
      match ← specifier with
      | .named imported localName =>
          if (← imported).isDecorator then do .ok (some (← localName)) else localName? rest
      | .other => localName? rest

/-- The local name of the decorator in a program: that of its first import. -/
def findImport : List (Reading ProgramStatement) → Reading (Option Tree)
  | [] => .ok none
  | statement :: rest => do
      match ← statement with
      | .importFrom source specifiers =>
          if (← source).isText packageName then
            match ← localName? (← specifiers) with
            | some name => .ok (some name)
            | none => findImport rest
          else
            findImport rest
      | .other => findImport rest

/-! ## Checking classes -/

/-- A property without a declared type: the position of the member, its name and the
name of its class. -/
structure Report where
  position : Nat
  name : Tree
  className : Tree

def hasCallOf (localName : Tree) : List (Reading Decorator) → Reading Bool
  | [] => .ok false
  | decorator :: rest => do
      match ← decorator with
      | .callOf name => if name.same localName then .ok true else hasCallOf localName rest
      | .other => hasCallOf localName rest

namespace PropertyNode

def isDeclared (property : PropertyNode) (localName : Tree) : Reading Bool := do
  hasCallOf localName (← property.decorators)

def name (property : PropertyNode) : Reading Tree := do
  match ← property.key with
  | .identifier name => .ok name
  | .literal value => do .ok (.text (← value.shown))
  | _ => .ok (.text "(computed)")

/-- Whether a property needs a declared type and has none. -/
def isMissing (property : PropertyNode) (localName : Tree) : Reading Bool := do
  match ← property.key, property.accessibility with
  | .privateName, _ => .ok false
  | _, .members => .ok false
  | _, .everyone =>
      if property.declareOnly then .ok false else do .ok !(← property.isDeclared localName)

end PropertyNode

/-- The properties among members, with their positions from a number on. -/
def propertiesFrom : Nat → List (Reading ClassMember) → Reading (List (Nat × PropertyNode))
  | _, [] => .ok []
  | position, member :: rest => do
      let first := match ← member with
        | .property property => [(position, property)]
        | .other => []
      let later ← propertiesFrom (position + 1) rest
      .ok (first ++ later)

def properties (node : ClassNode) : Reading (List (Nat × PropertyNode)) := do
  propertiesFrom 0 (← node.members)

def anyDeclared (localName : Tree) : List (Nat × PropertyNode) → Reading Bool
  | [] => .ok false
  | (_, property) :: rest => do
      if ← property.isDeclared localName then .ok true else anyDeclared localName rest

def reportsOn (localName className : Tree) : List (Nat × PropertyNode) → Reading (List Report)
  | [] => .ok []
  | (position, property) :: rest => do
      if ← property.isMissing localName then
        let name ← property.name
        let later ← reportsOn localName className rest
        .ok (⟨position, name, className⟩ :: later)
      else
        reportsOn localName className rest

def ClassNode.shownName (node : ClassNode) : Tree :=
  if node.name.isMissing then .text "(anonymous)" else node.name

/-- The reports on a class, in order of its members. -/
def checkWith (localName : Tree) (node : ClassNode) : Reading (List Report) := do
  let found ← properties node
  if ← anyDeclared localName found then
    reportsOn localName node.shownName found
  else
    .ok []

/-- The reports on a class when the decorator has a local name, and none otherwise. -/
def check (localName : Option Tree) (node : ClassNode) : Reading (List Report) :=
  match localName with
  | none => .ok []
  | some name => if name.isTruthy then checkWith name node else .ok []

def checkFrom (localName : Option Tree) : Nat → List ClassNode → Reading (List (Nat × Report))
  | _, [] => .ok []
  | number, node :: rest => do
      let reports ← check localName node
      let later ← checkFrom localName (number + 1) rest
      .ok (reports.map (fun report => (number, report)) ++ later)

def checkAll (program : Option Program) (classes : List ClassNode) :
    Reading (List (Nat × Report)) := do
  let localName ← match program with
    | some statements => findImport (← statements)
    | none => .ok none
  checkFrom localName 0 classes

/-! ## Description of the rule -/

/-- How the rule presents itself. -/
structure RuleDescription where
  pluginName : String
  version : String
  ruleName : String
  type : String
  description : String
  url : String
  messageId : String
  message : String
  severity : String

def description : RuleDescription where
  pluginName := packageName
  version := "0.1.0"
  ruleName := "require-field-type"
  type := "suggestion"
  description := "Require @field on public properties of classes that declare field types"
  url := "https://www.npmjs.com/package/pathwise#require-field-type"
  messageId := "missingFieldType"
  message := "Property \"\x7b\x7bname\x7d\x7d\" on \"\x7b\x7bclassName\x7d\x7d\" has no @field " ++
    "type; path expressions will treat it as Object."
  severity := "warn"

end ObjectPath.Lint
