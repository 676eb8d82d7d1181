import ObjectPath.Type
import ObjectPath.Value

/-!
Scripts: what the methods, accessors and constructors of a class do.  A template
describes a value that is built anew each time, an expression computes a value
and a statement acts.
-/

namespace ObjectPath

/-! ## Templates, expressions, statements -/

mutual

/-- A description of a value.  Building it twice gives two distinct objects. -/
inductive Template
  | undefined
  | null
  | boolean (value : Bool)
  | number (value : Number)
  | bigint (value : Int)
  | string (value : String)
  /-- A symbol of its own at each building. -/
  | symbol (description : Option String)
  /-- A date; a time that is missing or out of range makes an invalid one. -/
  | date (milliseconds : Option Number)
  /-- An array; the elements that are `hole` are left out. -/
  | array (elements : List Template)
  | hole
  /-- A record that has the members of every object. -/
  | record (entries : List (String × Template))
  /-- A record without any members but its own slots. -/
  | bareRecord (entries : List (String × Template))
  | frozen (content : Template)
  /-- A new instance of a class, and slots defined on it afterwards. -/
  | create (className : String) (arguments : List Template)
      (slots : List (String × Template))
  | function (name : String) (body : List Statement)
  | type (name : TypeName)
  /-- The value that a name stands for. -/
  | variable (name : String)

/-- A computation inside a body. -/
inductive Expression
  | receiver
  | argument (position : Nat)
  | arguments
  | constant (content : Template)
  /-- A slot of a value; undefined if the value is missing. -/
  | slot (owner : Expression) (name : String)
  /-- An element of an array; undefined for anything else. -/
  | element (owner : Expression) (position : Nat)
  /-- The element of an array that a numeric argument names. -/
  | elementAtArgument (owner : Expression) (argument : Nat)
  | firstPresent (first second : Expression)
  | identical (left right : Expression)
  | text (parts : List Expression)
  | lowerCase (content : Expression)
  | contains (owner item : Expression)
  | function (name : String) (body : List Statement)

inductive Statement
  | return (result : Expression)
  | assign (name : String) (content : Expression)
  | assignOn (owner : Expression) (name : String) (content : Expression)
  | increment (name : String)
  | raise (message : String)
  | raiseValue (content : Template)

end

instance : Inhabited Template :=
  ⟨.undefined⟩

instance : Inhabited Expression :=
  ⟨.receiver⟩

instance : Inhabited Statement :=
  ⟨.return .receiver⟩

/-! ## Schemas and producers -/

inductive Schema
  | ofKind (kind : Kind)
  | anything
  /-- Accepts a string and gives its upper case. -/
  | upperCase
  /-- Accepts the text of an integer and gives the number. -/
  | integerText
  /-- Rejects without giving a reason. -/
  | rejectSilently
  /-- Answers later, which no path evaluation can wait for. -/
  | deferred
  | nullable (content : Schema)
  | instanceOf (className : String)
  | reject (reasons : List String)
  | replaceUndefined (content : Template)
  | failing (message : String)
  /-- An object that says by its own function what it accepts. -/
  | custom (content : Value)
  deriving Inhabited

/-- How a factory makes a value of one type. -/
inductive Producer
  | constant (content : Template)
  /-- The argument of a key if there is one, else a value. -/
  | argumentOr (key : String) (otherwise : Template)
  /-- A new instance of a class made from the argument of a key. -/
  | createFrom (className : String) (key : String)
  | raise (message : String)
  | raiseValue (content : Template)
  /-- Fails like a constructor of the type. -/
  | failCreating (typeName : String)

/-! ## Class definitions -/

/-- A condition on one constructor argument. -/
structure Requirement where
  position : Nat
  kindName : String
  message : String

/-- An own slot that a constructor defines: the argument at `position` if there is
one and it is not undefined, else the initial value. -/
structure FieldSetup where
  name : String
  position : Option Nat
  initial : Template

/-- An argument of a method declaration.  Anything but a type or a schema is ignored. -/
inductive DeclarationArgument
  | type (name : TypeName)
  | schema (content : Schema)
  | other (content : Template)

inductive Decoration
  | none
  | field (argument : Template)
  /-- Declares a method of the open type without parameters. -/
  | bareMethod
  | method (arguments : List DeclarationArgument)

structure FieldDefinition where
  name : String
  scope : Scope
  type : Option TypeName
  position : Option Nat
  initial : Template

structure AccessorDefinition where
  name : String
  scope : Scope
  decoration : Decoration
  getter : Option (List Statement)
  setter : Option (List Statement)

structure MethodDefinition where
  name : String
  scope : Scope
  decoration : Decoration
  body : List Statement

/-- A class as it is written. -/
structure ClassDefinition where
  identifier : String
  name : String
  parent : Option String
  failure : Option Statement
  requirement : Option Requirement
  fields : List FieldDefinition
  accessors : List AccessorDefinition
  methods : List MethodDefinition

end ObjectPath
