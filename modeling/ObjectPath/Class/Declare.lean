import ObjectPath.Typing

/-!
Declarations.  Values carry no declared types, so classes record them: the type
of a field, or the return type and the parameter schemas of a method.  The
declarations of a class are entered under its own place, for each scope.
-/

namespace ObjectPath

/-! ## Entering declarations -/

def Scope.update {α : Type} (scope : Scope) (table : Scope → α) (change : α → α) : Scope → α :=
  fun other => if other = scope then change (table other) else table other

namespace Declarations

/-- Enters a field declaration; the last one of a name counts. -/
def declareField (declarations : Declarations) (scope : Scope) (field : FieldDeclaration) :
    Declarations :=
  { declarations with
    fields := scope.update declarations.fields (Entries.put · field.name field) }

def declareMethod (declarations : Declarations) (scope : Scope) (method : MethodDeclaration) :
    Declarations :=
  { declarations with
    methods := scope.update declarations.methods (Entries.put · method.name method) }

end Declarations

namespace Graph

def declare (graph : Graph) (place : Nat) (change : Declarations → Declarations) : Graph :=
  { graph with
    declarations := Entries.put graph.declarations place (change (graph.declarationsAt place)) }

def declareField (graph : Graph) (place : Nat) (scope : Scope) (field : FieldDeclaration) :
    Graph :=
  graph.declare place (·.declareField scope field)

def declareMethod (graph : Graph) (place : Nat) (scope : Scope)
    (method : MethodDeclaration) : Graph :=
  graph.declare place (·.declareMethod scope method)

end Graph

namespace Run

/-! ## Owners -/

/-- The place of the class under which a declaration is entered, and its scope.  What is
declared on a class itself belongs to that class; what is declared on the object that
its instances share belongs to what that object finds as its `constructor`. -/
def declarationOwner (target : Value) : Run (Nat × Scope) := do
  let (owner, scope) ← if (← get).isCallable target then pure (target, Scope.onClass)
    else pure (← step target "constructor", Scope.onInstance)
  match owner with
  | .object place => pure (place, scope)
  | _ => throw (.use .undeclarable)

def declareField (target : Value) (name : String) (type : Value) : Run Unit := do
  let (place, scope) ← declarationOwner target
  modify (·.declareField place scope ⟨name, type⟩)

def declareMethod (target : Value) (name : String) (returnType : Value)
    (schemas : List Schema) : Run Unit := do
  let (place, scope) ← declarationOwner target
  modify (·.declareMethod place scope ⟨name, returnType, schemas⟩)

/-! ## Decorations -/

/-- The type that a value is; anything else is no declaration of a field. -/
def fieldType (value : Value) : Run Value := do
  if ← isType value then pure value else throw .undeclaredType

/-- The slot in which an object keeps what makes it a schema. -/
def schemaSlot : String :=
  "~standard"

def schemaOf? (value : Value) : Run (Option Schema) := do
  let graph ← get
  if graph.kind value = .object && value != .null && graph.has value (.ofText schemaSlot) then
    let content ← read value schemaSlot
    pure (if (← get).kind content = .object then some (.custom value) else none)
  else
    pure none

/-- An argument of a method declaration as a value, unless it is a schema by itself. -/
def argumentValue? : DeclarationArgument → Run (Option Value)
  | .type name => typeNamed? name
  | .schema _ => pure none
  | .other content => do pure (some (← build content))

def schemasOf : List (DeclarationArgument × Option Value) → Run (List Schema)
  | [] => pure []
  | (argument, value?) :: rest => do
      let schema? ← match argument, value? with
        | .schema content, _ => pure (some content)
        | _, some value => schemaOf? value
        | _, none => pure none
      let schemas ← schemasOf rest
      pure (schema?.toList ++ schemas)

/-- The return type of a method declaration: its first argument, if that is a type. -/
def returnTypeOf : List (DeclarationArgument × Option Value) → Run Value
  | (_, some value) :: _ => do
      if ← isType value then pure value else pure openType
  | _ => pure openType

/-- The holder and the name for which the arguments of a method declaration are a
declaration by themselves: a holder of members, a name, and a record of a value or a
getter. -/
def directTarget? (graph : Graph) : List (Option Value) → Option (Value × String)
  | [some (.object place), some (.string name), some (.object record)] =>
      let content := Value.object record
      if graph.kind content = .object &&
          (graph.has content (.name "value") || graph.has content (.name "get")) then
        some (.object place, name)
      else
        none
  | _ => none

def decorate (target : Value) (name : String) : Decoration → Run Unit
  | .none => pure ()
  | .field argument => do
      let type ← fieldType (← build argument)
      declareField target name type
  | .bareMethod => declareMethod target name openType []
  | .method arguments => do
      let given ← arguments.mapM fun argument => do pure (argument, ← argumentValue? argument)
      match directTarget? (← get) (given.map (·.2)) with
      | some (other, otherName) => declareMethod other otherName openType []
      | none =>
          let returnType ← returnTypeOf given
          declareMethod target name returnType (← schemasOf given)

end Run

end ObjectPath
