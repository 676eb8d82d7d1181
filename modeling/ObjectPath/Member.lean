import ObjectPath.Producer

/-!
Members and how they are looked up.  A member is a field or a method that a path
segment names, with the type it is declared to give.  A resolver may replace
names before they are looked up, and may make instances in its own way.

A name is looked up among the declarations first, then among the members of the
class and its ancestors, then on the value itself if there is one.  The open type
accepts any name as long as no value is known.
-/

namespace ObjectPath

/-! ## Resolvers -/

/-- A way to look members up and to make instances. -/
structure Resolver where
  aliases : List (String × String)
  /-- Makes instances in place of the constructors. -/
  creator : Option Producer

namespace Resolver

def standard : Resolver :=
  ⟨[], none⟩

def actualName (resolver : Resolver) (name : String) : String :=
  (Entries.get? resolver.aliases name).getD name

def create (resolver : Resolver) (owner : Value) (arguments : List Value) : Run Value :=
  match resolver.creator with
  | some producer => producer.run none
  | none => Run.newInstance owner arguments

end Resolver

/-! ## Members -/

structure FieldMember where
  name : String
  owner : Value
  type : Value
  scope : Scope
  /-- Whether the type was declared; undeclared fields are of the open type. -/
  declared : Bool

/-- How a method is carried out. -/
inductive MethodAction
  | call (callee : Value) (schemas : List Schema)
  /-- Looks the method up on the value that it is applied to. -/
  | lookUp (resolver : Resolver)

structure MethodMember where
  name : String
  owner : Value
  returnType : Value
  scope : Scope
  declared : Bool
  action : MethodAction

inductive Member
  | field (member : FieldMember)
  | method (member : MethodMember)

namespace Member

def name : Member → String
  | .field member => member.name
  | .method member => member.name

def type : Member → Value
  | .field member => member.type
  | .method member => member.returnType

end Member

/-! ## Using fields -/

namespace FieldMember

def get (member : FieldMember) (target : Value) : Run Value :=
  Run.readAsObject target member.name

/-- Writes the field on a value; simple values and read-only slots refuse. -/
def set (member : FieldMember) (target value : Value) : Run Unit := do
  match target with
  | .null => throw (.use .assignOnMissing)
  | .object _ =>
      if ← Run.assignWith perform target (.ofText member.name) value then
        pure ()
      else
        throw (.use (.readOnly member.name))
  | _ => throw (.use (.assignToSimple member.name ((← MonadState.get).kind target).name))

end FieldMember

/-! ## Names and holders -/

/-- Names that never are members. -/
def blockedNames : List String :=
  ["constructor", "__proto__", "prototype"]

def openField (owner : Value) (name : String) (scope : Scope) : FieldMember :=
  ⟨name, owner, openType, scope, false⟩

/-- What holds the members of a class: the class itself, or the object that its instances
share. -/
def holderOf (owner : Value) : Scope → Run Value
  | .onClass => pure owner
  | .onInstance => Run.step owner "prototype"

/-- The place of the object at which a search for members of a scope stops: what every
function or every object has is no member of a class. -/
def searchEnd : Scope → Nat
  | .onClass => BuiltinClass.function.sharedPlace
  | .onInstance => BuiltinClass.object.sharedPlace

/-- A holder and its ancestors up to the end of the search. -/
def holdersFrom (graph : Graph) (holder : Value) (scope : Scope) : List Value :=
  if holder.isTruthy then
    (holder :: (graph.ancestors holder).map Value.object).takeWhile
      (· != .object (searchEnd scope))
  else
    []

/-- The nearest member of a name that holders have themselves. -/
def ownAmong? (graph : Graph) (holders : List Value) (name : String) : Option Property :=
  holders.findSome? (graph.own? · (.ofText name))

def holdsFunction (graph : Graph) : Property → Bool
  | .data content _ => graph.isCallable content
  | .accessor _ _ _ _ => false

def notFound (kind : MemberKind) (owner : Value) (name : String) (detail : Option String) :
    Run Fault := do
  pure (.memberNotFound kind (← Run.typeText owner) name detail)

/-! ## Fields -/

/-- Looks a name up on a value: a slot that it has and that is no function is a field,
and on a plain record any name that is no member is. -/
def fieldOnValue (owner : Value) (name : String) (value : Value) : Run FieldMember := do
  let content ← Run.readAsObject value name
  let graph ← get
  if graph.has value (.ofText name) && !graph.isCallable content then
    pure (openField owner name .onInstance)
  else if value = .null then
    throw (.use .recordOfMissing)
  else if graph.isPlainRecord value then
    pure (openField owner name .onInstance)
  else
    throw (← notFound .field owner name none)

/-- The value that an applied member is known to be applied to. -/
def knownValue : Option Value → Option Value
  | some .undefined => none
  | value? => value?

/-- Looks a field up by a name that needs no replacing. -/
def findField (owner : Value) (name : String) (scope : Scope) (value? : Option Value) :
    Run FieldMember := do
  if blockedNames.contains name then
    throw (← notFound .field owner name none)
  else
    match Entries.get? ((← get).fields owner scope) name with
    -- A declared field need not be there on any value.
    | some declaration => pure ⟨name, owner, declaration.type, scope, true⟩
    | none =>
        let holder ← holderOf owner scope
        let graph ← get
        match ownAmong? graph (holdersFrom graph holder scope) name with
        | some property =>
            if holdsFunction graph property then
              throw (← notFound .field owner name (some "is a method"))
            else
              pure (openField owner name scope)
        | none =>
            match scope, knownValue value? with
            | .onClass, _ => throw (← notFound .field owner name none)
            | .onInstance, some value => fieldOnValue owner name value
            | .onInstance, none =>
                -- Any name may be a slot of what is of the open type.
                if owner = openType then
                  pure (openField owner name scope)
                else
                  throw (← notFound .field owner name none)

/-- Looks a field up on a class, and on a value if there is one. -/
def Resolver.field (resolver : Resolver) (owner : Value) (name : String) (scope : Scope)
    (value? : Option Value) : Run FieldMember :=
  findField owner (resolver.actualName name) scope value?

/-! ## Methods -/

def incompatible (owner : Value) (name : String) (arguments : List Value)
    (issues : List String) : Run Fault := do
  let ownerText ← Run.typeText owner
  let detail := "no match for " ++ (← Format.arguments arguments) ++ ": " ++
    ", ".intercalate issues
  pure (.memberNotFound .method ownerText name (some detail))

/-- What a name means as a method: read on the value if there is one, else on what holds
the members of the scope. -/
def readMethod (owner : Value) (name : String) (scope : Scope) (value? : Option Value) :
    Run Value := do
  match scope, knownValue value? with
  | .onInstance, some value => Run.readAsObject value name
  | _, _ => do Run.readAsObject (← holderOf owner scope) name

/-- Looks a method up by a name that needs no replacing. -/
def findMethod (resolver : Resolver) (owner : Value) (name : String)
    (arguments : List Value) (scope : Scope) (value? : Option Value) : Run MethodMember := do
  if blockedNames.contains name then
    throw (← notFound .method owner name none)
  else
    let declaration := Entries.get? ((← get).methods owner scope) name
    let callee ← readMethod owner name scope value?
    if (← get).isCallable callee then
      match declaration with
      | some declaration =>
          match ← checkArguments declaration.schemas arguments with
          | .ok _ =>
              pure ⟨name, owner, declaration.returnType, scope, true,
                .call callee declaration.schemas⟩
          | .error issues => throw (← incompatible owner name arguments issues)
      | none => pure ⟨name, owner, openType, scope, false, .call callee []⟩
    -- What the name means is left open until the method is called on a value.
    else if scope = .onInstance && (knownValue value?).isNone && owner = openType then
      pure ⟨name, owner, openType, scope, false, .lookUp resolver⟩
    else
      throw (← notFound .method owner name none)

def Resolver.method (resolver : Resolver) (owner : Value) (name : String)
    (arguments : List Value) (scope : Scope) (value? : Option Value) : Run MethodMember :=
  findMethod resolver owner (resolver.actualName name) arguments scope value?

/-! ## Calls -/

namespace MethodMember

def callChecked (member : MethodMember) (callee : Value) (schemas : List Schema)
    (target : Value) (arguments : List Value) : Run Value := do
  match ← checkArguments schemas arguments with
  | .ok values => Run.call callee target values
  | .error issues => throw (← incompatible member.owner member.name arguments issues)

def invoke (member : MethodMember) (target : Value) (arguments : List Value) : Run Value := do
  match member.action with
  | .call callee schemas => member.callChecked callee schemas target arguments
  | .lookUp resolver =>
      let owner ← Run.typeOf target
      let found ← resolver.method owner member.name arguments .onInstance (some target)
      match found.action with
      | .call callee schemas => found.callChecked callee schemas target arguments
      -- Only what counts as no value gets here, and it would be looked up for ever.
      | .lookUp _ => throw (.range .depth)

end MethodMember

/-! ## Listing -/

/-- Names that every class has and that listings leave out. -/
def classBuiltins : List String :=
  ["length", "name", "prototype"]

def unlisted (scope : Scope) (name : String) : Bool :=
  blockedNames.contains name || (scope = .onClass && classBuiltins.contains name)

/-- The member that a name with an own member of a holder is. -/
def memberOf (graph : Graph) (methods : List (String × MethodDeclaration)) (owner : Value)
    (scope : Scope) (name : String) : Property → Member
  | .data content _ =>
      if graph.isCallable content then
        match Entries.get? methods name with
        | some declaration =>
            .method ⟨name, owner, declaration.returnType, scope, true,
              .call content declaration.schemas⟩
        | none => .method ⟨name, owner, openType, scope, false, .call content []⟩
      else
        .field (openField owner name scope)
  | .accessor _ _ _ _ => .field (openField owner name scope)

/-- Adds the own members of a holder whose names are not there yet. -/
def addListed (graph : Graph) (methods : List (String × MethodDeclaration)) (owner : Value)
    (scope : Scope) (members : List (String × Member)) (holder : Value) :
    List (String × Member) :=
  (graph.ownKeys holder).foldl
    (fun listed key =>
      -- A name that a nearer holder has hides this one.
      if Entries.has listed key.text || unlisted scope key.text then
        listed
      else
        match graph.own? holder key with
        | some property =>
            listed ++ [(key.text, memberOf graph methods owner scope key.text property)]
        | none => listed)
    members

def declaredFields (graph : Graph) (owner : Value) (scope : Scope) : List (String × Member) :=
  (graph.fields owner scope).map fun entry =>
    (entry.1, .field ⟨entry.2.name, owner, entry.2.type, scope, true⟩)

/-- Every field and method of a class and its ancestors, sorted by name. -/
def listMembers (owner : Value) (scope : Scope) : Run (List Member) := do
  let holder ← holderOf owner scope
  let graph ← get
  let listed := (holdersFrom graph holder scope).foldl
    (addListed graph (graph.methods owner scope) owner scope)
    (declaredFields graph owner scope)
  pure (Text.sortByUnits Member.name (listed.map (·.2)))

end ObjectPath
