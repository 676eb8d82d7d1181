import ObjectPath.Node.Access
import ObjectPath.Path.Text
import ObjectPath.Registry

/-!
Worlds: a graph together with the registries, factories and compilers that work on
it, and the log of what the compilers reported.  A session is a computation over a
world that may end in a fault; the world as it stands is kept on every outcome.
-/

namespace ObjectPath

/-! ## Paths -/

/-- A compiled path expression.  Two paths are the same object when they come from the
same compiler and have the same serial number. -/
structure Path where
  compiler : Nat
  serial : Nat
  source : String
  nodes : List Node
  nodes_ne_nil : nodes ≠ []
  rootType : Option Value

namespace Path

def isStatic (path : Path) : Bool :=
  path.rootType.isSome

def size (path : Path) : Nat :=
  path.nodes.length

def firstNode (path : Path) : Node :=
  path.nodes.head path.nodes_ne_nil

def lastNode (path : Path) : Node :=
  path.nodes.getLast path.nodes_ne_nil

/-- The argument keys of all nodes without repetition, in order of first use. -/
def argumentKeys (path : Path) : List String :=
  (path.nodes.flatMap Node.argumentKeys).eraseDups

def needsArguments (path : Path) : Bool :=
  !path.argumentKeys.isEmpty

def same (path other : Path) : Bool :=
  path.compiler == other.compiler && path.serial == other.serial

/-- Paths are equal when their sources are. -/
def equal (path other : Path) : Bool :=
  path.source == other.source

end Path

/-! ## Events -/

inductive EventKind
  | compiled
  | filled
  | abandoned
  deriving DecidableEq

namespace EventKind

def name : EventKind → String
  | .compiled => "compile"
  | .filled => "autovivify"
  | .abandoned => "abandonedWrite"

def ofName? (name : String) : Option EventKind :=
  [.compiled, .filled, .abandoned].find? (·.name == name)

end EventKind

/-- An entry of the log.  The value of a filled slot is logged together with the graph at
that moment. -/
inductive Event
  | compiled (compiler : Nat) (expression : String) (nodes : Nat) (rootType : Option String)
  | filled (compiler : Nat) (expression : String) (index : Nat) (node : String)
      (typeName value : Value) (moment : Graph)
  | abandoned (compiler : Nat) (expression : String) (index : Nat) (node : String)
      (typeName : Value)
  | handled (handler : String) (kind : EventKind) (expression : String)

/-- What a handler does after its entry in the log. -/
inductive HandlerAction
  | nothing
  | raise (message : String)
  /-- Compiles a text with the compiler that a name stands for at that time. -/
  | compile (compilerName : String) (text : String)
  /-- Removes a handler from an event of the compiler that a name stands for at that time. -/
  | remove (compilerName : String) (kind : EventKind) (handler : String)

/-- A handler of events, with the kind of event it was made for. -/
structure Handler where
  kind : EventKind
  action : HandlerAction

/-! ## Compilers -/

/-- A compiler: its settings, the paths and nodes that it made, and the handlers of its
events in order of subscription. -/
structure Compiler where
  resolver : Resolver
  /-- The name of the registry in which root types are looked up. -/
  registry : String
  factory : Nat
  /-- The number of nodes that a path may have; anything that compares with numbers. -/
  maxNodes : Value
  strictWrites : Bool
  expressions : List (String × Path)
  nodeTable : NodeTable
  handlers : EventKind → List String
  nextSerial : Nat

def defaultMaxNodes : Value :=
  .ofNat 64

namespace Compiler

def create (resolver : Resolver) (registry : String) (factory : Nat) (maxNodes : Value)
    (strictWrites : Bool) : Compiler where
  resolver := resolver
  registry := registry
  factory := factory
  maxNodes := maxNodes
  strictWrites := strictWrites
  expressions := []
  nodeTable := .empty
  handlers := fun _ => []
  nextSerial := 0

def standard (registry : String) (factory : Nat) : Compiler :=
  create .standard registry factory defaultMaxNodes false

def size (compiler : Compiler) : Nat :=
  compiler.expressions.length

/-- Drops every cached path and node. -/
def clear (compiler : Compiler) : Compiler :=
  { compiler with expressions := [], nodeTable := compiler.nodeTable.clear }

/-- Adds a handler to an event, unless it is there already. -/
def subscribe (compiler : Compiler) (kind : EventKind) (handler : String) : Compiler :=
  let handlers := compiler.handlers kind
  let changed := if handlers.contains handler then handlers else handlers ++ [handler]
  { compiler with
    handlers := fun other => if other = kind then changed else compiler.handlers other }

def unsubscribe (compiler : Compiler) (kind : EventKind) (handler : String) : Compiler :=
  let changed := (compiler.handlers kind).filter (· != handler)
  { compiler with
    handlers := fun other => if other = kind then changed else compiler.handlers other }

end Compiler

/-! ## Worlds -/

/-- What a world makes besides objects of its graph and can make an object of when it is
used as a value. -/
inductive Product
  | compiler (place : Nat)
  | resolver (compiler : Nat)
  | node (compiler serial : Nat)
  | path (compiler serial : Nat)
  | test (serial : Nat)
  | predicate (serial : Nat)
  deriving DecidableEq

structure World where
  graph : Graph
  registries : List (String × Registry)
  factories : Array ProducerTable
  compilers : Array Compiler
  /-- The names of the compilers, the last one given first. -/
  compilerNames : List (String × Nat)
  handlers : List (String × Handler)
  predicates : Nat
  /-- The objects of the graph that products have as values. -/
  values : List (Product × Value)
  events : List Event

namespace World

/-- The place of the default factory and of the default compiler. -/
def standardPlace : Nat :=
  0

def standardRegistry : String :=
  "default"

def standardCompiler : String :=
  "default"

/-- A world with a default registry, a default factory and a default compiler. -/
def initial (graph : Graph) : World where
  graph := graph
  registries := []
  factories := #[.standard .standard]
  compilers := #[.standard standardRegistry standardPlace]
  compilerNames := [(standardCompiler, standardPlace)]
  handlers := []
  predicates := 0
  values := []
  events := []

/-- The compiler at a place; one with the default settings if there is none. -/
def compiler (world : World) (place : Nat) : Compiler :=
  world.compilers.getD place (.standard standardRegistry standardPlace)

/-- Changes the compiler at a place. -/
def modifyCompiler (world : World) (place : Nat) (change : Compiler → Compiler) : World :=
  { world with compilers := world.compilers.modify place change }

def nextCompiler (world : World) : Nat :=
  world.compilers.size

/-- Adds a compiler and gives it a name, which stands for it from then on. -/
def addCompiler (world : World) (name : String) (compiler : Compiler) : World :=
  { world with
    compilers := world.compilers.push compiler
    compilerNames := (name, world.nextCompiler) :: world.compilerNames }

def compilerNamed? (world : World) (name : String) : Option Nat :=
  Entries.get? world.compilerNames name

def compilerName? (world : World) (place : Nat) : Option String :=
  (world.compilerNames.find? (·.2 == place)).map (·.1)

/-- The registry of a name; an empty one until a class is registered in it. -/
def registry (world : World) (name : String) : Registry :=
  (Entries.get? world.registries name).getD .empty

def setRegistry (world : World) (name : String) (registry : Registry) : World :=
  { world with registries := Entries.put world.registries name registry }

/-- The factory at a place; the default one if there is none. -/
def factory (world : World) (place : Nat) : Factory :=
  (world.factories.getD place (.standard .standard)).supply

def nextFactory (world : World) : Nat :=
  world.factories.size

def addFactory (world : World) (table : ProducerTable) : World :=
  { world with factories := world.factories.push table }

def modifyFactory (world : World) (place : Nat) (change : ProducerTable → ProducerTable) : World :=
  { world with factories := world.factories.modify place change }

def log (world : World) (event : Event) : World :=
  { world with events := world.events ++ [event] }

end World

abbrev Session :=
  EStateM Fault World

namespace Session

def onGraph {α : Type} (run : Run α) : Session α := fun world =>
  match run world.graph with
  | .ok value graph => .ok value { world with graph := graph }
  | .error fault graph => .error fault { world with graph := graph }

def lift {α : Type} : Except Fault α → Session α
  | .ok value => pure value
  | .error fault => throw fault

def wrapping {α : Type} (wrap : Fault → Fault) (session : Session α) : Session α :=
  tryCatch session fun fault => throw (wrap fault)

/-- The object of a product: the one that it has, or the one that is made for it. -/
def productValue (product : Product) (make : Session Value) : Session Value := do
  match Entries.get? (← get).values product with
  | some value => pure value
  | none =>
      let value ← make
      modify fun world => { world with values := Entries.put world.values product value }
      pure value

/-! ## Handlers -/

/-- Subscribes the handler of a name to an event.  The first handler of a name is the
one that the name means from then on. -/
def subscribe (compiler : Nat) (kind : EventKind) (name : String) (handler : Handler) :
    Session Unit :=
  modify fun world =>
    let handlers := match Entries.get? world.handlers name with
      | some _ => world.handlers
      | none => Entries.put world.handlers name handler
    { world with handlers := handlers }.modifyCompiler compiler (·.subscribe kind name)

/-! ## Registries -/

def register (registry name : String) (type : Value) : Session Unit := do
  let later ← onGraph (((← get).registry registry).register (.string name) type)
  modify (·.setRegistry registry later)

/-- The name of a type in a registry, where it is registered if need be. -/
def nameOf (registry : String) (type : Value) : Session Value := do
  let (known, later) ← onGraph (((← get).registry registry).nameOf type)
  modify (·.setRegistry registry later)
  match known with
  | some name => pure name
  | none => onGraph (Run.step type "name")

end Session

end ObjectPath
