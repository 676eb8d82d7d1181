import ObjectPath.World

/-!
Paths as values.  A path that is used as a value is an object of the graph with its
compiler, its source, its nodes and its root type in slots.  Each path, node and compiler
has one such object, which is made when it is first asked for.
-/

namespace ObjectPath

def plainSlot (name : String) (value : Value) : Key × Property :=
  (.name name, .data value .plain)

/-- A new array of texts that cannot be changed. -/
def Run.frozenTexts (texts : List String) : Run Value := do
  let array ← Run.newArray (texts.map fun text => some (.string text))
  modify (·.freeze array)
  pure array

namespace Session

/-! ## Compilers -/

/-- The object of a constant if it is the one that is used, else a new object of a class. -/
def constantOr (isConstant : Bool) (constant : BuiltinConstant) (owner : BuiltinClass) :
    Session Value :=
  if isConstant then pure (.object constant.place) else onGraph (Run.newOf owner .plain [])

def resolverValue (place : Nat) : Session Value :=
  productValue (.resolver place) do
    let resolver := ((← get).compiler place).resolver
    constantOr (resolver.aliases.isEmpty && resolver.creator.isNone) .resolver .resolver

def compilerValue (place : Nat) : Session Value :=
  productValue (.compiler place) do
    let compiler := (← get).compiler place
    let resolver ← resolverValue place
    let registry ← constantOr (compiler.registry == World.standardRegistry) .registry .registry
    let factory ← constantOr (compiler.factory == World.standardPlace) .factory .factory
    onGraph (Run.newOf .compiler .plain
      [plainSlot "resolver" resolver, plainSlot "registry" registry, plainSlot "factory" factory,
        plainSlot "maxNodes" compiler.maxNodes,
        plainSlot "strictWrites" (.boolean compiler.strictWrites)])

/-! ## Nodes -/

/-- A new object of a node, with what its kind adds to its slots. -/
def newNodeValue (owner : BuiltinClass) (node : Node) (kind : String) (resolver : Value)
    (own : List (Key × Property)) : Session Value :=
  onGraph do
    let keys ← Run.frozenTexts node.argumentKeys
    Run.newOf owner (.sealed [keys])
      ([plainSlot "text" (.string node.text), plainSlot "resolver" resolver,
        plainSlot "kind" (.string kind)] ++ own)

def nodeValue (compiler : Nat) : Node → Session Value
  | .field serial name =>
      productValue (.node compiler serial) do
        newNodeValue .fieldNode (.field serial name) "field" (← resolverValue compiler)
          [plainSlot "name" (.string name)]
  | .method serial text name keys =>
      productValue (.node compiler serial) do
        let setter := (Node.setterOf name).elim Value.null Value.string
        newNodeValue .methodNode (.method serial text name keys) "method"
          (← resolverValue compiler)
          [plainSlot "setterName" setter, plainSlot "name" (.string name)]
  | .array serial text index none =>
      productValue (.node compiler serial) do
        newNodeValue .arrayNode (.array serial text index none) "array"
          (← resolverValue compiler)
          [plainSlot "index" (.ofNat index), plainSlot "inner" .undefined]
  | .array serial text index (some inner) =>
      productValue (.node compiler serial) do
        let innerValue ← nodeValue compiler inner
        newNodeValue .arrayNode (.array serial text index (some inner)) "array"
          (← resolverValue compiler)
          [plainSlot "index" (.ofNat index), plainSlot "inner" innerValue]

/-! ## Paths -/

def pathValue (path : Path) : Session Value :=
  productValue (.path path.compiler path.serial) do
    let compiler ← compilerValue path.compiler
    let nodes ← path.nodes.mapM (nodeValue path.compiler)
    let first ← nodeValue path.compiler path.firstNode
    let last ← nodeValue path.compiler path.lastNode
    onGraph do
      let keys ← Run.frozenTexts path.argumentKeys
      let list ← Run.newArray (nodes.map some)
      Run.newOf .path (.sealed [first, last, keys])
        [plainSlot "compiler" compiler, plainSlot "source" (.string path.source),
          plainSlot "nodes" list, plainSlot "rootType" (path.rootType.getD .null)]

end Session

end ObjectPath
