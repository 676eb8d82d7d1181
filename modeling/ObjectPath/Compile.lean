import ObjectPath.World

/-!
Compiling: from text to cached paths.  A compiler gives the same path for the same
trimmed text until it is cleared.  The member types of a static path are walked
before it is cached, so that a static path always resolves.
-/

namespace ObjectPath

/-! ## Walking declared types -/

/-- The member that a node names, found by walking declared types from a class.  Arrays
are stepped through to their elements; a node that names no member leaves the class
as it is. -/
def memberAlong (resolver : Resolver) (arguments : Option ArgumentMap) :
    List Node → Nat → Value → Scope → Run (Option Member)
  | [], _, _, _ => pure none
  | node :: rest, index, owner, scope => do
      let member ← node.member? resolver arguments owner scope
      match index with
      | 0 => pure member
      | later + 1 => do
          let next ← match member with
            | some found => Run.elementType found.type
            | none => pure owner
          -- Only the first node can be looked up on the class itself.
          memberAlong resolver arguments rest later next .onInstance

/-- The position of the node at which the type walk of a static path stops.  Methods are
matched by their arguments, so it stops before the first node that takes any. -/
def walkedIndex? (nodes : List Node) : Option Nat :=
  match (nodes.takeWhile (!·.needsArguments)).length with
  | 0 => none
  | count + 1 => some count

namespace Session

/-! ## Events -/

/-- The place of the compiler that a name stands for; the default one if there is none. -/
def compilerNamed (name : String) : Session Nat := do
  pure (((← get).compilerNamed? name).getD World.standardPlace)

def act (recompile : Nat → String → Session Unit) : HandlerAction → Session Unit
  | .nothing => pure ()
  | .raise message => throw (.raised message)
  | .compile name text => do
      recompile (← compilerNamed name) text
  | .remove name kind handler => do
      let compiler ← compilerNamed name
      modify (·.modifyCompiler compiler (·.unsubscribe kind handler))

/-- Runs the handlers of an event in order, save those removed in the meantime. -/
def runHandlers (recompile : Nat → String → Session Unit) (compiler : Nat) (kind : EventKind)
    (expression : String) : List String → Session Unit
  | [] => pure ()
  | name :: rest => do
      let world ← get
      if ((world.compiler compiler).handlers kind).contains name then
        match Entries.get? world.handlers name with
        | none => pure ()
        | some handler =>
            modify (·.log (.handled name handler.kind expression))
            act recompile handler.action
      runHandlers recompile compiler kind expression rest

/-- Logs an event of a compiler and runs its handlers. -/
def emitWith (recompile : Nat → String → Session Unit) (compiler : Nat) (kind : EventKind)
    (expression : String) (event : Event) : Session Unit := do
  modify (·.log event)
  -- Those that are added while the handlers run are not heard.
  let handlers := ((← get).compiler compiler).handlers kind
  runHandlers recompile compiler kind expression handlers

/-! ## Compiling -/

def rootTypeOf (compiler : Nat) (source : String) :
    Option PathText.StaticParts → Session (Option Value)
  | none => pure none
  | some parts => do
      let world ← get
      match (world.registry (world.compiler compiler).registry).resolve parts.typeName with
      | .ok owner => pure (some owner)
      | .error cause =>
          throw (.invalidExpression source (.unknownType parts.typeName) (some cause))

def nodeOf (compiler : Nat) (source segment : String) : Session Node := do
  let world ← get
  match (world.compiler compiler).nodeTable.node segment.toList with
  | .ok (node, table) =>
      -- The node stays in the table, also if the text is refused later on.
      set (world.modifyCompiler compiler fun changed => { changed with nodeTable := table })
      pure node
  | .error cause => throw (.invalidExpression source (.invalidSegment segment) (some cause))

def nodesOf (compiler : Nat) (source : String) : List String → Session (List Node)
  | [] => pure []
  | segment :: rest => do
      let node ← nodeOf compiler source segment
      let nodes ← nodesOf compiler source rest
      pure (node :: nodes)

/-- Walks the declared types of a static path. -/
def checkTypes (compiler : Nat) (source typeName : String) (owner : Value)
    (nodes : List Node) : Session Unit := do
  match walkedIndex? nodes with
  | none => pure ()
  | some index =>
      let resolver := ((← get).compiler compiler).resolver
      wrapping (fun cause => .invalidExpression source (.unresolved typeName) (some cause)) do
        let _ ← onGraph (memberAlong resolver none nodes index owner .onClass)
        pure ()

/-- Walks the declared types of a path if it has a root type. -/
def checkRoot (compiler : Nat) (source : String) (rootType : Option Value)
    (parts : Option PathText.StaticParts) (nodes : List Node) : Session Unit :=
  match rootType, parts with
  | some owner, some parts => checkTypes compiler source parts.typeName owner nodes
  | _, _ => pure ()

def enterPath (compiler : Nat) (source : String) (nodes : List Node) (rootType : Option Value) :
    Session Path := do
  if present : nodes ≠ [] then
    let path : Path :=
      ⟨compiler, ((← get).compiler compiler).nextSerial, source, nodes, present, rootType⟩
    modify (·.modifyCompiler compiler fun changed =>
      { changed with
        expressions := changed.expressions ++ [(source, path)]
        nextSerial := changed.nextSerial + 1 })
    pure path
  else
    throw (.invalidExpression source .noNodes none)

def checkCount (compiler : Nat) (source : String) (count : Nat) : Session Unit := do
  let limit := ((← get).compiler compiler).maxNodes
  if ← onGraph (Run.isBelow perform limit count) then
    let shown ← onGraph (Run.messageText perform limit)
    throw (.invalidExpression source (.tooManyNodes shown count) none)

/-- Makes the path of a trimmed text that is not cached, and enters it into the cache.  The
name of the root type that the text gives goes with the path. -/
def newPath (compiler : Nat) (source : String) : Session (Path × Option String) := do
  let parts ← lift (PathText.parseStatic source)
  let rootType ← rootTypeOf compiler source parts
  let body := (parts.map (·.body)).getD source
  let segments ← lift (PathText.splitSegments source body)
  -- The limit is looked at before any node is made.
  checkCount compiler source segments.length
  let nodes ← nodesOf compiler source segments
  checkRoot compiler source rootType parts nodes
  let path ← enterPath compiler source nodes rootType
  pure (path, parts.map (·.typeName))

/-- Makes the path of a trimmed text that is not cached, and reports it. -/
def makePath (recompile : Nat → String → Session Unit) (compiler : Nat) (source : String) :
    Session Path := do
  let (path, typeName) ← newPath compiler source
  -- The path is in the cache by now, so a handler that compiles the same text finds it.
  emitWith recompile compiler .compiled source (.compiled compiler source path.size typeName)
  pure path

/-- The path of a text: the cached one, or a new one. -/
def compileWith (recompile : Nat → String → Session Unit) (compiler : Nat) (text : String) :
    Session Path := do
  let source := Text.trim text
  if source = "" then
    throw (.invalidExpression source .empty none)
  else
    match Entries.get? ((← get).compiler compiler).expressions source with
    | some path => pure path
    | none => makePath recompile compiler source

/-- Compiles with handlers that compile in turn, at most `depth` inside one another. -/
def compileWithin : Nat → Nat → String → Session Path
  | 0, _, _ => throw (.range .depth)
  | depth + 1, compiler, text =>
      compileWith
        (fun other nested => do
          let _ ← compileWithin depth other nested
          pure ())
        compiler text

/-- Handlers nest no deeper than their number, since each nested text is cached before
its own handlers run. -/
def nesting (world : World) : Nat :=
  world.handlers.length + 2

def compile (compiler : Nat) (text : String) : Session Path := do
  compileWithin (nesting (← get)) compiler text

def emit (compiler : Nat) (kind : EventKind) (expression : String) (event : Event) :
    Session Unit := do
  emitWith
    (fun other nested => do
      let _ ← compile other nested
      pure ())
    compiler kind expression event

/-! ## Texts bound to types -/

def boundText (compiler : Nat) (type : Value) (text : String) : Session String := do
  let registry := ((← get).compiler compiler).registry
  let name ← wrapping (fun cause => .invalidExpression text .unnameableType (some cause))
    (nameOf registry type)
  let nameText ← onGraph (Run.messageText perform name)
  lift (PathText.toStatic nameText text)

def compileBound (compiler : Nat) (type : Value) (text : String) : Session Path := do
  compile compiler (← boundText compiler type text)

/-! ## Values in the place of texts -/

/-- A value that is no text is refused in the place of an expression. -/
def refusedText (value : Value) : Session String := do
  let text ← onGraph (Run.textOf perform value)
  throw (.invalidExpression (Text.trim text) .empty none)

/-- The path that a value gives when it is asked for its trimmed text. -/
def bodyOf (value : Value) : Run String := do
  let trimmed ← Run.callMember perform value "trim" "text.trim" []
  match trimmed with
  | .string text => Run.lift (PathText.withoutType text)
  | _ => do
      let mark := Value.string (String.ofList PathText.staticMark)
      let isStatic ← Run.callMember perform trimmed "startsWith" "text.startsWith" [mark]
      if isStatic.isTruthy then
        throw (.use (.notFunction "text.indexOf"))
      else
        Run.messageText perform trimmed

/-- The fault that a type has no name to bind a value to. -/
def unnameable (value : Value) (cause : Fault) : Run Fault := do
  let shown ← Json.text? value
  pure (.invalidValue value (shown.getD "undefined") .unnameableType (some cause))

def boundValueText (compiler : Nat) (type value : Value) : Session String := do
  let registry := ((← get).compiler compiler).registry
  let name ← tryCatch (nameOf registry type) fun cause => do
    throw (← onGraph (unnameable value cause))
  let nameText ← onGraph (Run.messageText perform name)
  let body ← onGraph (bodyOf value)
  pure (PathText.withType nameText body)

/-- The text that a list of values asks for: a text, or a root type and a text. -/
def requestedText (compiler : Nat) (values : List Value) : Session String := do
  let type := values.getD 0 .undefined
  let text := values.getD 1 .undefined
  match type, text with
  -- A text in the first place counts, whatever comes after it.
  | .string source, _ => pure source
  | _, .undefined => throw (.invalidExpression "" .missing none)
  | _, .string source => if type.isMissing then pure source else boundText compiler type source
  | _, _ => if type.isMissing then refusedText text else boundValueText compiler type text

def compileValues (compiler : Nat) (values : List Value) : Session Path := do
  compile compiler (← requestedText compiler values)

end Session

end ObjectPath
