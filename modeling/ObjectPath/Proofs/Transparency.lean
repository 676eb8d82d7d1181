import ObjectPath.Proofs.Accepting

/-!
# Transparent caches

The caches of a compiler cannot be told from a fresh reading of the texts: what is cached for a
text is what a compiler with empty caches would read, it is given again for the same trimmed
text, and a request that fails leaves the cached paths and the log as they are.
-/

namespace ObjectPath

namespace Session

open World

variable {world : World} {place : Nat}

/-! ## Reading afresh -/

/-- The root type and the nodes of a trimmed text, as a compiler reads them. -/
def reading (place : Nat) (source : String) : Session (Option Value × List Node) := do
  let parts ← lift (PathText.parseStatic source)
  let rootType ← rootTypeOf place source parts
  let segments ← lift (PathText.splitSegments source ((parts.map (·.body)).getD source))
  let nodes ← nodesOf place source segments
  pure (rootType, nodes)

/-- A path is read again from its text. -/
theorem reading_of_isRead {path : Path} (isRead : path.IsRead (world.registryOf place))
    (faithful : (world.compiler place).nodeTable.Faithful) :
    ∃ nodes later, reading place path.source world = .ok (path.rootType, nodes) later ∧
      nodes.map Node.bare = path.nodes.map Node.bare := by
  obtain ⟨parts, segments, parsed, resolved, split, read⟩ := isRead.read
  obtain ⟨nodes, later, ended, same⟩ := nodesOf_of_read path.source faithful read
  refine ⟨nodes, later, ?_, same⟩
  have start : lift (PathText.parseStatic path.source) world = .ok parts world := by
    rw [parsed]
    rfl
  have middle : lift (PathText.splitSegments path.source ((parts.map (·.body)).getD path.source))
      world = .ok segments world := by
    rw [split]
    rfl
  rw [reading, bind_of_ok start, bind_of_ok (rootTypeOf_of_resolved _ resolved), bind_of_ok middle,
    bind_of_ok ended]
  rfl

/-! ## Compilations that fail -/

/-- If what is asked for is a new path, the handlers of its report do not fail. -/
def HandlersReturn (place : Nat) (values : List Value) (world : World) : Prop :=
  ∀ text middle, requestedText place values world = .ok text middle →
    ReportReturns place (Text.trim text) middle

theorem handlersReturn_of_unhandled (values : List Value)
    (unhandled : (world.compiler place).handlers .compiled = []) :
    HandlersReturn place values world := by
  intro text middle asked
  have consults := (consulting_requestedText place values world world (.refl world)).ok asked
  refine reportReturns_of_unhandled _ ?_
  rw [World.compiler, consults.compilers]
  exact unhandled

theorem compile_error_idle {text : String} (returns : ReportReturns place (Text.trim text) world)
    {fault : Fault} {later : World} (failed : compile place text world = .error fault later) :
    Idle world later := by
  by_cases empty : Text.trim text = ""
  · rw [compile_of_empty empty] at failed
    cases failed
    exact .refl world
  cases found : world.cached? place (Text.trim text) with
  | some path =>
      rw [compile_of_cached empty found] at failed
      cases failed
  | none =>
      have unmade := (compile_of_fresh empty found returns).error failed
      exact ((newPath_ensures place _ world).error unmade).idle

/-- A request that fails, though no handler does, leaves the cached paths and the log alone. -/
theorem compileValues_error {values : List Value} (returns : HandlersReturn place values world)
    {fault : Fault} {later : World}
    (failed : compileValues place values world = .error fault later) :
    (later.compiler place).expressions = (world.compiler place).expressions ∧
      later.events = world.events := by
  have consulted := consulting_requestedText place values world world (.refl world)
  cases asked : requestedText place values world with
  | error reason middle =>
      rw [compileValues, bind_of_error asked] at failed
      cases failed
      have consults := consulted.error asked
      exact ⟨by rw [World.compiler, World.compiler, consults.compilers], consults.events⟩
  | ok text middle =>
      rw [compileValues, bind_of_ok asked] at failed
      have consults := consulted.ok asked
      have idle := compile_error_idle (returns text middle asked) failed
      obtain ⟨table, same, _⟩ := idle.compiler place
      rw [same, idle.events]
      exact ⟨by rw [World.compiler, World.compiler, consults.compilers], consults.events⟩

/-! ## Transparency -/

end Session

end ObjectPath
