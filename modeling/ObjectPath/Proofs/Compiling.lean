import ObjectPath.Proofs.Changes

/-!
# Compiling

Whatever a text is, and whatever the handlers of a new path do, compiling it makes a row of
changes.  If it gives a path, the path is cached for the trimmed text.  If it fails before the
path is entered, the cached paths and the log are as they were.
-/

namespace ObjectPath

namespace Run

/-- Comparing a number with a count needs no code. -/
theorem isBelow_number (limit : Number) (count : Nat) (graph : Graph) :
    isBelow perform (.number limit) count graph =
      .ok ((limit.point?.map (·.before (.ofInt count))).getD false) graph :=
  rfl

theorem messageText_number (number : Number) (graph : Graph) :
    messageText perform (.number number) graph = .ok number.text graph :=
  rfl

theorem messageText_string (text : String) (graph : Graph) :
    messageText perform (.string text) graph = .ok text graph :=
  rfl

end Run

namespace Session

open World

variable {base world : World} {place : Nat}

/-- A wrapped fault leaves the world that the fault left. -/
theorem wrapping_keeps {α : Type} {wrap : Fault → Fault} {work : Session α}
    {good : α → World → Prop} {holds : World → Prop}
    (ensures : Ensures work world good fun _ later => holds later) :
    Ensures (wrapping wrap work) world good fun _ later => holds later :=
  ensures.tryCatch fun _ _ ended => Ensures.throw ended

/-! ## Preparing a path -/

theorem onGraph_prepares {α : Type} (run : Run α) (prepared : Prepares base world) :
    Ensures (onGraph run) world (fun _ later => Prepares base later)
      fun _ later => Prepares base later := by
  unfold Ensures onGraph
  cases run world.graph with
  | ok value graph => exact prepared.tail (.graph graph)
  | error fault graph => exact prepared.tail (.graph graph)

theorem lift_peeks {α : Type} (result : Except Fault α) (world : World) :
    Peeks (lift result) world fun value => result = .ok value := by
  cases result with
  | ok value => exact Peeks.pure rfl
  | error fault => exact Peeks.throw

theorem rootTypeOf_peeks (place : Nat) (source : String) (parts : Option PathText.StaticParts)
    (world : World) :
    Peeks (rootTypeOf place source parts) world fun rootType =>
      parts.map (fun parts => (world.registryOf place).type? (.string parts.typeName)) =
        rootType.map some := by
  cases parts with
  | none => exact Peeks.pure rfl
  | some parts =>
      refine Peeks.get_bind ?_
      unfold Registry.resolve World.registryOf
      cases found : (world.registry (world.compiler place).registry).type?
        (.string parts.typeName) with
      | none => exact Peeks.throw
      | some owner => exact Peeks.pure (congrArg some found)

theorem rootTypeOf_of_resolved {place : Nat} (source : String)
    {parts : Option PathText.StaticParts} {rootType : Option Value}
    (resolved : parts.map (fun parts => (world.registryOf place).type? (.string parts.typeName)) =
      rootType.map some) :
    rootTypeOf place source parts world = .ok rootType world := by
  cases parts with
  | none =>
      rw [Option.map_none, eq_comm, Option.map_eq_none_iff] at resolved
      rw [resolved]
      rfl
  | some parts =>
      cases rootType with
      | none => cases resolved
      | some owner =>
          have found : (world.registry (world.compiler place).registry).type?
              (.string parts.typeName) = some owner := Option.some.inj resolved
          have resolves : (world.registry (world.compiler place).registry).resolve parts.typeName =
              .ok owner := by
            unfold Registry.resolve
            rw [found]
          unfold rootTypeOf
          dsimp only
          rw [bind_get, resolves]
          rfl

theorem isBelow_prepares (limit : Value) (count : Nat) (prepared : Prepares base world) :
    Ensures (onGraph (Run.isBelow perform limit count)) world
      (fun below later => Prepares base later ∧
        ∀ number, limit = .number number → (number.Allows count ↔ below = false))
      fun _ later => Prepares base later := by
  cases limit with
  | number number =>
      refine Ensures.of_ok (onGraph_of_ok (Run.isBelow_number number count world.graph))
        ⟨prepared, ?_⟩
      rintro _ ⟨⟩
      exact Iff.rfl
  | _ => exact (onGraph_prepares _ prepared).mono (fun _ _ later => ⟨later, nofun⟩) fun _ _ => id

theorem checkCount_prepares (place : Nat) (source : String) (count : Nat)
    (prepared : Prepares base world) :
    Ensures (checkCount place source count) world
      (fun _ later => Prepares base later ∧
        ∀ limit, (world.compiler place).maxNodes = .number limit → limit.Allows count)
      fun _ later => Prepares base later := by
  refine Ensures.get_bind (Ensures.bind (isBelow_prepares _ count prepared) ?_)
  rintro (_ | _) later ⟨laterPrepared, compared⟩
  · exact Ensures.pure ⟨laterPrepared, fun limit isLimit => (compared limit isLimit).2 rfl⟩
  · exact Ensures.bind (onGraph_prepares _ laterPrepared) fun _ _ shown => Ensures.throw shown

theorem nodeOf_prepares (place : Nat) (source segment : String) (prepared : Prepares base world) :
    Ensures (nodeOf place source segment) world
      (fun node later => Prepares base later ∧ Prepares world later ∧
        (place < world.compilers.size →
          Entries.get? (later.compiler place).nodeTable.entries segment = some node))
      fun fault later => later = world ∧ ∃ cause,
        (world.compiler place).nodeTable.node segment.toList = .error cause ∧
          fault = .invalidExpression source (.invalidSegment segment) (some cause) := by
  refine Ensures.get_bind ?_
  cases made : (world.compiler place).nodeTable.node segment.toList with
  | error cause => exact ⟨rfl, cause, rfl, rfl⟩
  | ok result =>
      obtain ⟨node, table⟩ := result
      have interned : Preparation world (world.setTable place table) := .intern made
      refine ⟨prepared.tail interned, .single interned, fun present => ?_⟩
      have found := (NodeTable.extends_node made).2
      rw [String.ofList_toList] at found
      change Entries.get? ((world.setTable place table).compiler place).nodeTable.entries segment = _
      rw [setTable, compiler_modifyCompiler_self present]
      exact found

/-- The nodes of segments are found in the node table; if a segment has no node, its table
refuses it at that moment. -/
theorem nodesOf_prepares (place : Nat) (source : String) (segments : List String)
    (prepared : Prepares base world) :
    Ensures (nodesOf place source segments) world
      (fun nodes later => Prepares base later ∧ Prepares world later ∧
        nodes.length = segments.length ∧ (place < world.compilers.size → List.Forall₂ (fun segment node =>
          Entries.get? (later.compiler place).nodeTable.entries segment = some node)
            segments nodes))
      fun fault later => Prepares base later ∧ ∃ segment ∈ segments, ∃ cause middle,
        Prepares world middle ∧ 
          (middle.compiler place).nodeTable.node segment.toList = .error cause ∧
            fault = .invalidExpression source (.invalidSegment segment) (some cause) := by
  induction segments generalizing world with
  | nil => exact ⟨prepared, .refl, rfl, fun _ => .nil⟩
  | cons segment rest inductionHypothesis =>
      unfold nodesOf
      refine Ensures.bind ((nodeOf_prepares place source segment prepared).mono
        (fun _ _ => id) ?_) ?_
      · rintro fault later ⟨rfl, cause, refused, same⟩
        exact ⟨prepared, segment, List.mem_cons_self .., cause, later, .refl, refused, same⟩
      rintro node middle ⟨middlePrepared, onward, found⟩
      refine Ensures.bind ((inductionHypothesis middlePrepared).mono
        (fun _ _ => id) ?_) ?_
      · rintro fault later ⟨laterPrepared, other, member, cause, between, reached, refused, same⟩
        exact ⟨laterPrepared, other, List.mem_cons_of_mem _ member, cause, between,
          onward.trans reached, refused, same⟩
      rintro nodes later ⟨laterPrepared, further, sameLength, others⟩
      refine Ensures.pure ⟨laterPrepared, onward.trans further, congrArg (· + 1) sameLength,
        fun present => ?_⟩
      -- What was found once is found in the tables after it.
      obtain ⟨table, same, keeps⟩ := further.idle.compiler place
      refine .cons ?_ (others (onward.idle.size ▸ present))
      rw [same]
      exact keeps _ _ (found present)

theorem nodeOf_of_read (source : String) {segment : String} {node : Node}
    (faithful : (world.compiler place).nodeTable.Faithful)
    (read : NodeTable.read segment.toList = .ok node) :
    ∃ made later, nodeOf place source segment world = .ok made later ∧
      (later.compiler place).nodeTable.Faithful ∧ made.bare = node := by
  have reread := NodeTable.rereads_node faithful segment.toList
  unfold nodeOf
  rw [bind_get]
  cases made : (world.compiler place).nodeTable.node segment.toList with
  | error fault =>
      rw [made] at reread
      cases read.symm.trans reread
  | ok result =>
      obtain ⟨found, table⟩ := result
      rw [made] at reread
      have same : found.bare = node := Except.ok.inj (reread.2.symm.trans read)
      have interned : Preparation world (world.setTable place table) := .intern made
      exact ⟨found, _, rfl, (Change.prepare interned).faithful faithful, same⟩

theorem nodesOf_of_read (source : String) {segments : List String} {nodes : List Node}
    (faithful : (world.compiler place).nodeTable.Faithful)
    (read : List.Forall₂ (fun segment node => NodeTable.read segment.toList = .ok node.bare)
      segments nodes) :
    ∃ made later, nodesOf place source segments world = .ok made later ∧
      made.map Node.bare = nodes.map Node.bare := by
  induction read generalizing world with
  | nil => exact ⟨[], world, rfl, rfl⟩
  | cons first _ inductionHypothesis =>
      obtain ⟨node, middle, ended, middleFaithful, same⟩ := nodeOf_of_read source faithful first
      obtain ⟨rest, later, endedRest, sameRest⟩ := inductionHypothesis middleFaithful
      refine ⟨node :: rest, later, ?_, by rw [List.map_cons, same, sameRest, List.map_cons]⟩
      rw [nodesOf, bind_of_ok ended, bind_of_ok endedRest]
      rfl

theorem checkTypes_prepares (place : Nat) (source typeName : String) (owner : Value)
    (nodes : List Node) (prepared : Prepares base world) :
    Ensures (checkTypes place source typeName owner nodes) world
      (fun _ later => Prepares base later) fun _ later => Prepares base later := by
  unfold checkTypes
  split
  · exact prepared
  · refine Ensures.get_bind (wrapping_keeps ?_)
    exact Ensures.bind (onGraph_prepares _ prepared) fun _ _ walked => walked

theorem checkRoot_prepares (place : Nat) (source : String) (rootType : Option Value)
    (parts : Option PathText.StaticParts) (nodes : List Node) (prepared : Prepares base world) :
    Ensures (checkRoot place source rootType parts nodes) world
      (fun _ later => Prepares base later ∧ Prepares world later)
      fun _ later => Prepares base later := by
  unfold checkRoot
  split
  · exact (checkTypes_prepares _ _ _ _ _ .refl).mono
      (fun _ _ further => ⟨prepared.trans further, further⟩) fun _ _ further =>
        prepared.trans further
  · exact ⟨prepared, .refl⟩

theorem enterPath_ensures (place : Nat) (source : String) (nodes : List Node)
    (rootType : Option Value) (world : World) :
    Ensures (enterPath place source nodes rootType) world
      (fun path later => later = world.enter place path ∧ path.compiler = place ∧
        path.source = source ∧ path.nodes = nodes ∧ path.rootType = rootType)
      fun fault later => later = world ∧ nodes = [] ∧
        fault = .invalidExpression source .noNodes none := by
  unfold enterPath
  split
  · rename_i present
    refine Ensures.get_bind ⟨?_, rfl, rfl, rfl, rfl⟩
    rfl
  · rename_i absent
    exact Ensures.throw ⟨rfl, not_not.1 absent, rfl⟩

/-- A text that can be cached: it is trimmed and not empty, and it is not cached yet. -/
structure Cacheable (world : World) (place : Nat) (source : String) : Prop where
  trimmed : Text.trim source = source
  notEmpty : source ≠ ""
  fresh : world.cached? place source = none

/-- A path is entered after it has been prepared; otherwise there is only what has been
prepared. -/
theorem newPath_ensures (place : Nat) (source : String) (world : World) :
    Ensures (newPath place source) world
      (fun made later => ∃ middle, Prepares world middle ∧ made.1.source = source ∧
        later = middle.enter place made.1 ∧
          (Cacheable world place source → Enters middle place made.1))
      fun _ later => Prepares world later := by
  unfold newPath
  refine (lift_peeks _ world).ensures_bind (fun parts parsed => ?_) fun _ => .refl
  refine (rootTypeOf_peeks place source parts world).ensures_bind (fun rootType resolved => ?_)
    fun _ => .refl
  refine (lift_peeks _ world).ensures_bind (fun segments split => ?_) fun _ => .refl
  refine Ensures.bind (checkCount_prepares place source segments.length .refl) ?_
  rintro _ counted ⟨preparedCount, allowed⟩
  refine Ensures.bind ((nodesOf_prepares place source segments preparedCount).mono (fun _ _ => id)
    fun _ _ ended => ended.1) ?_
  rintro nodes interned ⟨preparedNodes, _, sameLength, found⟩
  refine Ensures.bind (checkRoot_prepares place source rootType parts nodes preparedNodes) ?_
  rintro _ walked ⟨preparedWalk, further⟩
  refine Ensures.bind ((enterPath_ensures place source nodes rootType walked).mono (fun _ _ => id)
    fun _ _ ended => ended.1 ▸ preparedWalk) ?_
  rintro path later ⟨rfl, maker, rfl, rfl, rfl⟩
  have idle := preparedWalk.idle
  refine Ensures.pure ⟨walked, preparedWalk, rfl, rfl, fun cacheable => ?_⟩
  exact
    { maker := maker
      trimmed := cacheable.trimmed
      notEmpty := cacheable.notEmpty
      fresh := by rw [idle.cached?, cacheable.fresh]
      read := by
        refine ⟨parts, segments, parsed, by rw [idle.registryOf, resolved], split, fun present => ?_⟩
        obtain ⟨table, same, keeps⟩ := further.idle.compiler place
        have presentThen : place < counted.compilers.size := by
          rw [preparedCount.idle.size, ← idle.size]
          exact present
        rw [same]
        exact (found presentThen).imp fun _ _ => keeps _ _
      allowed := by
        obtain ⟨table, same, _⟩ := idle.compiler place
        rw [same, Path.size, sameLength]
        exact allowed }

/-! ## Handlers -/

/-- A path was made of a text after some changes of a world. -/
def MadeSince (world : World) (place : Nat) (source : String) (path : Path) : Prop :=
  ∃ early typeName after, Changes world early ∧
    newPath place source early = .ok (path, typeName) after

/-- What compiling makes of a world: a row of changes that leaves the registries alone, and what is
cached afterwards was cached before or has been made. -/
structure Makes (world later : World) : Prop where
  changes : Changes world later
  registries : later.registries = world.registries
  made : ∀ place source path, later.cached? place source = some path →
    world.cached? place source = some path ∨ MadeSince world place source path

theorem Makes.refl (world : World) : Makes world world :=
  ⟨.refl, rfl, fun _ _ _ => Or.inl⟩

theorem Makes.trans {first second third : World} (left : Makes first second)
    (right : Makes second third) : Makes first third where
  changes := left.changes.trans right.changes
  registries := right.registries.trans left.registries
  made := fun place source path found => by
    rcases right.made place source path found with earlier | ⟨early, typeName, after, onward, made⟩
    · exact left.made place source path earlier
    · exact Or.inr ⟨early, typeName, after, left.changes.trans onward, made⟩

/-- A change that leaves the registries and the caches alone. -/
theorem Makes.tail {later : World} (makes : Makes base world) (change : Change world later)
    (kept : later.registries = world.registries)
    (same : ∀ place source, later.cached? place source = world.cached? place source) :
    Makes base later where
  changes := makes.changes.tail change
  registries := kept.trans makes.registries
  made := fun place source path found => makes.made place source path (same place source ▸ found)

theorem makes_of_prepares {later : World} (prepares : Prepares world later) : Makes world later where
  changes := prepares.changes
  registries := prepares.idle.registries
  made := fun place source _ found => Or.inl (prepares.idle.cached? place source ▸ found)

/-- What is cached after a path was entered was cached before, or it is the path. -/
theorem cached?_enter {place other : Nat} {path found : Path} {source : String}
    (isCached : (world.enter place path).cached? other source = some found) :
    world.cached? other source = some found ∨
      other = place ∧ source = path.source ∧ found = path := by
  rcases compiler_modifyCompiler_cases world place other (·.enter path) with same | ⟨isPlace, same⟩
  · rw [World.cached?, World.enter, same] at isCached
    exact Or.inl isCached
  · rw [World.cached?, World.enter, same, Compiler.enter, Entries.get?_append] at isCached
    rw [World.cached?]
    cases before : Entries.get? (world.compiler other).expressions source with
    | some cached =>
        rw [before] at isCached
        exact Or.inl isCached
    | none =>
        rw [before] at isCached
        dsimp only at isCached
        split at isCached
        · rename_i isSource
          exact Or.inr ⟨isPlace, isSource.symm, (Option.some.inj isCached).symm⟩
        · cases isCached

/-- Work that makes a row of changes, however it ends. -/
def Changing {α : Type} (work : Session α) : Prop :=
  ∀ base world : World, Changes base world →
    Ensures work world (fun _ later => Changes base later) fun _ later => Changes base later

/-- Work that makes a row of changes and registers nothing, however it ends. -/
def Making {α : Type} (work : Session α) : Prop :=
  ∀ base world : World, Makes base world →
    Ensures work world (fun _ later => Makes base later) fun _ later => Makes base later

theorem Changing.changes {α : Type} {work : Session α} (changing : Changing work)
    (world : World) : Changes world (stateAfter work world) :=
  Ensures.stateAfter (changing world world .refl)

theorem Making.changing {α : Type} {work : Session α} (making : Making work) : Changing work :=
  fun _ world changed => (making world world (.refl world)).mono
    (fun _ _ makes => changed.trans makes.changes) fun _ _ makes => changed.trans makes.changes

section Handlers

variable {recompile : Nat → String → Session Unit}
  (recompiles : ∀ place text, Making (recompile place text))

include recompiles

theorem making_act (action : HandlerAction) : Making (act recompile action) := by
  intro base world made
  cases action with
  | nothing => exact made
  | raise message => exact made
  | compile name text => exact recompiles _ text _ _ made
  | remove name kind handler =>
      refine made.tail (.unsubscribe _ kind handler) rfl fun other source => ?_
      rcases compiler_modifyCompiler world _ other (·.unsubscribe kind handler) with same | same <;>
        rw [World.cached?, same] <;> rfl

theorem making_runHandlers (place : Nat) (kind : EventKind) (expression : String)
    (names : List String) : Making (runHandlers recompile place kind expression names) := by
  intro base world made
  induction names generalizing world with
  | nil => exact made
  | cons name rest inductionHypothesis =>
      unfold runHandlers
      refine Ensures.get_bind ?_
      split
      · split
        · exact inductionHypothesis _ made
        · rename_i handler _
          have logged : Makes base (world.log (.handled name handler.kind expression)) :=
            made.tail (.remark fun _ => rfl) rfl fun _ _ => rfl
          change Ensures (act recompile handler.action >>= fun _ =>
            runHandlers recompile place kind expression rest) (world.log _) _ _
          exact Ensures.bind (making_act recompiles handler.action _ _ logged) fun _ _ later =>
            inductionHypothesis _ later
      · exact inductionHypothesis _ made

/-! ## Compiling a text -/

/-- A new path that is reported stays cached, whatever the handlers of its report do. -/
theorem report_ensures {source : String} (cacheable : Cacheable world place source) {path : Path}
    {typeName : Option String} {later : World}
    (isMade : newPath place source world = .ok (path, typeName) later) :
    Ensures (emitWith recompile place .compiled source (.compiled place source path.size typeName))
      later
      (fun _ final => Makes world final ∧
        (place < world.compilers.size → final.cached? place source = some path))
      fun _ final => Makes world final ∧
        (place < world.compilers.size → final.cached? place source = some path) := by
  obtain ⟨middle, prepared, rfl, rfl, isNew⟩ := (newPath_ensures place source world).ok isMade
  have enters := isNew cacheable
  -- The path is entered and reported in one change, before any handler runs.
  let entered := (middle.enter place path).log (.compiled place path.source path.size typeName)
  have made : Makes world entered :=
    { changes := prepared.changes.tail (.enter typeName enters)
      registries := prepared.idle.registries
      made := fun other text found isCached => by
        rw [← prepared.idle.cached? other text]
        rcases cached?_enter isCached with earlier | ⟨rfl, rfl, rfl⟩
        · exact Or.inl earlier
        · exact Or.inr ⟨world, typeName, _, .refl, isMade⟩ }
  have stays : ∀ final, Makes entered final → Makes world final ∧
      (place < world.compilers.size → final.cached? place path.source = some path) := by
    refine fun final onward => ⟨made.trans onward, fun present => ?_⟩
    exact onward.changes.cached? (made.changes.size ▸ present)
      (enters.cached?_enter (prepared.idle.size ▸ present))
  have handled : Ensures (runHandlers recompile place .compiled path.source
      ((entered.compiler place).handlers .compiled)) entered
      (fun _ final => Makes entered final) fun _ final => Makes entered final :=
    making_runHandlers recompiles place .compiled path.source _ _ _ (.refl entered)
  exact handled.mono (fun _ => stays) fun _ => stays

theorem makePath_ensures (place : Nat) {source : String} (cacheable : Cacheable world place source) :
    Ensures (makePath recompile place source) world
      (fun path later => Makes world later ∧
        (place < world.compilers.size → later.cached? place source = some path))
      fun _ later => Makes world later := by
  unfold makePath
  cases made : newPath place source world with
  | error fault later =>
      exact Ensures.error_bind made
        (makes_of_prepares ((newPath_ensures place source world).error made))
  | ok result later =>
      obtain ⟨path, typeName⟩ := result
      refine Ensures.ok_bind made (Ensures.bind ((report_ensures recompiles cacheable made).mono
        (fun _ _ => id) fun _ _ ended => ended.1) ?_)
      exact fun _ _ ended => Ensures.pure ended

theorem compileWith_ensures (place : Nat) (text : String) :
    Ensures (compileWith recompile place text) world
      (fun path later => Makes world later ∧
        (place < world.compilers.size → later.cached? place (Text.trim text) = some path))
      fun _ later => Makes world later := by
  unfold compileWith
  dsimp only
  split
  · exact Ensures.throw (.refl world)
  · rename_i notEmpty
    refine Ensures.get_bind ?_
    cases found : world.cached? place (Text.trim text) with
    | none =>
        rw [World.cached?] at found
        rw [found]
        exact makePath_ensures recompiles place ⟨Text.trim_trim text, notEmpty, found⟩
    | some path =>
        rw [World.cached?] at found
        rw [found]
        exact Ensures.pure ⟨.refl world, fun _ => found⟩

end Handlers

theorem compileWithin_ensures (depth place : Nat) (text : String) (world : World) :
    Ensures (compileWithin depth place text) world
      (fun path later => Makes world later ∧
        (place < world.compilers.size → later.cached? place (Text.trim text) = some path))
      fun _ later => Makes world later := by
  induction depth generalizing place text world with
  | zero => exact Ensures.throw (.refl world)
  | succ depth inductionHypothesis =>
      refine compileWith_ensures (fun other nested => ?_) place text
      intro base between made
      refine Ensures.bind ((inductionHypothesis other nested between).mono
        (fun _ _ ended => made.trans ended.1) fun _ _ ended => made.trans ended) ?_
      exact fun _ _ ended => ended

/-- What a text compiles to is cached for the trimmed text. -/
theorem compile_ensures (place : Nat) (text : String) (world : World) :
    Ensures (compile place text) world
      (fun path later => Makes world later ∧
        (place < world.compilers.size → later.cached? place (Text.trim text) = some path))
      fun _ later => Makes world later :=
  Ensures.get_bind (compileWithin_ensures _ place text world)

/-- What is known of a path after a text was compiled to it. -/
theorem cached_of_compile {place : Nat} {text : String} {path : Path} {later : World}
    (sound : Sound world place) (compiled : compile place text world = .ok path later) :
    Changes world later ∧ later.cached? place (Text.trim text) = some path ∧
      Cached later place (Text.trim text, path) := by
  obtain ⟨makes, isCached⟩ := (compile_ensures place text world).ok compiled
  have found := isCached sound.present
  exact ⟨makes.changes, found, (makes.changes.sound sound).cached _ (Entries.mem_of_get? found)⟩

theorem making_compile (place : Nat) (text : String) : Making (compile place text) :=
  fun _ _ made => (compile_ensures place text _).mono (fun _ _ ended => made.trans ended.1)
    fun _ _ ended => made.trans ended

theorem making_emit (place : Nat) (kind : EventKind) (expression : String) {event : Event}
    (remark : ∀ other, event.compiledBy other = none) :
    Making (emit place kind expression event) := by
  have recompiles : ∀ other nested, Making (do let _ ← compile other nested; pure ()) :=
    fun other nested _ _ made => Ensures.bind (making_compile other nested _ _ made)
      fun _ _ ended => ended
  intro base world made
  exact making_runHandlers recompiles place kind expression _ base (world.log event)
    (made.tail (.remark remark) rfl fun _ _ => rfl)

theorem changing_emit (place : Nat) (kind : EventKind) (expression : String) {event : Event}
    (remark : ∀ other, event.compiledBy other = none) :
    Changing (emit place kind expression event) :=
  (making_emit place kind expression remark).changing

/-! ## Compilations that fail -/

/-- How a handler compiles while a text is compiled in a world. -/
def recompiling (world : World) (place : Nat) (text : String) : Session Unit := do
  let _ ← compileWithin (world.handlers.length + 1) place text
  pure ()

theorem compile_eq (place : Nat) (text : String) (world : World) :
    compile place text world = compileWith (recompiling world) place text world :=
  rfl

/-- If a new path is made of a text, the handlers of its report do not fail. -/
def ReportReturns (place : Nat) (source : String) (world : World) : Prop :=
  ∀ path typeName later, newPath place source world = .ok (path, typeName) later →
    ∃ final, emitWith (recompiling world) place .compiled source
      (.compiled place source path.size typeName) later = .ok () final

/-- Making a path leaves the handlers alone. -/
theorem newPath_handlers {place : Nat} {source : String} {path : Path} {typeName : Option String}
    {later : World} (made : newPath place source world = .ok (path, typeName) later) :
    later.handlers = world.handlers ∧
      ∀ other, (later.compiler other).handlers = (world.compiler other).handlers := by
  obtain ⟨middle, prepared, _, rfl, _⟩ := (newPath_ensures place source world).ok made
  have idle := prepared.idle
  refine ⟨idle.handlers, fun other => ?_⟩
  obtain ⟨table, same, _⟩ := idle.compiler other
  rcases compiler_modifyCompiler middle place other (·.enter path) with kept | changed
  · rw [World.enter, kept, same]
  · rw [World.enter, changed, same]
    rfl

/-- Where nothing handles the reports of new paths, no report fails. -/
theorem reportReturns_of_unhandled {place : Nat} (source : String)
    (unhandled : (world.compiler place).handlers .compiled = []) :
    ReportReturns place source world := by
  intro path typeName later made
  have nobody : (later.compiler place).handlers .compiled = [] := by
    rw [(newPath_handlers made).2, unhandled]
  refine ⟨later.log (.compiled place source path.size typeName), ?_⟩
  unfold emitWith
  change runHandlers _ _ _ _ ((later.compiler place).handlers .compiled) _ = _
  rw [nobody]
  rfl

/-- A handler that raises a fault makes the report fail. -/
theorem emitWith_of_raise {recompile : Nat → String → Session Unit} {place : Nat}
    {kind made : EventKind} {expression message name : String} {rest : List String} {event : Event}
    (handled : (world.compiler place).handlers kind = name :: rest)
    (raises : Entries.get? world.handlers name = some ⟨made, .raise message⟩) :
    ∃ later, emitWith recompile place kind expression event world =
      .error (.raised message) later := by
  refine ⟨(world.log event).log (.handled name made expression), ?_⟩
  unfold emitWith
  change runHandlers _ _ _ _ ((world.compiler place).handlers kind) (world.log event) = _
  rw [handled, runHandlers, bind_get]
  have subscribed : (((world.log event).compiler place).handlers kind).contains name = true := by
    rw [compiler_log, handled]
    simp
  have found : Entries.get? (world.log event).handlers name = some ⟨made, .raise message⟩ := raises
  rw [if_pos subscribed]
  simp only [found]
  rfl

/-- A cached path is found again. -/
theorem compile_of_cached {place : Nat} {text : String} {path : Path}
    (notEmpty : Text.trim text ≠ "") (found : world.cached? place (Text.trim text) = some path) :
    compile place text world = .ok path world := by
  rw [compile_eq, compileWith, if_neg notEmpty, bind_get]
  rw [World.cached?] at found
  rw [found]
  rfl

theorem compile_of_empty {place : Nat} {text : String} (empty : Text.trim text = "") :
    compile place text world = .error (.invalidExpression (Text.trim text) .empty none) world := by
  rw [compile_eq, compileWith, if_pos empty]
  rfl

theorem trim_ne_empty_of_compile {place : Nat} {text : String} {path : Path} {later : World}
    (compiled : compile place text world = .ok path later) : Text.trim text ≠ "" := by
  intro empty
  cases (compile_of_empty empty).symm.trans compiled

/-- A path that is not cached is made and reported. -/
theorem compile_of_uncached {place : Nat} {text : String} (notEmpty : Text.trim text ≠ "")
    (fresh : world.cached? place (Text.trim text) = none) :
    compile place text world = makePath (recompiling world) place (Text.trim text) world := by
  rw [World.cached?] at fresh
  rw [compile_eq, compileWith, if_neg notEmpty, bind_get, fresh]

/-- A path that is not cached is made. -/
theorem compile_of_fresh {place : Nat} {text : String} (notEmpty : Text.trim text ≠ "")
    (fresh : world.cached? place (Text.trim text) = none)
    (returns : ReportReturns place (Text.trim text) world) :
    Ensures (compile place text) world
      (fun path _ => ∃ typeName later,
        newPath place (Text.trim text) world = .ok (path, typeName) later)
      fun fault later => newPath place (Text.trim text) world = .error fault later := by
  unfold Ensures
  rw [compile_of_uncached notEmpty fresh, makePath]
  cases made : newPath place (Text.trim text) world with
  | error fault later =>
      rw [bind_of_error made]
  | ok result later =>
      obtain ⟨path, typeName⟩ := result
      obtain ⟨final, reported⟩ := returns path typeName later made
      rw [bind_of_ok made]
      dsimp only
      rw [bind_of_ok reported]
      exact ⟨typeName, later, rfl⟩

/-- What a text that is not cached compiles to is a path that was made and reported. -/
theorem newPath_of_compile {place : Nat} {text : String}
    (fresh : world.cached? place (Text.trim text) = none) {path : Path} {later : World}
    (compiled : compile place text world = .ok path later) :
    ∃ typeName middle, newPath place (Text.trim text) world = .ok (path, typeName) middle ∧
      emitWith (recompiling world) place .compiled (Text.trim text)
        (.compiled place (Text.trim text) path.size typeName) middle = .ok () later := by
  rw [compile_of_uncached (trim_ne_empty_of_compile compiled) fresh] at compiled
  obtain ⟨⟨made, typeName⟩, middle, isNew, reported⟩ := ok_of_bind compiled
  obtain ⟨_, final, emitted, returned⟩ := ok_of_bind reported
  cases returned
  exact ⟨typeName, middle, isNew, emitted⟩

/-- A text that is not cached compiles exactly if a path is made of it and its report returns. -/
theorem compile_ok_iff_of_uncached {place : Nat} {text : String} (notEmpty : Text.trim text ≠ "")
    (fresh : world.cached? place (Text.trim text) = none) :
    (∃ path later, compile place text world = .ok path later) ↔
      (∃ made later, newPath place (Text.trim text) world = .ok made later) ∧
        ReportReturns place (Text.trim text) world := by
  constructor
  · rintro ⟨path, later, compiled⟩
    obtain ⟨typeName, middle, isNew, emitted⟩ := newPath_of_compile fresh compiled
    refine ⟨⟨_, _, isNew⟩, fun other otherName between again => ?_⟩
    cases isNew.symm.trans again
    exact ⟨later, emitted⟩
  · rintro ⟨⟨⟨path, typeName⟩, later, made⟩, returns⟩
    obtain ⟨final, reported⟩ := returns path typeName later made
    refine ⟨path, final, ?_⟩
    rw [compile_of_uncached notEmpty fresh, makePath, bind_of_ok made]
    exact bind_of_ok reported

/-- A path that is made of a text is cached when the compilation ends, also if its report fails. -/
theorem stateAfter_compile_of_newPath {place : Nat} {text : String}
    (present : place < world.compilers.size) (notEmpty : Text.trim text ≠ "")
    (fresh : world.cached? place (Text.trim text) = none) {path : Path} {typeName : Option String}
    {later : World} (made : newPath place (Text.trim text) world = .ok (path, typeName) later) :
    (stateAfter (compile place text) world).cached? place (Text.trim text) = some path := by
  have recompiles : ∀ other nested, Making (recompiling world other nested) :=
    fun other nested base between makes => Ensures.bind
      ((compileWithin_ensures _ other nested between).mono (fun _ _ ended => makes.trans ended.1)
        fun _ _ ended => makes.trans ended) fun _ _ ended => ended
  have reports := report_ensures recompiles ⟨Text.trim_trim text, notEmpty, fresh⟩ made
  have ends : Ensures (compile place text) world
      (fun _ final => final.cached? place (Text.trim text) = some path)
      fun _ final => final.cached? place (Text.trim text) = some path := by
    rw [Ensures, compile_of_uncached notEmpty fresh]
    exact Ensures.ok_bind made (Ensures.bind (reports.mono (fun _ _ ended => ended.2 present)
      fun _ _ ended => ended.2 present) fun _ _ ended => Ensures.pure ended)
  exact ends.stateAfter

/-- A text of which no path is made does not compile. -/
theorem compile_of_newPath_error {place : Nat} {text : String} (notEmpty : Text.trim text ≠ "")
    (fresh : world.cached? place (Text.trim text) = none) {fault : Fault} {later : World}
    (failed : newPath place (Text.trim text) world = .error fault later) :
    compile place text world = .error fault later := by
  rw [compile_of_uncached notEmpty fresh, makePath, bind_of_error failed]

/-- Where nothing handles the reports of new paths, compiling leaves the handlers of all compilers
alone. -/
theorem handlers_of_compile {place : Nat} {text : String} {path : Path} {later : World}
    (unhandled : (world.compiler place).handlers .compiled = [])
    (compiled : compile place text world = .ok path later) (other : Nat) :
    (later.compiler other).handlers = (world.compiler other).handlers := by
  cases found : world.cached? place (Text.trim text) with
  | some cached =>
      cases (compile_of_cached (trim_ne_empty_of_compile compiled) found).symm.trans compiled
      rfl
  | none =>
      obtain ⟨typeName, middle, isNew, emitted⟩ := newPath_of_compile found compiled
      have nobody : (middle.compiler place).handlers .compiled = [] := by
        rw [(newPath_handlers isNew).2, unhandled]
      unfold emitWith at emitted
      change runHandlers _ _ _ _ ((middle.compiler place).handlers .compiled) _ = _ at emitted
      rw [nobody] at emitted
      cases emitted
      exact (newPath_handlers isNew).2 other

theorem unhandled_of_compile {place : Nat} {text : String} {path : Path} {later : World}
    (unhandled : (world.compiler place).handlers .compiled = [])
    (compiled : compile place text world = .ok path later) :
    (later.compiler place).handlers .compiled = [] := by
  rw [handlers_of_compile unhandled compiled, unhandled]

/-- A report that fails makes the compilation fail. -/
theorem compile_of_report_error {place : Nat} {text : String} (notEmpty : Text.trim text ≠ "")
    (fresh : world.cached? place (Text.trim text) = none) {path : Path} {typeName : Option String}
    {later final : World} {fault : Fault}
    (made : newPath place (Text.trim text) world = .ok (path, typeName) later)
    (failed : emitWith (recompiling world) place .compiled (Text.trim text)
      (.compiled place (Text.trim text) path.size typeName) later = .error fault final) :
    compile place text world = .error fault final := by
  rw [compile_of_uncached notEmpty fresh, makePath, bind_of_ok made]
  dsimp only
  rw [bind_of_error failed]

/-- Where the first handler of the reports raises a fault, a text of which a path is made does not
compile, but the path is cached. -/
theorem compile_of_raise {place : Nat} {text : String} (present : place < world.compilers.size)
    (notEmpty : Text.trim text ≠ "") (fresh : world.cached? place (Text.trim text) = none)
    {name message : String} {rest : List String} {kind : EventKind}
    (handled : (world.compiler place).handlers .compiled = name :: rest)
    (raises : Entries.get? world.handlers name = some ⟨kind, .raise message⟩) {path : Path}
    {typeName : Option String} {later : World}
    (made : newPath place (Text.trim text) world = .ok (path, typeName) later) :
    ∃ final, compile place text world = .error (.raised message) final ∧
      final.cached? place (Text.trim text) = some path := by
  obtain ⟨handlers, own⟩ := newPath_handlers made
  obtain ⟨final, reported⟩ := emitWith_of_raise (by rwa [own]) (by rwa [handlers])
  have failed := compile_of_report_error notEmpty fresh made reported
  refine ⟨final, failed, ?_⟩
  rw [← stateAfter_of_error failed]
  exact stateAfter_compile_of_newPath present notEmpty fresh made

/-! ## Asking for a text -/

/-- A world in which code may have run and types may have been registered since another one, but
no compiler has changed and nothing has been logged. -/
structure Consults (world later : World) : Prop where
  changes : Changes world later
  compilers : later.compilers = world.compilers
  events : later.events = world.events

theorem Consults.refl (world : World) : Consults world world :=
  ⟨.refl, rfl, rfl⟩

/-- Work that only runs code and registers types, however it ends. -/
def Consulting {α : Type} (work : Session α) : Prop :=
  ∀ base world : World, Consults base world →
    Ensures work world (fun _ later => Consults base later) fun _ later => Consults base later

theorem Consulting.bind {α β : Type} {work : Session α} {next : α → Session β}
    (first : Consulting work) (rest : ∀ value, Consulting (next value)) :
    Consulting (work >>= next) :=
  fun _ _ consults => Ensures.bind (first _ _ consults) fun value _ later => rest value _ _ later

theorem Consulting.get_bind {α : Type} {next : World → Session α}
    (rest : ∀ world, Consulting (next world)) : Consulting (get >>= next) :=
  fun _ _ consults => Ensures.get_bind (rest _ _ _ consults)

theorem Consulting.tryCatch {α : Type} {work : Session α} {handle : Fault → Session α}
    (first : Consulting work) (rest : ∀ fault, Consulting (handle fault)) :
    Consulting (tryCatch work handle) :=
  fun _ _ consults => Ensures.tryCatch (first _ _ consults) fun fault _ later => rest fault _ _ later

theorem consulting_pure {α : Type} (value : α) : Consulting (pure value) :=
  fun _ _ => id

theorem consulting_throw {α : Type} (fault : Fault) : Consulting (throw fault : Session α) :=
  fun _ _ => id

theorem consulting_lift {α : Type} (result : Except Fault α) : Consulting (lift result) := by
  cases result with
  | ok value => exact consulting_pure value
  | error fault => exact consulting_throw fault

theorem Consults.graph (consults : Consults base world) (graph : Graph) :
    Consults base { world with graph := graph } :=
  ⟨consults.changes.tail (.prepare (.graph graph)), consults.compilers, consults.events⟩

theorem Consults.register (consults : Consults base world) (registry : String)
    {name type : Value} {later : Registry}
    (registers : Registry.Registers (world.registry registry) name type later) :
    Consults base (world.setRegistry registry later) :=
  ⟨consults.changes.tail (.register registry registers), consults.compilers, consults.events⟩

/-- A run on the graph changes only the graph, and what it gives is as the run says. -/
theorem onGraph_gives {α : Type} {run : Run α} {holds : α → Prop} (gives : Gives run holds)
    (world : World) :
    Ensures (onGraph run) world
      (fun value later => holds value ∧ ∃ graph, later = { world with graph := graph })
      fun _ later => ∃ graph, later = { world with graph := graph } := by
  unfold Ensures onGraph
  cases ended : run world.graph with
  | ok value graph => exact ⟨gives _ _ _ ended, graph, rfl⟩
  | error fault graph => exact ⟨graph, rfl⟩

theorem consulting_onGraph {α : Type} (run : Run α) : Consulting (onGraph run) := by
  intro base world consults
  have always : Gives run fun _ => True := fun _ _ _ _ => trivial
  refine (onGraph_gives always world).mono ?_ ?_
  · rintro _ _ ⟨_, graph, rfl⟩
    exact consults.graph graph
  · rintro _ _ ⟨graph, rfl⟩
    exact consults.graph graph

theorem consulting_nameOf (registry : String) (type : Value) :
    Consulting (nameOf registry type) := by
  intro base world consults
  refine Ensures.get_bind (Ensures.bind
    ((onGraph_gives (Registry.nameOf_gives _ type) world).mono (fun _ _ => id) ?_) ?_)
  · rintro _ _ ⟨graph, rfl⟩
    exact consults.graph graph
  · rintro ⟨known, later⟩ _ ⟨⟨_, registers⟩, graph, rfl⟩
    have registered := (consults.graph graph).register registry registers
    cases known with
    | some name => exact Ensures.ok_bind rfl registered
    | none => exact Ensures.ok_bind rfl (consulting_onGraph _ _ _ registered)

theorem consulting_register (registry name : String) (type : Value) :
    Consulting (register registry name type) := by
  intro base world consults
  refine Ensures.get_bind (Ensures.bind
    ((onGraph_gives (Registry.register_gives _ (.string name) type) world).mono (fun _ _ => id) ?_) ?_)
  · rintro _ _ ⟨graph, rfl⟩
    exact consults.graph graph
  · rintro later _ ⟨registers, graph, rfl⟩
    exact (consults.graph graph).register registry registers

theorem consulting_boundText (place : Nat) (type : Value) (text : String) :
    Consulting (boundText place type text) := by
  refine Consulting.get_bind fun world => ?_
  refine Consulting.bind ((consulting_nameOf _ type).tryCatch fun _ => consulting_throw _) ?_
  exact fun name => (consulting_onGraph _).bind fun nameText => consulting_lift _

theorem consulting_boundValueText (place : Nat) (type value : Value) :
    Consulting (boundValueText place type value) := by
  refine Consulting.get_bind fun world => ?_
  refine Consulting.bind ((consulting_nameOf _ type).tryCatch fun _ =>
    (consulting_onGraph _).bind fun fault => consulting_throw fault) ?_
  exact fun name => (consulting_onGraph _).bind fun nameText =>
    (consulting_onGraph _).bind fun body => consulting_pure _

/-- Whatever is asked for, asking runs code and registers types at most. -/
theorem consulting_requestedText (place : Nat) (values : List Value) :
    Consulting (requestedText place values) := by
  unfold requestedText
  dsimp only
  split
  · exact consulting_pure _
  · exact consulting_throw _
  · split
    · exact consulting_pure _
    · exact consulting_boundText _ _ _
  · split
    · exact (consulting_onGraph _).bind fun _ => consulting_throw _
    · exact consulting_boundValueText _ _ _

theorem Consulting.changing {α : Type} {work : Session α} (consulting : Consulting work) :
    Changing work := fun _ world changed =>
  (consulting world world (.refl world)).mono (fun _ _ consults => changed.trans consults.changes)
    fun _ _ consults => changed.trans consults.changes

theorem changing_compileValues (place : Nat) (values : List Value) :
    Changing (compileValues place values) := by
  intro base world changed
  refine Ensures.bind ((consulting_requestedText place values).changing _ _ changed) ?_
  exact fun text later laterChanged => (making_compile place text).changing _ _ laterChanged

end Session

end ObjectPath
