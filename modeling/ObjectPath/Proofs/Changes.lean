import Mathlib.Logic.Relation
import ObjectPath.Compile
import ObjectPath.Proofs.Interning
import ObjectPath.Proofs.Progress
import ObjectPath.Proofs.Registering

/-!
# Changes of worlds

All that compiling does to a world is a row of small changes: it prepares a path by work on the
graph and by interning nodes, it enters the path into the cache and logs that at once, and
handlers leave their own entries in the log or unsubscribe one another.  What every change
keeps, every compilation keeps: settings stay, cached paths and registered names are not lost,
and each new path is what its text reads as.
-/

namespace ObjectPath

/-! ## Limits -/

/-- A limit that is a number does not lie below a count. -/
def Number.Allows (limit : Number) (count : Nat) : Prop :=
  (limit.point?.map (·.before (.ofInt count))).getD false = false

/-! ## Reports of new paths -/

/-- The text of the new path that an event reports, if it is a report of the compiler. -/
def Event.compiledBy (place : Nat) : Event → Option String
  | .compiled compiler expression _ _ => if compiler = place then some expression else none
  | _ => none

/-! ## Paths that their texts read as -/

namespace Path

/-- A path is what its text reads as where the names of types have the meanings of a registry:
it starts from the type that the text names, and its nodes are those of its segments up to the
numbers that their table gave them. -/
structure IsRead (registry : Registry) (path : Path) : Prop where
  trimmed : Text.trim path.source = path.source
  notEmpty : path.source ≠ ""
  read : ∃ parts segments, PathText.parseStatic path.source = .ok parts ∧
    parts.map (fun parts => registry.type? (.string parts.typeName)) = path.rootType.map some ∧
    PathText.splitSegments path.source ((parts.map (·.body)).getD path.source) = .ok segments ∧
    List.Forall₂ (fun segment node => NodeTable.read segment.toList = .ok node.bare) segments
      path.nodes

theorem IsRead.mono {registry later : Registry} {path : Path} (isRead : path.IsRead registry)
    (grows : ∀ name type, registry.type? name = some type → later.type? name = some type) :
    path.IsRead later where
  trimmed := isRead.trimmed
  notEmpty := isRead.notEmpty
  read := by
    obtain ⟨parts, segments, parsed, resolved, split, nodes⟩ := isRead.read
    refine ⟨parts, segments, parsed, ?_, split, nodes⟩
    cases parts with
    | none => exact resolved
    | some parts =>
        cases found : path.rootType with
        | none =>
            rw [found] at resolved
            cases resolved
        | some owner =>
            rw [found] at resolved
            exact congrArg some (grows _ _ (Option.some.inj resolved))

end Path

/-- The compiler with one more cached path. -/
def Compiler.enter (compiler : Compiler) (path : Path) : Compiler :=
  { compiler with
    expressions := compiler.expressions ++ [(path.source, path)]
    nextSerial := compiler.nextSerial + 1 }

namespace World

/-! ## Compilers and registries of a world -/

/-- The registry in which a compiler looks up root types. -/
def registryOf (world : World) (place : Nat) : Registry :=
  world.registry (world.compiler place).registry

/-- The path that a compiler has cached for a text. -/
def cached? (world : World) (place : Nat) (source : String) : Option Path :=
  Entries.get? (world.compiler place).expressions source

/-- Enters a path into the cache of a compiler. -/
def enter (world : World) (place : Nat) (path : Path) : World :=
  world.modifyCompiler place (·.enter path)

/-- Replaces the node table of a compiler. -/
def setTable (world : World) (place : Nat) (table : NodeTable) : World :=
  world.modifyCompiler place fun changed => { changed with nodeTable := table }

/-- A changed compiler is the one that was meant, or it has not changed. -/
theorem compiler_modifyCompiler_cases (world : World) (place other : Nat)
    (change : Compiler → Compiler) :
    (world.modifyCompiler place change).compiler other = world.compiler other ∨
      other = place ∧ (world.modifyCompiler place change).compiler other =
        change (world.compiler other) := by
  unfold compiler modifyCompiler
  simp only [Array.getD_eq_getD_getElem?, Array.getElem?_modify]
  split
  · rename_i same
    cases world.compilers[other]? with
    | none => exact Or.inl rfl
    | some found => exact Or.inr ⟨same.symm, rfl⟩
  · exact Or.inl rfl

theorem compiler_modifyCompiler_self {world : World} {place : Nat}
    (present : place < world.compilers.size) (change : Compiler → Compiler) :
    (world.modifyCompiler place change).compiler place = change (world.compiler place) := by
  unfold compiler modifyCompiler
  simp only [Array.getD_eq_getD_getElem?, Array.getElem?_modify, if_true,
    Array.getElem?_eq_getElem present, Option.map_some, Option.getD_some]

@[simp]
theorem compiler_log (world : World) (event : Event) (place : Nat) :
    (world.log event).compiler place = world.compiler place :=
  rfl

@[simp]
theorem size_modifyCompiler (world : World) (place : Nat) (change : Compiler → Compiler) :
    (world.modifyCompiler place change).compilers.size = world.compilers.size :=
  Array.size_modify

theorem registry_setRegistry (world : World) (name other : String) (registry : Registry) :
    (world.setRegistry name registry).registry other =
      if other = name then registry else world.registry other := by
  unfold World.registry setRegistry
  rw [Entries.get?_put]
  split <;> rfl

/-! ## Changes -/

/-- A change that prepares a path: work on the graph, or a node in a table. -/
inductive Preparation (world : World) : World → Prop
  | graph (graph : Graph) : Preparation world { world with graph := graph }
  | intern {place : Nat} {text : List Char} {node : Node} {table : NodeTable} :
      (world.compiler place).nodeTable.node text = .ok (node, table) →
        Preparation world (world.setTable place table)

/-- What is known of a path when it is entered into the cache of a compiler: it is new there, it
is what its text reads as, and it has no more nodes than the compiler allows. -/
structure Enters (world : World) (place : Nat) (path : Path) : Prop where
  maker : path.compiler = place
  trimmed : Text.trim path.source = path.source
  notEmpty : path.source ≠ ""
  fresh : world.cached? place path.source = none
  read : ∃ parts segments, PathText.parseStatic path.source = .ok parts ∧
    parts.map (fun parts => (world.registryOf place).type? (.string parts.typeName)) =
      path.rootType.map some ∧
    PathText.splitSegments path.source ((parts.map (·.body)).getD path.source) = .ok segments ∧
    (place < world.compilers.size → List.Forall₂ (fun segment node =>
      Entries.get? (world.compiler place).nodeTable.entries segment = some node) segments path.nodes)
  allowed : ∀ limit, (world.compiler place).maxNodes = .number limit → limit.Allows path.size

/-- A change that compiling makes. -/
inductive Change (world : World) : World → Prop
  | prepare {later : World} : Preparation world later → Change world later
  | enter {place : Nat} {path : Path} (typeName : Option String) : Enters world place path →
      Change world ((world.enter place path).log
        (.compiled place path.source path.size typeName))
  | remark {event : Event} : (∀ place, event.compiledBy place = none) →
      Change world (world.log event)
  | unsubscribe (place : Nat) (kind : EventKind) (handler : String) :
      Change world (world.modifyCompiler place (·.unsubscribe kind handler))
  | register (registry : String) {name type : Value} {later : Registry} :
      Registry.Registers (world.registry registry) name type later →
        Change world (world.setRegistry registry later)

/-- A row of preparations. -/
abbrev Prepares : World → World → Prop :=
  Relation.ReflTransGen Preparation

/-- A row of changes. -/
abbrev Changes : World → World → Prop :=
  Relation.ReflTransGen Change

theorem Prepares.changes {world later : World} (prepares : Prepares world later) :
    Changes world later :=
  Relation.ReflTransGen.mono (fun _ _ preparation => Change.prepare preparation) _ _ prepares

/-! ## What changes keep -/

/-- What every change keeps, a row of changes keeps. -/
theorem Changes.keeps (holds : World → Prop)
    (each : ∀ world later, Change world later → holds world → holds later) {world later : World}
    (changes : Changes world later) (start : holds world) : holds later := by
  induction changes with
  | refl => exact start
  | tail _ change inductionHypothesis => exact each _ _ change inductionHypothesis

theorem Change.size {world later : World} (change : Change world later) :
    later.compilers.size = world.compilers.size := by
  cases change with
  | prepare preparation => cases preparation <;> simp [setTable]
  | enter => simp [World.enter, log]
  | remark => rfl
  | unsubscribe => simp
  | register => rfl

/-- A compiler keeps its settings. -/
theorem Change.settings {world later : World} (change : Change world later) (place : Nat) :
    (later.compiler place).maxNodes = (world.compiler place).maxNodes ∧
      (later.compiler place).registry = (world.compiler place).registry := by
  have modified : ∀ other (alter : Compiler → Compiler),
      (∀ compiler, (alter compiler).maxNodes = compiler.maxNodes ∧
        (alter compiler).registry = compiler.registry) →
      ((world.modifyCompiler other alter).compiler place).maxNodes =
          (world.compiler place).maxNodes ∧
        ((world.modifyCompiler other alter).compiler place).registry =
          (world.compiler place).registry := by
    intro other alter keeps
    rcases compiler_modifyCompiler world other place alter with same | same <;> rw [same]
    · exact ⟨rfl, rfl⟩
    · exact keeps _
  cases change with
  | prepare preparation =>
      cases preparation with
      | graph => exact ⟨rfl, rfl⟩
      | intern => exact modified _ _ fun _ => ⟨rfl, rfl⟩
  | enter => exact modified _ _ fun _ => ⟨rfl, rfl⟩
  | remark => exact ⟨rfl, rfl⟩
  | unsubscribe => exact modified _ _ fun _ => ⟨rfl, rfl⟩
  | register => exact ⟨rfl, rfl⟩

/-- A name stays bound to its type. -/
theorem Change.type? {world later : World} (change : Change world later) {registry : String}
    {name type : Value} (found : (world.registry registry).type? name = some type) :
    (later.registry registry).type? name = some type := by
  cases change with
  | prepare preparation => cases preparation <;> exact found
  | register other registers =>
      rw [registry_setRegistry]
      split
      · rename_i same
        subst same
        exact registers.type? found
      · exact found
  | _ => exact found

/-- Names and types stay matched one to one. -/
theorem Change.matched {world later : World} (change : Change world later) {name : String}
    (matched : (world.registry name).Matched) : (later.registry name).Matched := by
  cases change with
  | prepare preparation => cases preparation <;> exact matched
  | register other registers =>
      rw [registry_setRegistry]
      split
      · rename_i same
        subst same
        exact registers.matched matched
      · exact matched
  | _ => exact matched

theorem Change.registryOf {world later : World} (change : Change world later) {place : Nat}
    {name type : Value} (found : (world.registryOf place).type? name = some type) :
    (later.registryOf place).type? name = some type := by
  rw [World.registryOf, (change.settings place).2]
  exact change.type? found

/-! ## Sound caches -/

/-- What is known of an entry in the cache of a compiler: its path is what the text reads as,
and has no more nodes than the compiler allows. -/
structure Cached (world : World) (place : Nat) (entry : String × Path) : Prop where
  source : entry.2.source = entry.1
  maker : entry.2.compiler = place
  isRead : entry.2.IsRead (world.registryOf place)
  allowed : ∀ limit, (world.compiler place).maxNodes = .number limit → limit.Allows entry.2.size

theorem Change.cached {world later : World} (change : Change world later) {place : Nat}
    {entry : String × Path} (cached : Cached world place entry) : Cached later place entry where
  source := cached.source
  maker := cached.maker
  isRead := cached.isRead.mono fun _ _ => change.registryOf
  allowed := by
    rw [(change.settings place).1]
    exact cached.allowed

/-- The caches of a compiler hold nothing but what texts read as, each text once. -/
structure Sound (world : World) (place : Nat) : Prop where
  present : place < world.compilers.size
  cached : ∀ entry ∈ (world.compiler place).expressions, Cached world place entry
  distinct : ((world.compiler place).expressions.map Prod.fst).Nodup
  faithful : (world.compiler place).nodeTable.Faithful

/-- A new path is what its text reads as. -/
theorem Enters.cached {world : World} {place : Nat} {path : Path}
    (enters : Enters world place path) (sound : Sound world place) :
    Cached world place (path.source, path) where
  source := rfl
  maker := enters.maker
  isRead := by
    obtain ⟨parts, segments, parsed, resolved, split, nodes⟩ := enters.read
    exact ⟨enters.trimmed, enters.notEmpty, parts, segments, parsed, resolved, split,
      (nodes sound.present).imp fun segment node => sound.faithful segment node⟩
  allowed := enters.allowed

/-- What is in the tables of nodes stays what texts read as. -/
theorem Change.faithful {world later : World} (change : Change world later) {place : Nat}
    (faithful : (world.compiler place).nodeTable.Faithful) :
    (later.compiler place).nodeTable.Faithful := by
  cases change with
  | prepare preparation =>
      cases preparation with
      | graph => exact faithful
      | @intern other text node table made =>
          rcases compiler_modifyCompiler_cases world other place
            (fun changed => { changed with nodeTable := table }) with kept | ⟨rfl, changed⟩
          · rwa [setTable, kept]
          · rw [setTable, changed]
            have reread := NodeTable.rereads_node faithful text
            rw [made] at reread
            exact reread.1
  | @enter other path _ _ =>
      rcases compiler_modifyCompiler world other place (·.enter path) with same | same <;>
        rwa [compiler_log, World.enter, same]
  | remark => exact faithful
  | unsubscribe other kind handler =>
      rcases compiler_modifyCompiler world other place (·.unsubscribe kind handler) with
        same | same <;> rwa [same]
  | register => exact faithful

/-- What a change adds to the cache of a compiler and to the log: a new path and its report, or
no path and no report of one. -/
structure Adds (world later : World) (place : Nat) (entered : Option Path) : Prop where
  enters : ∀ path ∈ entered, Enters world place path
  expressions : (later.compiler place).expressions =
    (world.compiler place).expressions ++ entered.toList.map fun path => (path.source, path)
  events : ∃ added, later.events = world.events ++ added ∧
    added.filterMap (Event.compiledBy place) = entered.toList.map Path.source

theorem Change.adds {world later : World} (change : Change world later) {place : Nat}
    (present : place < world.compilers.size) : ∃ entered, Adds world later place entered := by
  -- A compiler that is not meant, or that is not changed in its cache, gains nothing.
  have nothing : ∀ added, (later.compiler place).expressions = (world.compiler place).expressions →
      later.events = world.events ++ added → added.filterMap (Event.compiledBy place) = [] →
        ∃ entered, Adds world later place entered := fun added entries events noReport =>
    ⟨none, ⟨nofun, by rw [entries]; simp, added, events, noReport⟩⟩
  cases change with
  | prepare preparation =>
      cases preparation with
      | graph => exact nothing [] rfl (List.append_nil _).symm rfl
      | @intern other text node table made =>
          refine nothing [] ?_ (List.append_nil _).symm rfl
          rcases compiler_modifyCompiler world other place
            (fun changed => { changed with nodeTable := table }) with same | same <;>
            rw [setTable, same]
  | @enter other path typeName enters =>
      by_cases same : place = other
      · subst same
        refine ⟨some path, ⟨by rintro _ ⟨⟩; exact enters, ?_, _, rfl, ?_⟩⟩
        · rw [compiler_log, World.enter, compiler_modifyCompiler_self present]
          rfl
        · simp [Event.compiledBy]
      · refine nothing _ ?_ rfl (by simp [Event.compiledBy, Ne.symm same])
        rcases compiler_modifyCompiler_cases world other place (·.enter path) with
          unchanged | ⟨meant, _⟩
        · rw [compiler_log, World.enter, unchanged]
        · exact absurd meant same
  | @remark event quiet => exact nothing [event] rfl rfl (by simp [quiet place])
  | unsubscribe other kind handler =>
      refine nothing [] ?_ (List.append_nil _).symm rfl
      rcases compiler_modifyCompiler world other place (·.unsubscribe kind handler) with
        same | same <;> rw [same]
      rfl
  | register => exact nothing [] rfl (List.append_nil _).symm rfl

theorem Change.sound {world later : World} (change : Change world later) {place : Nat}
    (sound : Sound world place) : Sound later place := by
  obtain ⟨entered, adds⟩ := change.adds sound.present
  refine ⟨by rw [change.size]; exact sound.present, ?_, ?_, change.faithful sound.faithful⟩ <;>
    rw [adds.expressions]
  · intro entry member
    rcases List.mem_append.1 member with earlier | isNew
    · exact change.cached (sound.cached entry earlier)
    · obtain ⟨path, isEntered, rfl⟩ := List.mem_map.1 isNew
      exact change.cached ((adds.enters path (Option.mem_toList.1 isEntered)).cached sound)
  · cases entered with
    | none => simpa using sound.distinct
    | some path =>
        have absent := Entries.get?_eq_none_iff.1 (adds.enters path rfl).fresh
        rw [List.map_append, List.nodup_append]
        refine ⟨sound.distinct, by simp, ?_⟩
        rintro source earlier _ isNew rfl
        obtain rfl : source = path.source := by simpa using isNew
        exact absent earlier

/-- A path stays cached. -/
theorem Change.cached? {world later : World} (change : Change world later) {place : Nat}
    (present : place < world.compilers.size) {source : String} {path : Path}
    (found : world.cached? place source = some path) :
    later.cached? place source = some path := by
  obtain ⟨entered, adds⟩ := change.adds present
  rw [World.cached?] at found ⊢
  rw [adds.expressions]
  cases entered with
  | none => simpa using found
  | some path => rw [Option.toList_some, List.map_singleton, Entries.get?_append, found]

/-- A path that was entered is cached. -/
theorem Enters.cached?_enter {world : World} {place : Nat} {path : Path}
    (enters : Enters world place path) (present : place < world.compilers.size) :
    (world.enter place path).cached? place path.source = some path := by
  have fresh := enters.fresh
  rw [World.cached?] at fresh
  rw [World.cached?, World.enter, compiler_modifyCompiler_self present, Compiler.enter,
    Entries.get?_append, fresh]
  exact if_pos rfl

/-! ## Reports -/

/-- The reports of new paths since a mark in the log name the cached texts in order. -/
structure Logged (world : World) (place mark : Nat) : Prop where
  marked : mark ≤ world.events.length
  reports : (world.events.drop mark).filterMap (Event.compiledBy place) =
    (world.compiler place).expressions.map Prod.fst

theorem Change.logged {world later : World} (change : Change world later) {place mark : Nat}
    (present : place < world.compilers.size) (logged : Logged world place mark) :
    Logged later place mark := by
  obtain ⟨entered, adds⟩ := change.adds present
  obtain ⟨added, events, reports⟩ := adds.events
  constructor
  · rw [events, List.length_append]
    exact Nat.le_add_right_of_le logged.marked
  · rw [events, adds.expressions, List.drop_append_of_le_length logged.marked,
      List.filterMap_append, logged.reports, reports, List.map_append, List.map_map]
    rfl

/-! ## Rows of changes -/

theorem Changes.size {world later : World} (changes : Changes world later) :
    later.compilers.size = world.compilers.size :=
  changes.keeps (fun later => later.compilers.size = world.compilers.size)
    (fun _ _ change same => change.size.trans same) rfl

theorem Changes.maxNodes {world later : World} (changes : Changes world later) (place : Nat) :
    (later.compiler place).maxNodes = (world.compiler place).maxNodes :=
  changes.keeps (fun later => (later.compiler place).maxNodes = (world.compiler place).maxNodes)
    (fun _ _ change same => (change.settings place).1.trans same) rfl

theorem Changes.registryOf {world later : World} (changes : Changes world later) {place : Nat}
    {name type : Value} (found : (world.registryOf place).type? name = some type) :
    (later.registryOf place).type? name = some type :=
  changes.keeps (fun later => (later.registryOf place).type? name = some type)
    (fun _ _ change => change.registryOf) found

theorem Changes.faithful {world later : World} (changes : Changes world later) {place : Nat}
    (faithful : (world.compiler place).nodeTable.Faithful) :
    (later.compiler place).nodeTable.Faithful :=
  changes.keeps (fun later => (later.compiler place).nodeTable.Faithful)
    (fun _ _ change => change.faithful) faithful

theorem Changes.cached {world later : World} (changes : Changes world later) {place : Nat}
    {entry : String × Path} (cached : Cached world place entry) : Cached later place entry :=
  changes.keeps (fun later => Cached later place entry) (fun _ _ change => change.cached) cached

theorem Changes.sound {world later : World} (changes : Changes world later) {place : Nat}
    (sound : Sound world place) : Sound later place :=
  changes.keeps _ (fun _ _ change => change.sound) sound

theorem Changes.cached? {world later : World} (changes : Changes world later) {place : Nat}
    (present : place < world.compilers.size) {source : String} {path : Path}
    (found : world.cached? place source = some path) :
    later.cached? place source = some path :=
  (changes.keeps (fun later => place < later.compilers.size ∧
      later.cached? place source = some path)
    (fun _ _ change holds => ⟨change.size ▸ holds.1, change.cached? holds.1 holds.2⟩)
    ⟨present, found⟩).2

theorem Changes.logged {world later : World} (changes : Changes world later) {place mark : Nat}
    (present : place < world.compilers.size) (logged : Logged world place mark) :
    Logged later place mark :=
  (changes.keeps (fun later => place < later.compilers.size ∧ Logged later place mark)
    (fun _ _ change holds => ⟨change.size ▸ holds.1, change.logged holds.1 holds.2⟩)
    ⟨present, logged⟩).2

theorem Changes.matched {world later : World} (changes : Changes world later)
    (matched : ∀ name, (world.registry name).Matched) : ∀ name, (later.registry name).Matched :=
  changes.keeps (fun later => ∀ name, (later.registry name).Matched)
    (fun _ _ change matched name => change.matched (matched name)) matched

/-! ## Preparations -/

/-- What preparations leave alone: the log, the handlers, the registries, and all of a compiler
but its node table, which keeps its nodes. -/
structure Idle (world later : World) : Prop where
  events : later.events = world.events
  handlers : later.handlers = world.handlers
  registries : later.registries = world.registries
  size : later.compilers.size = world.compilers.size
  compiler : ∀ place, ∃ table,
    later.compiler place = { world.compiler place with nodeTable := table } ∧
    ∀ name node, Entries.get? (world.compiler place).nodeTable.entries name = some node →
      Entries.get? table.entries name = some node

theorem Idle.refl (world : World) : Idle world world :=
  ⟨rfl, rfl, rfl, rfl, fun _ => ⟨_, rfl, fun _ _ => id⟩⟩

theorem Idle.trans {first second third : World} (left : Idle first second)
    (right : Idle second third) : Idle first third where
  events := right.events.trans left.events
  handlers := right.handlers.trans left.handlers
  registries := right.registries.trans left.registries
  size := right.size.trans left.size
  compiler := fun place => by
    obtain ⟨early, sameEarly, keepsEarly⟩ := left.compiler place
    obtain ⟨late, sameLate, keepsLate⟩ := right.compiler place
    refine ⟨late, by rw [sameLate, sameEarly], fun name node found => keepsLate name node ?_⟩
    rw [sameEarly]
    exact keepsEarly name node found

theorem Preparation.idle {world later : World} (preparation : Preparation world later) :
    Idle world later := by
  cases preparation with
  | graph => exact ⟨rfl, rfl, rfl, rfl, fun _ => ⟨_, rfl, fun _ _ => id⟩⟩
  | @intern other text node table made =>
      refine ⟨rfl, rfl, rfl, size_modifyCompiler .., fun place => ?_⟩
      rcases compiler_modifyCompiler_cases world other place
        (fun changed => { changed with nodeTable := table }) with same | ⟨rfl, changed⟩
      · exact ⟨_, by rw [setTable, same], fun _ _ => id⟩
      · exact ⟨table, by rw [setTable, changed], (NodeTable.extends_node made).1.keeps⟩

theorem Prepares.idle {world later : World} (prepares : Prepares world later) :
    Idle world later := by
  induction prepares with
  | refl => exact .refl world
  | tail _ preparation inductionHypothesis => exact inductionHypothesis.trans preparation.idle

theorem Idle.registryOf {world later : World} (idle : Idle world later) (place : Nat) :
    later.registryOf place = world.registryOf place := by
  obtain ⟨table, same, _⟩ := idle.compiler place
  rw [World.registryOf, World.registry, idle.registries, same]
  rfl

theorem Idle.cached? {world later : World} (idle : Idle world later) (place : Nat)
    (source : String) : later.cached? place source = world.cached? place source := by
  obtain ⟨table, same, _⟩ := idle.compiler place
  rw [World.cached?, same]
  rfl

end World

end ObjectPath
