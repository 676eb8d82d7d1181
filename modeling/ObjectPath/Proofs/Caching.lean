import ObjectPath.Proofs.Compiling

/-!
# Worlds that are reached

A compiler that starts with empty caches is asked for paths, classes are registered, the caches
are cleared, and anything may go on beside the compiler.  In every world that is reached so, its
caches are sound, and the log since the last clearing names the cached texts in order.
-/

namespace ObjectPath

namespace World

/-! ## Worlds that are reached -/

/-- A compiler that has cached nothing. -/
structure Fresh (world : World) (place : Nat) : Prop where
  present : place < world.compilers.size
  expressions : (world.compiler place).expressions = []
  nodes : (world.compiler place).nodeTable.entries = []

/-- What goes on beside a compiler: the graph and other compilers change, handlers subscribe and
events are logged that are no reports of new paths of this compiler. -/
structure Beside (place : Nat) (world later : World) : Prop where
  size : world.compilers.size ≤ later.compilers.size
  compiler : ∃ handlers, later.compiler place = { world.compiler place with handlers := handlers }
  registries : later.registries = world.registries
  events : ∃ added, later.events = world.events ++ added ∧
    added.filterMap (Event.compiledBy place) = []

/-- The worlds that are reached from a start by compiling, registering, reporting and clearing.
The mark is the length of the log when the caches of the compiler were cleared last, or at the
start. -/
inductive Reached (place : Nat) (start : World) : World → Nat → Prop
  | start : Reached place start start start.events.length
  | compiled {world : World} {mark : Nat} (other : Nat) (values : List Value) :
      Reached place start world mark →
        Reached place start (stateAfter (Session.compileValues other values) world) mark
  | registered {world : World} {mark : Nat} (registry name : String) (type : Value) :
      Reached place start world mark →
        Reached place start (stateAfter (Session.register registry name type) world) mark
  | reported {world : World} {mark : Nat} (other : Nat) (kind : EventKind) (expression : String)
      {event : Event} : (∀ compiler, event.compiledBy compiler = none) →
      Reached place start world mark →
        Reached place start (stateAfter (Session.emit other kind expression event) world) mark
  | cleared {world : World} {mark : Nat} : Reached place start world mark →
      Reached place start (world.modifyCompiler place Compiler.clear) world.events.length
  | beside {world later : World} {mark : Nat} : Beside place world later →
      Reached place start world mark → Reached place start later mark

theorem fresh_initial (graph : Graph) : Fresh (initial graph) standardPlace where
  present := Nat.zero_lt_one
  expressions := rfl
  nodes := rfl

theorem matched_initial (graph : Graph) (name : String) : ((initial graph).registry name).Matched :=
  Registry.matched_empty

theorem Fresh.sound {world : World} {place : Nat} (fresh : Fresh world place) :
    Sound world place where
  present := fresh.present
  cached := by
    rw [fresh.expressions]
    nofun
  distinct := by
    rw [fresh.expressions]
    exact List.nodup_nil
  faithful := NodeTable.faithful_of_entries_nil fresh.nodes

theorem Fresh.logged {world : World} {place : Nat} (fresh : Fresh world place) :
    Logged world place world.events.length :=
  ⟨le_rfl, by rw [List.drop_length, fresh.expressions]; rfl⟩

theorem Fresh.clear {world : World} {place : Nat} (present : place < world.compilers.size) :
    Fresh (world.modifyCompiler place Compiler.clear) place where
  present := by rwa [size_modifyCompiler]
  expressions := by
    rw [compiler_modifyCompiler_self present]
    rfl
  nodes := by
    rw [compiler_modifyCompiler_self present]
    rfl

theorem Beside.registryOf {world later : World} {place : Nat} (beside : Beside place world later) :
    later.registryOf place = world.registryOf place := by
  obtain ⟨handlers, same⟩ := beside.compiler
  rw [World.registryOf, World.registry, beside.registries, same]
  rfl

theorem Beside.sound {world later : World} {place : Nat} (beside : Beside place world later)
    (sound : Sound world place) : Sound later place := by
  obtain ⟨handlers, same⟩ := beside.compiler
  refine ⟨sound.present.trans_le beside.size, ?_, ?_, ?_⟩ <;> rw [same]
  · intro entry member
    have cached := sound.cached entry member
    exact ⟨cached.source, cached.maker, by rw [beside.registryOf]; exact cached.isRead,
      by rw [same]; exact cached.allowed⟩
  · exact sound.distinct
  · exact sound.faithful

theorem Beside.logged {world later : World} {place mark : Nat}
    (beside : Beside place world later) (logged : Logged world place mark) :
    Logged later place mark := by
  obtain ⟨handlers, same⟩ := beside.compiler
  obtain ⟨added, events, noReport⟩ := beside.events
  constructor
  · rw [events, List.length_append]
    exact Nat.le_add_right_of_le logged.marked
  · rw [events, same, List.drop_append_of_le_length logged.marked, List.filterMap_append,
      logged.reports, noReport, List.append_nil]

theorem registryOf_clear (world : World) (place : Nat) :
    (world.modifyCompiler place Compiler.clear).registryOf place = world.registryOf place := by
  rcases compiler_modifyCompiler world place place Compiler.clear with same | same <;>
    rw [World.registryOf, same] <;> rfl

theorem maxNodes_clear (world : World) (place : Nat) :
    ((world.modifyCompiler place Compiler.clear).compiler place).maxNodes =
      (world.compiler place).maxNodes := by
  rcases compiler_modifyCompiler world place place Compiler.clear with same | same <;> rw [same]
  rfl

section Reached

variable {place : Nat} {start world : World} {mark : Nat}

/-- What a row of changes, a clearing and what goes on beside a compiler keep holds of every
world that is reached. -/
theorem Reached.keeps (holds : World → Prop)
    (changes : ∀ before after, Changes before after → holds before → holds after)
    (clear : ∀ before, holds before → holds (before.modifyCompiler place Compiler.clear))
    (beside : ∀ before after, Beside place before after → holds before → holds after)
    (reached : Reached place start world mark) (started : holds start) : holds world := by
  induction reached with
  | start => exact started
  | compiled other values _ inductionHypothesis =>
      exact changes _ _ ((Session.changing_compileValues other values).changes _) inductionHypothesis
  | registered registry name type _ inductionHypothesis =>
      exact changes _ _ ((Session.consulting_register registry name type).changing.changes _)
        inductionHypothesis
  | reported other kind expression remark _ inductionHypothesis =>
      exact changes _ _ ((Session.changing_emit other kind expression remark).changes _)
        inductionHypothesis
  | cleared _ inductionHypothesis => exact clear _ inductionHypothesis
  | beside goesOn _ inductionHypothesis => exact beside _ _ goesOn inductionHypothesis

theorem Reached.sound (reached : Reached place start world mark) (sound : Sound start place) :
    Sound world place :=
  reached.keeps (Sound · place) (fun _ _ changes => changes.sound)
    (fun _ sound => (Fresh.clear sound.present).sound) (fun _ _ beside => beside.sound) sound

theorem Reached.matched (reached : Reached place start world mark)
    (matched : ∀ name, (start.registry name).Matched) : ∀ name, (world.registry name).Matched :=
  reached.keeps (fun world => ∀ name, (world.registry name).Matched)
    (fun _ _ changes => changes.matched) (fun _ matched => matched)
    (fun _ _ beside matched name => by
      rw [World.registry, beside.registries]
      exact matched name) matched

/-- What is known of a path that was cached once remains true, also when it is no longer cached. -/
theorem Reached.cached (reached : Reached place start world mark) {entry : String × Path}
    (cached : Cached start place entry) : Cached world place entry :=
  reached.keeps (fun world => Cached world place entry) (fun _ _ changes => changes.cached)
    (fun before cached => ⟨cached.source, cached.maker, by
      rw [registryOf_clear]; exact cached.isRead, by rw [maxNodes_clear]; exact cached.allowed⟩)
    (fun _ after beside cached => ⟨cached.source, cached.maker, by
      rw [beside.registryOf]; exact cached.isRead, by
      obtain ⟨handlers, same⟩ := beside.compiler
      rw [same]
      exact cached.allowed⟩) cached

/-- A name stays bound to its type. -/
theorem Reached.registryOf (reached : Reached place start world mark) {name type : Value}
    (found : (start.registryOf place).type? name = some type) :
    (world.registryOf place).type? name = some type :=
  reached.keeps (fun world => (world.registryOf place).type? name = some type)
    (fun _ _ changes => changes.registryOf)
    (fun before found => by rwa [registryOf_clear])
    (fun _ _ beside found => by rwa [beside.registryOf]) found

theorem Reached.maxNodes (reached : Reached place start world mark) :
    (world.compiler place).maxNodes = (start.compiler place).maxNodes :=
  reached.keeps (fun world => (world.compiler place).maxNodes = (start.compiler place).maxNodes)
    (fun _ _ changes same => (changes.maxNodes place).trans same)
    (fun before same => (maxNodes_clear before place).trans same)
    (fun _ _ beside same => by
      obtain ⟨handlers, kept⟩ := beside.compiler
      rw [kept]
      exact same) rfl

/-- In every world that is reached, the log since the last clearing names the cached texts. -/
theorem Reached.logged (reached : Reached place start world mark) (fresh : Fresh start place) :
    Logged world place mark := by
  have present : ∀ {world mark}, Reached place start world mark → place < world.compilers.size :=
    fun reached => (reached.sound fresh.sound).present
  induction reached with
  | start => exact fresh.logged
  | compiled other values before inductionHypothesis =>
      exact ((Session.changing_compileValues other values).changes _).logged (present before)
        inductionHypothesis
  | registered registry name type before inductionHypothesis =>
      exact ((Session.consulting_register registry name type).changing.changes _).logged
        (present before) inductionHypothesis
  | reported other kind expression remark before inductionHypothesis =>
      exact ((Session.changing_emit other kind expression remark).changes _).logged
        (present before) inductionHypothesis
  | cleared before => exact (Fresh.clear (present before)).logged
  | beside goesOn _ inductionHypothesis => exact goesOn.logged inductionHypothesis

end Reached

/-- A path that the compiler had cached in some world on the way. -/
def Made (place : Nat) (start world : World) (path : Path) : Prop :=
  ∃ early before after, Reached place start early before ∧ Reached place early world after ∧
    (path.source, path) ∈ (early.compiler place).expressions

theorem Made.cached {place : Nat} {start world : World} {path : Path} (fresh : Fresh start place)
    (made : Made place start world path) : Cached world place (path.source, path) := by
  obtain ⟨early, _, _, reached, onward, member⟩ := made
  exact onward.cached ((reached.sound fresh.sound).cached _ member)

/-! ## Where cached paths come from -/

/-- A sound world in which a path was made of a text, and in which the compiler had the limit that
it has in another world. -/
structure Origin (early world : World) (place : Nat) (source : String) (path : Path) : Prop where
  sound : Sound early place
  limit : (early.compiler place).maxNodes = (world.compiler place).maxNodes
  made : ∃ typeName after, Session.newPath place source early = .ok (path, typeName) after

theorem Origin.congr {early world later : World} {place : Nat} {source : String} {path : Path}
    (origin : Origin early world place source path)
    (limit : (later.compiler place).maxNodes = (world.compiler place).maxNodes) :
    Origin early later place source path :=
  ⟨origin.sound, origin.limit.trans limit.symm, origin.made⟩

/-- Every path that a compiler has cached was made somewhere. -/
def Traced (world : World) (place : Nat) : Prop :=
  ∀ source path, world.cached? place source = some path →
    ∃ early, Origin early world place source path

section Traced

variable {world later : World} {place : Nat}

theorem Traced.of_expressions_nil (nothing : (world.compiler place).expressions = []) :
    Traced world place := by
  intro source path found
  rw [World.cached?, nothing] at found
  cases found

theorem Traced.congr (traced : Traced world place)
    (expressions : (later.compiler place).expressions = (world.compiler place).expressions)
    (limit : (later.compiler place).maxNodes = (world.compiler place).maxNodes) :
    Traced later place := by
  intro source path found
  rw [World.cached?, expressions] at found
  obtain ⟨early, origin⟩ := traced source path found
  exact ⟨early, origin.congr limit⟩

theorem Traced.makes (traced : Traced world place) (sound : Sound world place)
    (makes : Session.Makes world later) : Traced later place := by
  intro source path found
  have limit := makes.changes.maxNodes place
  rcases makes.made place source path found with earlier | ⟨early, typeName, after, changes, made⟩
  · obtain ⟨early, origin⟩ := traced source path earlier
    exact ⟨early, origin.congr limit⟩
  · exact ⟨early, changes.sound sound, (changes.maxNodes place).trans limit.symm, typeName, after,
      made⟩

theorem Traced.consults (traced : Traced world place) (consults : Session.Consults world later) :
    Traced later place := by
  have same : later.compiler place = world.compiler place := by
    rw [World.compiler, World.compiler, consults.compilers]
  exact traced.congr (by rw [same]) (by rw [same])

theorem Traced.compileValues (traced : Traced world place) (sound : Sound world place)
    (other : Nat) (values : List Value) :
    Traced (stateAfter (Session.compileValues other values) world) place := by
  have asked := Session.consulting_requestedText other values world world (.refl world)
  have ends : Ensures (Session.compileValues other values) world
      (fun _ later => Traced later place) fun _ later => Traced later place := by
    refine Ensures.bind (asked.mono (fun _ _ => id) fun _ _ consults => traced.consults consults) ?_
    intro text middle consults
    have soundMiddle := consults.changes.sound sound
    exact (Session.compile_ensures other text middle).mono
      (fun _ _ ended => (traced.consults consults).makes soundMiddle ended.1)
      fun _ _ makes => (traced.consults consults).makes soundMiddle makes
  exact ends.stateAfter

end Traced

/-- In every world that is reached, each cached path was made somewhere. -/
theorem Reached.traced {place : Nat} {start world : World} {mark : Nat}
    (reached : Reached place start world mark) (fresh : Fresh start place) :
    Traced world place := by
  have sound : ∀ {world mark}, Reached place start world mark → Sound world place :=
    fun reached => reached.sound fresh.sound
  induction reached with
  | start => exact Traced.of_expressions_nil fresh.expressions
  | compiled other values before inductionHypothesis =>
      exact inductionHypothesis.compileValues (sound before) other values
  | @registered world _ registry name type before inductionHypothesis =>
      have registers := Session.consulting_register registry name type world world (.refl world)
      exact inductionHypothesis.consults registers.stateAfter
  | @reported world _ other kind expression event remark before inductionHypothesis =>
      have emits := Session.making_emit other kind expression remark world world (.refl world)
      exact inductionHypothesis.makes (sound before) emits.stateAfter
  | cleared before =>
      exact Traced.of_expressions_nil (Fresh.clear (sound before).present).expressions
  | beside goesOn _ inductionHypothesis =>
      obtain ⟨handlers, same⟩ := goesOn.compiler
      exact inductionHypothesis.congr (by rw [same]) (by rw [same])

end World

end ObjectPath
