import ObjectPath.Bulk
import ObjectPath.Proofs.Fencing
import ObjectPath.Proofs.Lines
import ObjectPath.Proofs.Planting
import ObjectPath.Proofs.Stillness

/-!
# Flat entries

A list of texts with values is written into trees of plain data and is read back.  After every
entry the line of each text that was written so far carries its value, and the path of the text is
cached; reading then changes nothing.
-/

namespace ObjectPath

open Graph

namespace Session

open World

/-! ## Entries -/

/-- Entries that can be written side by side: every text lists steps of a garden, no text a
beginning of what another one does, and every value is simple. -/
structure Plots (garden : Garden) (resolver : Resolver) (line : String → List Step)
    (entries : List (String × Value)) : Prop where
  lists : ∀ entry ∈ entries, PathText.Lists resolver entry.1 (line entry.1)
  listed : ∀ entry ∈ entries, line entry.1 ⊆ garden.steps
  simple : ∀ entry ∈ entries, entry.2.isObject = false ∧ garden.around entry.2
  forks : entries.Pairwise fun entry other => Forks (line entry.1) (line other.1)

/-- A value is in its place: the path of its text is cached, and its line carries the value. -/
def Sown (place : Nat) (resolver : Resolver) (root : Value) (line : String → List Step)
    (world : World) (inside : Nat → Prop) (entry : String × Value) : Prop :=
  world.graph.Carries inside root (line entry.1) entry.2 ∧
    ∃ path, world.cached? place (Text.trim entry.1) = some path ∧ path.isStatic = false ∧
      path.IsPlain ∧ path.steps resolver = line entry.1

variable {garden : Garden} {place : Nat} {start world middle later : World} {root value : Value}
  {inside : Nat → Prop} {line : String → List Step} {options : EvaluateOptions} {text : String}
  {path : Path} {entry : String × Value} {entries done : List (String × Value)}

/-- What is kept from entry to entry: there are trees, and only changes have been made. -/
structure Thrives (garden : Garden) (start : World) (root : Value) (world : World)
    (inside : Nat → Prop) : Prop where
  changes : Changes start world
  stands : garden.Stands world.graph inside
  stem : world.graph.Stem garden.keys garden.around inside root

/-- A compiler with the default factory and a limit that is a number, in a world in which no
handler compiles anything. -/
structure Settled (world : World) (place : Nat) (options : EvaluateOptions) : Prop where
  sound : Sound world place
  limited : ∃ limit, (world.compiler place).maxNodes = .number limit
  quiet : world.Quiet
  standard : options.factory.getD (world.factory (world.compiler place).factory) = standardFactory

theorem Settled.changed (settled : Settled start place options) (changes : Changes start world) :
    Settled world place options where
  sound := changes.sound settled.sound
  limited := by
    rw [changes.maxNodes]
    exact settled.limited
  quiet := changes.furnishes.quiet settled.quiet
  standard := by
    rw [changes.furnishes.factory, World.factory, changes.furnishes.factories]
    exact settled.standard

theorem dynamic_of_setValue (ended : setValue path root value options world = .ok () later) :
    path.isStatic = false := by
  unfold setValue at ended
  split at ended
  · cases ended
  · rename_i dynamic
    simpa using dynamic

section Writing

variable (fenced : garden.Fenced) (constructs : garden.Constructs) (bears : garden.Bears)
  (settled : Settled start place options) (present : root.isMissing = false)
include fenced constructs bears settled present

/-- Writing one entry puts its value in place and leaves other values in theirs. -/
theorem Thrives.write (thrives : Thrives garden start root world inside)
    (lists : PathText.Lists (start.compiler place).resolver entry.1 (line entry.1))
    (listed : line entry.1 ⊆ garden.steps) (simple : entry.2.isObject = false)
    (isAround : garden.around entry.2) (compiled : compile place entry.1 world = .ok path middle)
    (ended : setValue path root entry.2 options middle = .ok () later) :
    ∃ planted, Thrives garden start root later planted ∧
      Sown place (start.compiler place).resolver root line later planted entry ∧
      ∀ other : String × Value, line other.1 ⊆ garden.steps → Forks (line entry.1) (line other.1) →
        Sown place (start.compiler place).resolver root line world inside other →
          Sown place (start.compiler place).resolver root line later planted other := by
  have settledWorld := settled.changed thrives.changes
  obtain ⟨limit, limited⟩ := settledWorld.limited
  obtain ⟨changes, found, cached⟩ := cached_of_compile settledWorld.sound compiled
  have dynamic := dynamic_of_setValue ended
  have noType : path.rootType = none := by
    simpa [Path.isStatic] using dynamic
  have sameGraph := graph_of_compile limited settledWorld.quiet compiled noType
  have changesMiddle : Changes start middle := thrives.changes.trans changes
  have settledMiddle := settled.changed changesMiddle
  have maker : path.compiler = place := cached.maker
  have resolver : path.resolverIn middle = (start.compiler place).resolver := by
    rw [Path.resolverIn, maker, changesMiddle.furnishes.resolver]
  obtain ⟨plainPath, steps⟩ := cached.isRead.steps_of_lists noType cached.source lists
  have stands : garden.Stands middle.graph inside := sameGraph ▸ thrives.stands
  have stem : middle.graph.Stem garden.keys garden.around inside root := sameGraph ▸ thrives.stem
  have standard : factoryOf path options middle = standardFactory := by
    rw [factoryOf, maker]
    exact settledMiddle.standard
  obtain ⟨_, planted, standsLater, stemLater, carries, others⟩ := Garden.setValue_carries fenced
    constructs bears plainPath (by rw [resolver, steps]; exact listed) settledMiddle.quiet standard
    stands stem present simple isAround ended
  rw [resolver, steps] at carries others
  have changesWrite : Changes middle later := by
    have changing := (changing_setValue path root entry.2 options).changes middle
    rwa [stateAfter_of_ok ended] at changing
  have stays : ∀ {source : String} {other : Path}, middle.cached? place source = some other →
      later.cached? place source = some other :=
    changesWrite.cached? settledMiddle.sound.present
  refine ⟨planted, ⟨changesMiddle.trans changesWrite, standsLater, stemLater⟩,
    ⟨carries, path, stays found, dynamic, plainPath, steps⟩, ?_⟩
  rintro other listedOther forks ⟨carriesOther, otherPath, foundOther, kind⟩
  exact ⟨others _ _ listedOther forks (sameGraph ▸ carriesOther), otherPath,
    stays (changes.cached? settledWorld.sound.present foundOther), kind⟩

/-- Writing entries puts all their values in place and leaves those in theirs that were written
before. -/
theorem Thrives.setAll (plots : Plots garden (start.compiler place).resolver line (done ++ entries))
    (thrives : Thrives garden start root world inside)
    (sown : ∀ entry ∈ done, Sown place (start.compiler place).resolver root line world inside entry)
    (ended : setAll place root options entries world = .ok () later) :
    ∃ planted, Thrives garden start root later planted ∧
      ∀ entry ∈ done ++ entries,
        Sown place (start.compiler place).resolver root line later planted entry := by
  induction entries generalizing done world inside with
  | nil =>
      cases ended
      exact ⟨inside, thrives, by rwa [List.append_nil]⟩
  | cons entry rest inductionHypothesis =>
      obtain ⟨path, compiledWorld, compiled, written⟩ := ok_of_bind ended
      obtain ⟨_, writtenWorld, set, onward⟩ := ok_of_bind written
      have isEntry : entry ∈ done ++ entry :: rest := by simp
      obtain ⟨simple, isAround⟩ := plots.simple entry isEntry
      obtain ⟨planted, thrivesLater, sownEntry, others⟩ := thrives.write fenced constructs bears
        settled present (plots.lists entry isEntry) (plots.listed entry isEntry) simple isAround
        compiled set
      have plotsLater : Plots garden (start.compiler place).resolver line
          ((done ++ [entry]) ++ rest) := by
        rwa [List.append_assoc, List.singleton_append]
      rw [← List.singleton_append, ← List.append_assoc]
      refine inductionHypothesis plotsLater thrivesLater ?_ onward
      intro other isDone
      rcases List.mem_append.1 isDone with isOld | isNew
      · refine others other (plots.listed other (List.mem_append_left _ isOld)) ?_ (sown other isOld)
        exact ((List.pairwise_append.1 plots.forks).2.2 other isOld entry
          (List.mem_cons_self ..)).symm
      · rw [List.mem_singleton.1 isNew]
        exact sownEntry

end Writing

/-! ## Reading back -/

/-- Values in their places are read back, and reading them changes nothing. -/
theorem getAll_of_sown {resolver : Resolver} (same : (world.compiler place).resolver = resolver)
    (sound : Sound world place) (classed : world.graph.Classed) (present : root.isMissing = false)
    (arguments : Option ArgumentMap) {listed : List (String × Value)}
    (sown : ∀ entry ∈ listed, Sown place resolver root line world inside entry)
    {values : List (String × Value)} (distinct : (values.map Prod.fst ++ listed.map Prod.fst).Nodup) :
    getAll place root ⟨arguments, none⟩ (listed.map Prod.fst) values world =
      .ok (values ++ listed.map fun entry => (entry.1, entry.2.orNull)) world := by
  induction listed generalizing values with
  | nil =>
      rw [List.map_nil, List.map_nil, List.append_nil]
      rfl
  | cons entry rest inductionHypothesis =>
      obtain ⟨carries, path, found, dynamic, plainPath, steps⟩ := sown entry (List.mem_cons_self ..)
      have cached := sound.cached _ (Entries.mem_of_get? found)
      have source : path.source = Text.trim entry.1 := cached.source
      have notEmpty : Text.trim entry.1 ≠ "" := source ▸ cached.isRead.notEmpty
      have maker : path.compiler = place := cached.maker
      have resolverIn : path.resolverIn world = resolver := by
        rw [Path.resolverIn, maker, same]
      have reads : getValue path root ⟨arguments, none⟩ world = .ok entry.2.orNull world :=
        getValue_of_travel? plainPath resolverIn dynamic classed present (steps ▸ carries.travel?)
      have fresh : entry.1 ∉ values.map Prod.fst := by
        intro isValue
        exact (List.nodup_append.1 distinct).2.2 _ isValue _ (by simp) rfl
      rw [List.map_cons, getAll, bind_of_ok (compile_of_cached notEmpty found), bind_of_ok reads,
        Entries.put_of_not_mem fresh, inductionHypothesis
          (fun other member => sown other (List.mem_cons_of_mem entry member))]
      · rw [List.map_cons, List.append_assoc, List.singleton_append]
      · simpa using distinct

/-- Texts that list different lines are different. -/
theorem Plots.nodup {resolver : Resolver} (plots : Plots garden resolver line entries) :
    (entries.map Prod.fst).Nodup := by
  rw [List.Nodup, List.pairwise_map]
  refine plots.forks.imp ?_
  rintro entry other forks same
  rw [same] at forks
  exact forks.1 List.prefix_rfl

/-! ## Codes of an address -/

/-- Codes for a person who has no address yet. -/
def codeEntries : List (String × Value) :=
  [("home.codes[1][0]", .ofNat 5), ("home.codes[0].[ 2 ]", .ofNat 7),
    (" home.codes[00][1]", .undefined)]

/-- The line of each of them. -/
def codeLine (text : String) : List Step :=
  [.field "home", .field "codes"] ++
    if text = "home.codes[1][0]" then [.element 1, .element 0]
    else if text = "home.codes[0].[ 2 ]" then [.element 0, .element 2]
    else [.element 0, .element 1]

theorem plots_codeEntries : Plots Garden.personGarden .standard codeLine codeEntries where
  lists := by
    intro entry listed
    apply PathText.lists_of_line?
    revert entry
    decide +kernel
  listed := by decide +kernel
  simple := by
    intro entry listed
    rw [codeEntries, List.mem_cons, List.mem_cons, List.mem_singleton] at listed
    rcases listed with rfl | rfl | rfl
    · exact ⟨rfl, .number (.ofNat 0), by decide, Or.inr ⟨_, _, rfl, rfl⟩⟩
    · exact ⟨rfl, .number (.ofNat 0), by decide, Or.inr ⟨_, _, rfl, rfl⟩⟩
    · exact ⟨rfl, .listed (by decide)⟩
  forks := by
    unfold Forks
    decide +kernel

/-! ## Every text is read back -/

/-- A world with a compiler that takes houses for homes. -/
def renamingWorld : World :=
  peopleWorld.addCompiler "renaming"
    { Compiler.standard standardRegistry standardPlace with resolver := ⟨[("house", "home")], none⟩ }

end Session

end ObjectPath
