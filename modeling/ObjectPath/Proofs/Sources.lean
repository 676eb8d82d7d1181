import ObjectPath.Proofs.JoinedReads
import ObjectPath.Proofs.Rooting
import ObjectPath.Proofs.Transparency

/-!
# Paths of one source

Paths are told apart by the numbers that their compiler and its node table gave them, and by
nothing else if they have the same source: a source is read in the same way for ever, since no
name of a type is ever bound anew.  No evaluation looks at the numbers.  So equal paths behave
alike in every world, and so do predicates that are built from them.
-/

namespace ObjectPath

/-! ## Paths without their numbers -/

theorem Node.argumentKeys_bare (node : Node) : node.bare.argumentKeys = node.argumentKeys := by
  rw [Node.argumentKeys_eq, Node.form_bare, ← Node.argumentKeys_eq]

namespace Path

/-- The path without the numbers that its compiler and its node table gave. -/
def bare (path : Path) : Path where
  compiler := path.compiler
  serial := 0
  source := path.source
  nodes := path.nodes.map Node.bare
  nodes_ne_nil := by simpa using path.nodes_ne_nil
  rootType := path.rootType

/-- Paths are the same up to their numbers if their parts are. -/
theorem bare_congr {first second : Path} (compiler : first.compiler = second.compiler)
    (source : first.source = second.source) (rootType : first.rootType = second.rootType)
    (nodes : first.nodes.map Node.bare = second.nodes.map Node.bare) :
    first.bare = second.bare := by
  simp only [bare, compiler, source, rootType, nodes]

/-- What a source reads as is determined by the source and by the names of types. -/
theorem IsRead.bare_eq {registry : Registry} {first second : Path} (isRead : first.IsRead registry)
    (isReadSecond : second.IsRead registry) (compiler : first.compiler = second.compiler)
    (source : first.source = second.source) : first.bare = second.bare := by
  obtain ⟨parts, segments, parsed, resolved, split, read⟩ := isRead.read
  obtain ⟨partsSecond, segmentsSecond, parsedSecond, resolvedSecond, splitSecond, readSecond⟩ :=
    isReadSecond.read
  rw [← source] at parsedSecond splitSecond
  obtain rfl : parts = partsSecond := Except.ok.inj (parsed.symm.trans parsedSecond)
  obtain rfl : segments = segmentsSecond := Except.ok.inj (split.symm.trans splitSecond)
  refine bare_congr compiler source ?_ (map_bare_of_read read readSecond)
  exact Option.map_injective (fun _ _ => Option.some.inj) (resolved.symm.trans resolvedSecond)

theorem lastNode_bare (path : Path) : path.bare.lastNode = path.lastNode.bare :=
  List.getLast_map _

theorem size_bare (path : Path) : path.bare.size = path.size :=
  List.length_map _

theorem argumentKeys_bare (path : Path) : path.bare.argumentKeys = path.argumentKeys := by
  simp only [argumentKeys, bare, List.flatMap_map, Node.argumentKeys_bare]

end Path

namespace Session

/-! ## Evaluations look at no numbers -/

section Evaluations

variable (path : Path)

theorem reportFilled_bare (index : Nat) (node : Node) :
    reportFilled path.bare index node.bare = reportFilled path index node := by
  funext type value
  unfold reportFilled
  rw [Node.text_bare]
  rfl

theorem walk_bare (resolver : Resolver) (options : EvaluateOptions) (index : Nat)
    (position : Position) (nodes : List Node) :
    walk path.bare resolver options index position (nodes.map Node.bare) =
      walk path resolver options index position nodes := by
  induction nodes generalizing index position with
  | nil => rfl
  | cons node rest inductionHypothesis =>
      simp only [List.map_cons, walk, Node.read_bare, Node.typeAt_bare, Node.write_bare,
        reportFilled_bare, inductionHypothesis]

theorem walkPath_bare : walkPath path.bare = walkPath path := by
  funext start options
  have nodes : path.bare.nodes.dropLast = path.nodes.dropLast.map Node.bare :=
    (List.map_dropLast ..).symm
  simp only [walkPath, nodes, walk_bare]
  rfl

theorem evaluate_bare : evaluate path.bare = evaluate path := by
  funext start options
  simp only [evaluate, walkPath_bare, Path.lastNode_bare, Node.read_bare]
  rfl

theorem abandon_bare : abandon path.bare = abandon path := by
  funext index type
  have text : path.bare.nodes[index]?.map Node.text = path.nodes[index]?.map Node.text := by
    simp [Path.bare, Function.comp_def]
  simp only [abandon, text]
  rfl

theorem assign_bare : assign path.bare = assign path := by
  funext start value options
  simp only [assign, walkPath_bare, abandon_bare, Path.lastNode_bare, Path.size_bare,
    Node.write_bare, Node.typeAt_bare]
  rfl

theorem staticRoot_bare : staticRoot path.bare = staticRoot path :=
  rfl

theorem getValue_bare : getValue path.bare = getValue path := by
  funext root options
  simp only [getValue, evaluate_bare]
  rfl

theorem setValue_bare : setValue path.bare = setValue path := by
  funext root value options
  simp only [setValue, assign_bare, abandon_bare]
  rfl

theorem getStaticValue_bare : getStaticValue path.bare = getStaticValue path := by
  funext given options
  simp only [getStaticValue, evaluate_bare, staticRoot_bare]

theorem setStaticValue_bare : setStaticValue path.bare = setStaticValue path := by
  funext given value options
  simp only [setStaticValue, assign_bare, staticRoot_bare]

theorem evaluateRooted_bare : evaluateRooted path.bare = evaluateRooted path := by
  funext root options
  simp only [evaluateRooted, evaluateSide, rootArguments, Path.argumentKeys_bare, getValue_bare,
    getStaticValue_bare]
  rfl

end Evaluations

end Session

/-! ## Predicates without their numbers -/

/-- The predicate without its number and without those of its paths. -/
def Predicate.bare (asked : Predicate) : Predicate where
  serial := 0
  whenPath := asked.whenPath.map Path.bare
  test := asked.test
  thanPath := asked.thanPath.map Path.bare
  defaultValue := asked.defaultValue

/-- The paths of a predicate. -/
def Predicate.sides (asked : Predicate) : List Path :=
  asked.whenPath.toList ++ asked.thanPath.toList

theorem Predicate.mem_sides_when {asked : Predicate} {path : Path}
    (isWhen : path ∈ asked.whenPath) : path ∈ asked.sides :=
  List.mem_append_left _ (Option.mem_toList.2 isWhen)

theorem Predicate.mem_sides_than {asked : Predicate} {path : Path}
    (isThan : path ∈ asked.thanPath) : path ∈ asked.sides :=
  List.mem_append_right _ (Option.mem_toList.2 isThan)

theorem Session.test_bare (asked : Predicate) : test asked.bare = test asked := by
  funext first second options
  rcases asked with ⟨serial, whenPath, ⟨testSerial, name, kind, holds⟩, thanPath, defaultValue⟩
  unfold test
  dsimp only [Predicate.bare]
  cases whenPath with
  | none => rfl
  | some path =>
      dsimp only [Option.map_some]
      rw [evaluateRooted_bare]
      refine bind_congr fun value => ?_
      cases kind <;> cases thanPath <;> try rfl
      dsimp only [Option.map_some]
      rw [evaluateRooted_bare]

/-! ## Equality -/

theorem Path.equal_iff {first second : Path} :
    first.equal second = true ↔ first.source = second.source :=
  beq_iff_eq

/-- Being of one source is an equivalence. -/
theorem Path.equal_equivalence :
    Equivalence fun first second : Path => first.equal second = true where
  refl _ := equal_iff.2 rfl
  symm same := equal_iff.2 (equal_iff.1 same).symm
  trans same again := equal_iff.2 ((equal_iff.1 same).trans (equal_iff.1 again))

namespace Predicate

theorem sameSource_iff {first second : Option Path} :
    sameSource first second = true ↔ first.map Path.source = second.map Path.source := by
  cases first <;> cases second <;> simp [sameSource, Path.equal_iff]

theorem equal_iff {first second : Predicate} :
    first.equal second = true ↔
      first.whenPath.map Path.source = second.whenPath.map Path.source ∧
        first.test.serial = second.test.serial ∧
        first.thanPath.map Path.source = second.thanPath.map Path.source ∧
        first.defaultValue = second.defaultValue := by
  simp [equal, sameSource_iff, and_assoc]

/-- Having the same sources, test and default value is an equivalence. -/
theorem equal_equivalence :
    Equivalence fun first second : Predicate => first.equal second = true where
  refl _ := equal_iff.2 ⟨rfl, rfl, rfl, rfl⟩
  symm same := by
    obtain ⟨whenPath, test, thanPath, defaultValue⟩ := equal_iff.1 same
    exact equal_iff.2 ⟨whenPath.symm, test.symm, thanPath.symm, defaultValue.symm⟩
  trans same again := by
    obtain ⟨whenPath, test, thanPath, defaultValue⟩ := equal_iff.1 same
    obtain ⟨whenAgain, testAgain, thanAgain, defaultAgain⟩ := equal_iff.1 again
    exact equal_iff.2 ⟨whenPath.trans whenAgain, test.trans testAgain, thanPath.trans thanAgain,
      defaultValue.trans defaultAgain⟩

end Predicate

/-! ## Paths and predicates of a run -/

namespace World

variable {place : Nat} {start middle world : World}

theorem Reached.trans {early late : Nat} (reached : Reached place start middle early)
    (onward : Reached place middle world late) : ∃ mark, Reached place start world mark := by
  induction onward with
  | start => exact ⟨early, reached⟩
  | compiled other values _ inductionHypothesis =>
      obtain ⟨mark, reached⟩ := inductionHypothesis
      exact ⟨mark, .compiled other values reached⟩
  | registered registry name type _ inductionHypothesis =>
      obtain ⟨mark, reached⟩ := inductionHypothesis
      exact ⟨mark, .registered registry name type reached⟩
  | reported other kind expression remark _ inductionHypothesis =>
      obtain ⟨mark, reached⟩ := inductionHypothesis
      exact ⟨mark, .reported other kind expression remark reached⟩
  | cleared _ inductionHypothesis =>
      obtain ⟨mark, reached⟩ := inductionHypothesis
      exact ⟨_, .cleared reached⟩
  | beside goesOn _ inductionHypothesis =>
      obtain ⟨mark, reached⟩ := inductionHypothesis
      exact ⟨mark, .beside goesOn reached⟩

theorem Made.later {path : Path} {mark : Nat} (made : Made place start middle path)
    (onward : Reached place middle world mark) : Made place start world path := by
  obtain ⟨early, before, after, reached, further, member⟩ := made
  obtain ⟨final, whole⟩ := further.trans onward
  exact ⟨early, before, final, reached, whole, member⟩

/-- Paths that were made by one compiler, whenever that was, are the same up to their numbers if
their sources are. -/
theorem Made.bare_eq {first second : Path} (fresh : Fresh start place)
    (made : Made place start world first) (madeSecond : Made place start world second)
    (same : first.source = second.source) : first.bare = second.bare := by
  have cached := made.cached fresh
  have cachedSecond := madeSecond.cached fresh
  have isRead : first.IsRead (world.registryOf place) := cached.isRead
  exact isRead.bare_eq cachedSecond.isRead (cached.maker.trans cachedSecond.maker.symm) same

end World

namespace Session

open World Predicate

variable {place : Nat} {start world later : World}

/-- A path that the compiler gave for a text, or for a type and a text, on the way from a start to
a world. -/
def Gave (place : Nat) (start world : World) (path : Path) : Prop :=
  ∃ early before values middle after, Reached place start early before ∧
    compileValues place values early = .ok path middle ∧ Reached place middle world after

/-- A predicate that was built with the compiler on the way from a start to a world, or one of the
two that there are from the start. -/
inductive Composed (place : Nat) (start : World) : World → Predicate → Prop
  | acceptAll (world : World) : Composed place start world .acceptAll
  | denyAll (world : World) : Composed place start world .denyAll
  | built {early later world : World} {before after : Nat} {whenText thanText : String}
      {asked : Test} {otherwise : Option Predicate} {made : Predicate} :
      Reached place start early before → (∀ other ∈ otherwise, Composed place start early other) →
      predicate place whenText asked thanText otherwise early = .ok (some made) later →
      Reached place later world after → Composed place start world made

section Runs

variable {mark : Nat} {values : List Value} {path : Path}

theorem reached_of_compileValues (reached : Reached place start world mark)
    (compiled : compileValues place values world = .ok path later) :
    Reached place start later mark := by
  rw [← stateAfter_of_ok compiled]
  exact .compiled place values reached

theorem made_of_compileValues (fresh : Fresh start place) (reached : Reached place start world mark)
    (compiled : compileValues place values world = .ok path later) :
    Made place start later path := by
  have reachedLater := reached_of_compileValues reached compiled
  obtain ⟨text, middle, asked, made⟩ := ok_of_bind compiled
  have consults := (consulting_requestedText place values world world (.refl world)).ok asked
  have sound := consults.changes.sound (reached.sound fresh.sound)
  obtain ⟨_, found, cached⟩ := cached_of_compile sound made
  have source : path.source = Text.trim text := cached.source
  rw [← source] at found
  exact ⟨later, _, _, reachedLater, .start, Entries.mem_of_get? found⟩

theorem Gave.made (fresh : Fresh start place) (gave : Gave place start world path) :
    Made place start world path := by
  obtain ⟨early, before, values, middle, after, reached, compiled, onward⟩ := gave
  exact (made_of_compileValues fresh reached compiled).later onward

theorem reached_of_compile {text : String} (reached : Reached place start world mark)
    (compiled : compile place text world = .ok path later) : Reached place start later mark :=
  have asText : compileValues place [.string text] world = .ok path later := compiled
  reached_of_compileValues reached asText

theorem made_of_compile {text : String} (fresh : Fresh start place)
    (reached : Reached place start world mark)
    (compiled : compile place text world = .ok path later) : Made place start later path :=
  have asText : compileValues place [.string text] world = .ok path later := compiled
  made_of_compileValues fresh reached asText

/-- A new predicate is counted, and nothing else happens. -/
theorem beside_of_newPredicate {asked : Test} {thanPath : Option Path} {made : Predicate}
    (built : newPredicate path asked thanPath world = .ok made later) (place : Nat) :
    Beside place world later ∧ made.whenPath = some path ∧ made.thanPath = thanPath ∧
      made.test = asked := by
  cases built
  exact ⟨⟨le_rfl, ⟨_, rfl⟩, rfl, [], (List.append_nil _).symm, rfl⟩, rfl, rfl, rfl⟩

/-- What building a predicate comes to: it gives the one that stands in for it, or compiles the
one or two texts that its test needs. -/
theorem predicate_cases {whenText thanText : String} {asked : Test} {otherwise : Option Predicate}
    {made : Predicate}
    (built : predicate place whenText asked thanText otherwise world = .ok (some made) later) :
    (otherwise = some made ∧ later = world) ∨
      ∃ path middle, compile place whenText world = .ok path middle ∧
        made.whenPath = some path ∧ made.test = asked ∧
        ((made.thanPath = none ∧ Beside place middle later) ∨
          ∃ other further, compile place thanText middle = .ok other further ∧
            made.thanPath = some other ∧ Beside place further later) := by
  unfold predicate at built
  split at built
  · split at built
    · cases built
    · split at built
      · cases built
      · cases built
        exact Or.inl ⟨rfl, rfl⟩
  · refine Or.inr ?_
    generalize (Text.trim thanText != "") = hasThan at built
    cases kind : asked.kind with
    | undefined =>
        rw [kind] at built
        cases built
    | unary =>
        rw [kind] at built
        cases hasThan with
        | true => cases built
        | false =>
            obtain ⟨path, middle, compiled, onward⟩ := ok_of_bind built
            obtain ⟨new, final, counted, last⟩ := ok_of_bind onward
            cases last
            obtain ⟨goesOn, whenPath, thanPath, isTest⟩ := beside_of_newPredicate counted place
            exact ⟨path, middle, compiled, whenPath, isTest, Or.inl ⟨thanPath, goesOn⟩⟩
    | binary =>
        rw [kind] at built
        cases hasThan with
        | false => cases built
        | true =>
            obtain ⟨path, middle, compiled, onward⟩ := ok_of_bind built
            obtain ⟨other, further, compiledOther, onward⟩ := ok_of_bind onward
            obtain ⟨new, final, counted, last⟩ := ok_of_bind onward
            cases last
            obtain ⟨goesOn, whenPath, thanPath, isTest⟩ := beside_of_newPredicate counted place
            exact ⟨path, middle, compiled, whenPath, isTest,
              Or.inr ⟨other, further, compiledOther, thanPath, goesOn⟩⟩

theorem reached_of_predicate {whenText thanText : String} {asked : Test}
    {otherwise : Option Predicate} {made : Predicate} (reached : Reached place start world mark)
    (built : predicate place whenText asked thanText otherwise world = .ok (some made) later) :
    Reached place start later mark := by
  obtain ⟨_, rfl⟩ | ⟨path, middle, compiled, _, _, ends⟩ := predicate_cases built
  · exact reached
  · have reachedMiddle := reached_of_compile reached compiled
    obtain ⟨_, goesOn⟩ | ⟨other, further, compiledOther, _, goesOn⟩ := ends
    · exact .beside goesOn reachedMiddle
    · exact .beside goesOn (reached_of_compile reachedMiddle compiledOther)

/-- The paths of a new predicate are made on the way. -/
theorem made_of_predicate {whenText thanText : String} {asked : Test} {otherwise : Option Predicate}
    {made : Predicate} (fresh : Fresh start place) (reached : Reached place start world mark)
    (built : predicate place whenText asked thanText otherwise world = .ok (some made) later) :
    (otherwise = some made ∧ later = world) ∨
      ∀ path ∈ made.sides, Made place start later path := by
  refine (predicate_cases built).imp_right ?_
  rintro ⟨path, middle, compiled, whenPath, _, ends⟩
  have madePath := made_of_compile fresh reached compiled
  obtain ⟨thanPath, goesOn⟩ | ⟨other, further, compiledOther, thanPath, goesOn⟩ := ends
  · rw [Predicate.sides, whenPath, thanPath]
    exact List.forall_mem_singleton.2 (madePath.later (.beside goesOn .start))
  · have madeOther := made_of_compile fresh (reached_of_compile reached compiled) compiledOther
    rw [Predicate.sides, whenPath, thanPath]
    refine List.forall_mem_cons.2 ⟨?_, List.forall_mem_singleton.2 ?_⟩
    · exact madePath.later (.beside goesOn (reached_of_compile .start compiledOther))
    · exact madeOther.later (.beside goesOn .start)

/-- Both paths of a predicate are made on the way. -/
theorem Composed.made {asked : Predicate} (fresh : Fresh start place)
    (composed : Composed place start world asked) :
    ∀ path ∈ asked.sides, Made place start world path := by
  induction composed with
  | acceptAll => nofun
  | denyAll => nofun
  | built reached _ ended onward inductionHypothesis =>
      intro path isSide
      rcases made_of_predicate fresh reached ended with ⟨given, rfl⟩ | made
      · exact (inductionHypothesis _ given path isSide).later onward
      · exact (made path isSide).later onward

end Runs

section Alike

variable (fresh : Fresh start place)
include fresh

/-- Sides that have the same sources are the same up to their numbers. -/
theorem map_bare_of_made {first second : Option Path}
    (made : ∀ path ∈ first, Made place start world path)
    (madeSecond : ∀ path ∈ second, Made place start world path)
    (same : first.map Path.source = second.map Path.source) :
    first.map Path.bare = second.map Path.bare := by
  cases first with
  | none =>
      rw [Option.map_eq_none_iff.1 same.symm]
  | some path =>
      obtain ⟨other, rfl, source⟩ := Option.map_eq_some_iff.1 same.symm
      exact congrArg some ((made path rfl).bare_eq fresh (madeSecond other rfl) source.symm)

/-- Two predicates of one compiler that have equal sides and tests are the same up to their
numbers. -/
theorem Composed.bare_eq {first second : Predicate} (composed : Composed place start world first)
    (composedSecond : Composed place start world second)
    (oneTest : first.test.serial = second.test.serial → first.test = second.test)
    (same : first.equal second = true) : first.bare = second.bare := by
  obtain ⟨whenPath, serial, thanPath, defaultValue⟩ := Predicate.equal_iff.1 same
  have made := composed.made fresh
  have madeSecond := composedSecond.made fresh
  have sameWhen := map_bare_of_made fresh (fun path isWhen => made path (mem_sides_when isWhen))
    (fun path isWhen => madeSecond path (mem_sides_when isWhen)) whenPath
  have sameThan := map_bare_of_made fresh (fun path isThan => made path (mem_sides_than isThan))
    (fun path isThan => madeSecond path (mem_sides_than isThan)) thanPath
  simp only [Predicate.bare, sameWhen, sameThan, oneTest serial, defaultValue]

/-- What has the same source does the same.  Two paths of one compiler that are equal read and
write alike from every root and every class, with all arguments and factories and in every world:
what they give, the faults, the graphs and the logs are the same.  Two predicates of the compiler
that are equal test alike, if tests are told apart by their numbers. -/
theorem equal_behaves_alike :
    (∀ first second, Gave place start world first → Gave place start world second →
      first.equal second = true →
      getValue first = getValue second ∧ setValue first = setValue second ∧
        getStaticValue first = getStaticValue second ∧
        setStaticValue first = setStaticValue second) ∧
    (∀ first second, Composed place start world first → Composed place start world second →
      (first.test.serial = second.test.serial → first.test = second.test) →
      first.equal second = true → test first = test second) ∧
    (Equivalence fun first second : Path => first.equal second = true) ∧
    Equivalence fun first second : Predicate => first.equal second = true := by
  refine ⟨fun first second gave gaveSecond same => ?_,
    fun first second composed composedSecond oneTest same => ?_, Path.equal_equivalence,
    Predicate.equal_equivalence⟩
  · have alike : first.bare = second.bare :=
      (gave.made fresh).bare_eq fresh (gaveSecond.made fresh) (Path.equal_iff.1 same)
    exact ⟨by rw [← getValue_bare, alike, getValue_bare],
      by rw [← setValue_bare, alike, setValue_bare],
      by rw [← getStaticValue_bare, alike, getStaticValue_bare],
      by rw [← setStaticValue_bare, alike, setStaticValue_bare]⟩
  · have alike := composed.bare_eq fresh composedSecond oneTest same
    rw [← test_bare, alike, test_bare]

end Alike

/-! ## Two paths of one text -/

theorem Gave.kept {path : Path} {mark : Nat} {middle : World} (gave : Gave place start middle path)
    (onward : Reached place middle world mark) : Gave place start world path := by
  obtain ⟨early, before, values, later, after, reached, compiled, further⟩ := gave
  obtain ⟨final, whole⟩ := further.trans onward
  exact ⟨early, before, values, later, final, reached, compiled, whole⟩

theorem Composed.kept {asked : Predicate} {mark : Nat} {middle : World}
    (composed : Composed place start middle asked) (onward : Reached place middle world mark) :
    Composed place start world asked := by
  cases composed with
  | acceptAll => exact .acceptAll world
  | denyAll => exact .denyAll world
  | built reached otherwise ended further =>
      obtain ⟨final, whole⟩ := further.trans onward
      exact .built reached otherwise ended whole

/-- Compiles a text, and builds the predicate that asks whether its value is missing. -/
def askMissing (text : String) : Session (Path × Option Predicate) := do
  let path ← compileValues standardPlace [.string text]
  let made ← predicate standardPlace text .isNull "" none
  pure (path, made)

theorem askMissing_gives {text : String} {path : Path} {made : Option Predicate} {mark : Nat}
    (ended : askMissing text world = .ok (path, made) later)
    (reached : Reached standardPlace start world mark) (isMade : made.isSome = true) :
    Reached standardPlace start later mark ∧ Gave standardPlace start later path ∧
      ∀ asked ∈ made, Composed standardPlace start later asked ∧ asked.test = .isNull := by
  obtain ⟨_, middle, compiled, onward⟩ := ok_of_bind ended
  obtain ⟨_, final, built, last⟩ := ok_of_bind onward
  cases last
  obtain ⟨asked, rfl⟩ := Option.isSome_iff_exists.1 isMade
  have reachedMiddle := reached_of_compileValues reached compiled
  have onward := reached_of_predicate .start built
  refine ⟨reached_of_predicate reachedMiddle built,
    ⟨_, _, _, _, _, reached, compiled, onward⟩, fun other same => ?_⟩
  cases same
  obtain ⟨⟨⟩, _⟩ | ⟨_, _, _, _, isTest, _⟩ := predicate_cases built
  exact ⟨.built reachedMiddle (by rintro _ ⟨⟩) built .start, isTest⟩

/-- A path and a predicate on it are built, and built again from a text with a space in front after
the caches are cleared.  The two paths are two objects, but they behave alike, and so do the
predicates. -/
theorem cleared_a_behaves_alike :
    ∃ (first second : Path) (asked askedSecond : Predicate) (world : World),
      first.same second = false ∧ asked.same askedSecond = false ∧
      first.equal second = true ∧ asked.equal askedSecond = true ∧
      Gave standardPlace (.initial .standard) world first ∧
      Gave standardPlace (.initial .standard) world second ∧
      getValue first = getValue second ∧ test asked = test askedSecond := by
  have ran : (do
      let first ← askMissing "a"
      modify (·.modifyCompiler standardPlace Compiler.clear)
      let second ← askMissing " a"
      pure (first.1.same second.1, first.1.equal second.1, first.2.bind fun asked =>
        second.2.map fun askedSecond => (asked.same askedSecond, asked.equal askedSecond)) :
        Session _).run' (.initial .standard) = some (false, true, some (false, true)) := by
    decide +kernel
  obtain ⟨⟨first, made⟩, world₁, asks, onward⟩ := ok_of_bind (ok_of_run' ran)
  obtain ⟨_, _, cleared, onward⟩ := ok_of_bind onward
  cases cleared
  obtain ⟨⟨second, madeSecond⟩, world₂, asksSecond, last⟩ := ok_of_bind onward
  obtain ⟨given, _⟩ := EStateM.Result.ok.inj last
  simp only [Prod.mk.injEq, Option.bind_eq_some_iff, Option.map_eq_some_iff] at given
  obtain ⟨notSame, equal, asked, rfl, askedSecond, rfl, notSameAsked, equalAsked⟩ := given
  obtain ⟨reached, gave, composes⟩ := askMissing_gives asks .start rfl
  obtain ⟨_, gaveSecond, composesSecond⟩ := askMissing_gives asksSecond (.cleared reached) rfl
  obtain ⟨onward, _⟩ := askMissing_gives asksSecond (.cleared .start) rfl
  obtain ⟨composed, isTest⟩ := composes asked rfl
  obtain ⟨composedSecond, isTestSecond⟩ := composesSecond askedSecond rfl
  obtain ⟨paths, predicates, _⟩ := equal_behaves_alike (fresh_initial .standard)
  exact ⟨first, second, asked, askedSecond, world₂, notSame, notSameAsked, equal, equalAsked,
    gave.kept onward, gaveSecond, (paths first second (gave.kept onward) gaveSecond equal).1,
    predicates asked askedSecond (composed.kept onward) composedSecond
      (fun _ => isTest.trans isTestSecond.symm) equalAsked⟩

end Session

end ObjectPath
