import ObjectPath.Proofs.Cutting

/-!
# Appending paths

Joining two paths appends the one to the other: the nodes and the argument keys are those of the
first and then those of the second.  Since a path is found again by its text as long as the caches
are not cleared, joining is associative, and the two parts into which a path is cut are joined to
the very same path.
-/

namespace ObjectPath

/-! ## Worlds without a clearing -/

namespace World

/-- The worlds that are reached from a start without clearing the caches of a compiler. -/
inductive Continues (place : Nat) (start : World) : World → Prop
  | start : Continues place start start
  | compiled {world : World} (other : Nat) (values : List Value) : Continues place start world →
      Continues place start (stateAfter (Session.compileValues other values) world)
  | registered {world : World} (registry name : String) (type : Value) :
      Continues place start world →
        Continues place start (stateAfter (Session.register registry name type) world)
  | reported {world : World} (other : Nat) (kind : EventKind) (expression : String)
      {event : Event} :
      (∀ compiler, event.compiledBy compiler = none) → Continues place start world →
        Continues place start (stateAfter (Session.emit other kind expression event) world)
  | beside {world later : World} : Beside place world later → Continues place start world →
      Continues place start later

variable {place : Nat} {start world : World}

theorem Continues.reached (continues : Continues place start world) :
    ∃ mark, Reached place start world mark := by
  induction continues with
  | start => exact ⟨_, .start⟩
  | compiled other values _ inductionHypothesis =>
      obtain ⟨mark, reached⟩ := inductionHypothesis
      exact ⟨mark, .compiled other values reached⟩
  | registered registry name type _ inductionHypothesis =>
      obtain ⟨mark, reached⟩ := inductionHypothesis
      exact ⟨mark, .registered registry name type reached⟩
  | reported other kind expression remark _ inductionHypothesis =>
      obtain ⟨mark, reached⟩ := inductionHypothesis
      exact ⟨mark, .reported other kind expression remark reached⟩
  | beside goesOn _ inductionHypothesis =>
      obtain ⟨mark, reached⟩ := inductionHypothesis
      exact ⟨mark, .beside goesOn reached⟩

theorem Beside.cached? {later : World} (beside : Beside place world later) (source : String) :
    later.cached? place source = world.cached? place source := by
  obtain ⟨handlers, same⟩ := beside.compiler
  rw [World.cached?, same]
  rfl

/-- A path stays cached until the caches are cleared. -/
theorem Continues.cached? (continues : Continues place start world)
    (present : place < start.compilers.size) {source : String} {path : Path}
    (found : start.cached? place source = some path) : world.cached? place source = some path := by
  -- The compiler must be there already: a new one would start with its own caches.
  have keeps : ∀ {before after : World}, Changes before after →
      place < before.compilers.size ∧ before.cached? place source = some path →
        place < after.compilers.size ∧ after.cached? place source = some path :=
    fun changes holds => ⟨changes.size ▸ holds.1, changes.cached? holds.1 holds.2⟩
  suffices holds : place < world.compilers.size ∧ world.cached? place source = some path from
    holds.2
  induction continues with
  | start => exact ⟨present, found⟩
  | compiled other values _ inductionHypothesis =>
      exact keeps ((Session.changing_compileValues other values).changes _) inductionHypothesis
  | registered registry name type _ inductionHypothesis =>
      exact keeps ((Session.consulting_register registry name type).changing.changes _)
        inductionHypothesis
  | reported other kind expression remark _ inductionHypothesis =>
      exact keeps ((Session.changing_emit other kind expression remark).changes _)
        inductionHypothesis
  | beside goesOn _ inductionHypothesis =>
      exact ⟨inductionHypothesis.1.trans_le goesOn.size,
        (goesOn.cached? source).trans inductionHypothesis.2⟩

/-- A path that the compiler had cached in some world on the way, without a clearing since. -/
def Remembers (place : Nat) (start world : World) (path : Path) : Prop :=
  ∃ early mark, Reached place start early mark ∧ Continues place early world ∧
    (path.source, path) ∈ (early.compiler place).expressions

theorem Remembers.cached? {path : Path} (remembers : Remembers place start world path)
    (fresh : Fresh start place) : world.cached? place path.source = some path ∧
      Cached world place (path.source, path) := by
  obtain ⟨early, _, reached, onward, member⟩ := remembers
  have sound := reached.sound fresh.sound
  obtain ⟨_, onwardReached⟩ := onward.reached
  exact ⟨onward.cached? sound.present (Entries.get?_of_mem sound.distinct member),
    onwardReached.cached (sound.cached _ member)⟩

end World

/-! ## Keys of appended lists -/

/-- Dropping repetitions and leaving items out may change places. -/
theorem eraseDups_filter {α : Type} [BEq α] [LawfulBEq α] (keeps : α → Bool) :
    ∀ items : List α, (items.filter keeps).eraseDups = items.eraseDups.filter keeps
  | [] => rfl
  | item :: rest => by
      have shorter : (rest.filter fun other => !other == item).length < (item :: rest).length :=
        Nat.lt_succ_of_le (List.length_filter_le ..)
      -- Dropping repetitions goes on with the rest without the item, not with the rest itself.
      have inner := eraseDups_filter keeps (rest.filter fun other => !other == item)
      rw [List.filter_filter] at inner
      rw [List.eraseDups_cons]
      by_cases kept : keeps item = true
      · rw [List.filter_cons_of_pos kept, List.filter_cons_of_pos kept, List.eraseDups_cons,
          List.filter_filter, ← inner]
        simp only [Bool.and_comm]
      · rw [List.filter_cons_of_neg kept, List.filter_cons_of_neg kept, ← inner]
        congr 1
        refine List.filter_congr fun other _ => ?_
        by_cases same : other = item
        · subst same
          simp [kept]
        · simp [same]
termination_by items => items.length
decreasing_by exact shorter

/-- The items of two lists without repetition: those of the first, and then those of the second
that are not in the first. -/
theorem eraseDups_append_eq {α : Type} [BEq α] [LawfulBEq α] (items others : List α) :
    (items ++ others).eraseDups =
      items.eraseDups ++ others.eraseDups.filter fun other => !items.eraseDups.contains other := by
  rw [List.eraseDups_append, List.removeAll, eraseDups_filter]
  congr 2
  funext other
  rw [Bool.eq_iff_iff]
  simp [List.mem_eraseDups]

namespace Path

/-- Nodes that are the same up to their numbers have the same texts and argument keys. -/
theorem map_text_of_bare {nodes others : List Node}
    (same : nodes.map Node.bare = others.map Node.bare) :
    nodes.map Node.text = others.map Node.text := by
  have texts := congrArg (List.map Node.text) same
  simpa [List.map_map, Function.comp_def] using texts

theorem flatMap_argumentKeys_of_bare {nodes others : List Node}
    (same : nodes.map Node.bare = others.map Node.bare) :
    nodes.flatMap Node.argumentKeys = others.flatMap Node.argumentKeys := by
  have bare : ∀ node : Node, node.bare.argumentKeys = node.argumentKeys := fun node => by
    rw [Node.argumentKeys_eq, Node.form_bare, ← Node.argumentKeys_eq]
  have keys := congrArg (List.flatMap Node.argumentKeys) same
  simpa [List.flatMap_map, bare] using keys

end Path

/-! ## The parts of a text -/

namespace Path

variable {path : Path}

theorem sliceText_append {texts : List (List Char)}
    (nodeTexts : path.nodes.map Node.text = texts.map String.ofList) {cut : Nat}
    (positive : 0 < cut) (inside : cut < path.size) :
    (path.sliceText 0 cut ++ "." ++ path.sliceText cut path.size).toList =
      ['.'].intercalate texts := by
  have length : texts.length = path.size := by
    rw [size, ← List.length_map (f := Node.text), nodeTexts, List.length_map]
  have someBefore : texts.take cut ≠ [] := List.ne_nil_of_length_pos (by
    rw [List.length_take]
    omega)
  have someAfter : texts.drop cut ≠ [] := List.ne_nil_of_length_pos (by
    rw [List.length_drop]
    omega)
  rw [String.toList_append, String.toList_append, toList_sliceText nodeTexts,
    toList_sliceText nodeTexts, List.drop_zero, ← length, List.take_length]
  conv_rhs => rw [← List.take_append_drop cut texts,
    PathText.intercalate_append someBefore someAfter]
  simp

end Path

namespace Session

open World

variable {world : World} {place : Nat} {limit : Number} {path tail : Path}

/-! ## Joining and cutting -/

theorem sliceSource_append (cached : Cached world place (path.source, path)) {cut : Nat}
    (positive : 0 < cut) (inside : cut < path.size) :
    path.sliceSource 0 cut ++ "." ++ path.sliceSource cut path.size = path.source := by
  cases root : path.rootType with
  | none =>
      obtain ⟨segments, spells, read⟩ := cached.isRead.spells_of_plain root
      have plain := plain_of_cached cached root
      have texts := (parts_of_plain cached plain spells).2
      have same := Path.sliceText_append texts positive inside
      have notBound : ∀ first last, path.sliceSource first last = path.sliceText first last := by
        intro first last
        rw [Path.sliceSource, PathText.parseStatic_of_plain plain]
      rw [notBound, notBound, ← String.toList_inj, same]
      exact spells.2.2.symm
  | some owner =>
      obtain ⟨name, body, texts, parsed, _, spells, nodeTexts⟩ := parts_of_cached cached root
      obtain ⟨isStatic, _⟩ := PathText.eq_withType_of_parseStatic parsed
      have same : path.sliceText 0 cut ++ "." ++ path.sliceText cut path.size = body := by
        rw [← String.toList_inj, Path.sliceText_append nodeTexts positive inside]
        exact spells.2.2.symm
      have before : path.sliceSource 0 cut = PathText.withType name (path.sliceText 0 cut) := by
        rw [Path.sliceSource, parsed]
        rfl
      have after : path.sliceSource cut path.size = path.sliceText cut path.size := by
        rw [Path.sliceSource, parsed]
        exact if_neg (Nat.ne_of_gt positive)
      rw [before, after, isStatic, ← same]
      simp only [PathText.withType, String.append_assoc]

/-- A path that is cached is found again by the texts of two paths that make up its text. -/
theorem concat_of_cached {joined : Path} (cached : Cached world place (joined.source, joined))
    (found : world.cached? place joined.source = some joined) (maker : path.compiler = place)
    (noType : tail.rootType = none) (source : path.source ++ "." ++ tail.source = joined.source) :
    concat path tail world = .ok joined world := by
  rw [concat_of_plain noType, maker, source]
  have trimmed : Text.trim joined.source = joined.source := cached.isRead.trimmed
  exact compile_of_cached (by rw [trimmed]; exact cached.isRead.notEmpty) (by rwa [trimmed])

/-- The first part of a path, and then the second, are joined to the path. -/
theorem concat_of_parts (cached : Cached world place (path.source, path))
    (found : world.cached? place path.source = some path) {cut : Nat} (positive : 0 < cut)
    (inside : cut < path.size) {head rest : Path} {before : World}
    (headSlices : Slices place path head 0 cut before)
    (restSlices : Slices place path rest cut path.size world) :
    concat head rest world = .ok path world := by
  have headSource : head.source = path.sliceSource 0 cut := headSlices.cached.source
  have restSource : rest.source = path.sliceSource cut path.size := restSlices.cached.source
  have noType : rest.rootType = none := by
    rw [restSlices.rootType, if_neg (Nat.ne_of_gt positive)]
  exact concat_of_cached cached found headSlices.cached.maker noType (by
    rw [headSource, restSource]
    exact sliceSource_append cached positive inside)

/-- Two paths without a type are joined if the joined path is not too long, and no handler fails on
its report. -/
theorem exists_concat (sound : Sound world place)
    (limited : (world.compiler place).maxNodes = .number limit)
    (cached : Cached world place (path.source, path))
    (cachedTail : Cached world place (tail.source, tail)) (noType : path.rootType = none)
    (noTypeTail : tail.rootType = none) (allows : limit.Allows (path.size + tail.size))
    (returns : world.cached? place (path.source ++ "." ++ tail.source) = none →
      ReportReturns place (path.source ++ "." ++ tail.source) world) :
    ∃ joined later, concat path tail world = .ok joined later := by
  obtain ⟨segments, spells, _⟩ := cached.isRead.spells_of_plain noType
  obtain ⟨others, spellsTail, _⟩ := cachedTail.isRead.spells_of_plain noTypeTail
  have whole : path.source.toList ++ '.' :: tail.source.toList =
      (path.source ++ "." ++ tail.source).toList := by simp
  have spelled := spells.append spellsTail
  rw [whole] at spelled
  have maker : path.compiler = place := cached.maker
  obtain ⟨joined, later, compiled⟩ := exists_compile_of_plain sound limited
    (PathText.not_namesType_join (plain_of_cached cached noType) tail.source) spelled
    (by rw [List.length_append, List.length_map, List.length_map]; exact allows) returns
  exact ⟨joined, later, by rw [concat_of_plain noTypeTail, maker, compiled]⟩

/-- A joined path has the nodes, the root type and the argument keys of the first path, and then
the nodes and the further argument keys of the second. -/
structure Appends (path tail joined : Path) : Prop where
  nodes : joined.nodes.map Node.text = path.nodes.map Node.text ++ tail.nodes.map Node.text
  rootType : joined.rootType = path.rootType
  argumentKeys : joined.argumentKeys = path.argumentKeys ++
    tail.argumentKeys.filter fun key => !path.argumentKeys.contains key

theorem Joins.appends {joined : Path} (joins : Joins path tail joined) :
    Appends path tail joined where
  nodes := by rw [Path.map_text_of_bare joins.nodes, List.map_append]
  rootType := joins.rootType
  argumentKeys := by
    rw [Path.argumentKeys, Path.flatMap_argumentKeys_of_bare joins.nodes, List.flatMap_append,
      eraseDups_append_eq]
    rfl

/-- A path was joined from two others in some world on the way. -/
def Joined (place : Nat) (start world : World) (path tail joined : Path) : Prop :=
  ∃ before after mark laterMark, Reached place start before mark ∧
    concat path tail before = .ok joined after ∧ Reached place after world laterMark

theorem Joined.source {joined : Path} {start : World}
    (joinedFrom : Joined place start world path tail joined) (fresh : Fresh start place)
    (cached : Cached world place (path.source, path))
    (cachedTail : Cached world place (tail.source, tail)) (noType : tail.rootType = none) :
    joined.source = path.source ++ "." ++ tail.source ∧ joined.compiler = place ∧
      joined.rootType = path.rootType := by
  obtain ⟨before, after, _, _, reached, ended, onward⟩ := joinedFrom
  have maker : path.compiler = place := cached.maker
  rw [concat_of_plain noType, maker] at ended
  obtain ⟨_, _, cachedJoined⟩ := cached_of_compile (reached.sound fresh.sound) ended
  rw [Path.trim_join cached.isRead cachedTail.isRead noType] at cachedJoined
  have source : joined.source = path.source ++ "." ++ tail.source := cachedJoined.source
  have later := onward.cached cachedJoined
  exact ⟨source, later.maker,
    (Path.parts_of_join cached.isRead cachedTail.isRead noType later.isRead source).1⟩

/-- Two joins that make up one text give one path if the caches are not cleared between them. -/
theorem concat_again {first second other otherTail : Path} {middle later final : World}
    (sound : Sound world place) (maker : path.compiler = place)
    (makerOther : other.compiler = place) (noType : tail.rootType = none)
    (noTypeOther : otherTail.rootType = none)
    (same : other.source ++ "." ++ otherTail.source = path.source ++ "." ++ tail.source)
    (ended : concat path tail world = .ok first middle) (onward : Continues place middle later)
    (endedAgain : concat other otherTail later = .ok second final) : second = first := by
  rw [concat_of_plain noType, maker] at ended
  rw [concat_of_plain noTypeOther, makerOther, same] at endedAgain
  -- The second join compiles the text of the first one, and finds what that has cached.
  obtain ⟨changes, found, _⟩ := cached_of_compile sound ended
  have stays := onward.cached? (changes.sound sound).present found
  cases (compile_of_cached (trim_ne_empty_of_compile ended) stays).symm.trans endedAgain
  rfl

/-- Three paths are joined to one path, whichever two of them are joined first, if the caches are
not cleared between the last two joins. -/
theorem concat_assoc {start : World} {last both others first second : Path}
    {middle later final : World} (fresh : Fresh start place) (sound : Sound world place)
    (cached : Cached world place (path.source, path))
    (cachedTail : Cached world place (tail.source, tail))
    (cachedLast : Cached world place (last.source, last)) (noTypeTail : tail.rootType = none)
    (noTypeLast : last.rootType = none) :
    (Joined place start world path tail both → concat both last world = .ok first middle →
      Continues place middle later → Joined place start later tail last others →
      concat path others later = .ok second final → second = first) ∧
    (Joined place start world tail last others → concat path others world = .ok first middle →
      Continues place middle later → Joined place start later path tail both →
      concat both last later = .ok second final → second = first) := by
  have maker : path.compiler = place := cached.maker
  have keeps : ∀ {source : String} {entry : Path}, Changes world middle →
      Continues place middle later → Cached world place (source, entry) →
        Cached later place (source, entry) := by
    intro source entry changes onward known
    obtain ⟨_, reached⟩ := onward.reached
    exact reached.cached (changes.cached known)
  constructor
  · intro joinedBoth ended onward joinedOthers endedAgain
    obtain ⟨sourceBoth, makerBoth, _⟩ := joinedBoth.source fresh cached cachedTail noTypeTail
    have changes : Changes world middle := by
      rw [concat_of_plain noTypeLast] at ended
      exact (cached_of_compile (makerBoth ▸ sound) ended).1
    obtain ⟨sourceOthers, _, noTypeOthers⟩ := joinedOthers.source fresh
      (keeps changes onward cachedTail) (keeps changes onward cachedLast) noTypeLast
    refine concat_again sound makerBoth maker noTypeLast (noTypeOthers.trans noTypeTail) ?_ ended
      onward endedAgain
    simp only [sourceBoth, sourceOthers, String.append_assoc]
  · intro joinedOthers ended onward joinedBoth endedAgain
    obtain ⟨sourceOthers, _, noTypeOthers⟩ :=
      joinedOthers.source fresh cachedTail cachedLast noTypeLast
    have noType : others.rootType = none := noTypeOthers.trans noTypeTail
    have changes : Changes world middle := by
      rw [concat_of_plain noType] at ended
      exact (cached_of_compile (maker ▸ sound) ended).1
    obtain ⟨sourceBoth, makerBoth, _⟩ := joinedBoth.source fresh
      (keeps changes onward cached) (keeps changes onward cachedTail) noTypeTail
    refine concat_again sound maker makerBoth noType noTypeLast ?_ ended onward endedAgain
    simp only [sourceBoth, sourceOthers, String.append_assoc]

/-- The types could be walked along a path of a type when it was made. -/
theorem resolves_of_origin {early : World}
    (limited : (world.compiler place).maxNodes = .number limit)
    (cached : Cached world place (path.source, path))
    (origin : Origin early world place path.source path) {owner : Value}
    (root : path.rootType = some owner) :
    Resolves (early.compiler place).resolver (Form.leading (path.nodes.map Node.form)) owner
      .onClass early.graph := by
  obtain ⟨name, body, _, parsed, _⟩ := parts_of_cached cached root
  have namesType : PathText.NamesType path.source := by
    rw [(PathText.eq_withType_of_parseStatic parsed).1]
    exact PathText.namesType_withType name body
  obtain ⟨_, _, made⟩ := origin.made
  obtain ⟨_, type, isRoot, accepts⟩ :=
    (newPath_static namesType origin.sound (origin.limit.trans limited)).ok made
  obtain rfl := Option.some.inj (root.symm.trans isRoot)
  exact accepts.resolves

/-- The two parts into which a path is cut that is still cached are joined to the path itself. -/
theorem concat_of_cut (sound : Sound world place) (matched : ∀ name, (world.registry name).Matched)
    (limited : (world.compiler place).maxNodes = .number limit)
    (cached : Cached world place (path.source, path))
    (found : world.cached? place path.source = some path)
    (plain : ∀ node ∈ path.nodes, ¬ PathText.NamesType node.text)
    (resolves : ∀ owner, path.rootType = some owner →
      Resolves (world.compiler place).resolver (Form.leading (path.nodes.map Node.form)) owner
        .onClass world.graph) {cut : Nat} (positive : 0 < cut) (inside : cut < path.size)
    (returns : world.cached? place (path.sliceSource 0 cut) = none →
      ReportReturns place (path.sliceSource 0 cut) world) :
    ∃ head middle, subPath path (.ofNat 0) (some (.ofNat cut)) world = .ok head middle ∧
      ((middle.cached? place (path.sliceSource cut path.size) = none →
          ReportReturns place (path.sliceSource cut path.size) middle) →
        ∃ rest later,
          subPath path (.ofNat cut) (some (.ofNat path.size)) middle = .ok rest later ∧
          concat head rest later = .ok path later) := by
  obtain ⟨head, middle, ended, compiled, slices⟩ := sliceOf_slices sound (matched _) limited
    cached positive inside.le
    { plain := fun node isThere => plain node (List.mem_of_getElem? isThere)
      returns := returns
      resolves := fun _ _ owner root => resolves owner root }
  have changes := (cached_of_compile sound compiled).1
  refine ⟨head, middle, ?_, fun returnsRest => ?_⟩
  · rw [← ended]
    exact subPath_of_inside (positionOf?_ofNat (by omega)) (positionOf?_ofNat (by omega)) positive
      (by omega)
  · -- The second slice does not start with the first node, so no types are walked for it.
    obtain ⟨rest, later, endedRest, compiledRest, slicesRest⟩ := sliceOf_slices
      (changes.sound sound) (changes.matched matched _) (by rw [changes.maxNodes, limited])
      (changes.cached cached) inside le_rfl
      { plain := fun node isThere => plain node (List.mem_of_getElem? isThere)
        returns := returnsRest
        resolves := fun _ isFirst => absurd isFirst (by omega) }
    have changesRest := (cached_of_compile (changes.sound sound) compiledRest).1
    refine ⟨rest, later, ?_, ?_⟩
    · rw [← endedRest]
      exact subPath_of_inside (positionOf?_ofNat inside) (positionOf?_ofNat (by omega)) inside
        (by omega)
    · have stays := changesRest.cached? (changes.sound sound).present
        (changes.cached? sound.present found)
      exact concat_of_parts (changesRest.cached (changes.cached cached)) stays positive inside
        slices slicesRest

/-- In every world that is reached from fresh caches, with a number for the limit of the nodes,
joining a path and a path without a type appends the second to the first, whichever of three paths
are joined first; and a path that is still cached, and whose types can be walked as they could when
it was made, is what the two parts into which it is cut are joined to. -/
theorem concatenation_is_append {mark : Nat} {start : World} (fresh : Fresh start place)
    (matched : ∀ name, (start.registry name).Matched) (reached : Reached place start world mark)
    (limited : (world.compiler place).maxNodes = .number limit) :
    (∀ path tail, Made place start world path → Made place start world tail →
      tail.rootType = none →
      (path.rootType = none → limit.Allows (path.size + tail.size) →
        (world.cached? place (path.source ++ "." ++ tail.source) = none →
          ReportReturns place (path.source ++ "." ++ tail.source) world) →
        ∃ joined later, concat path tail world = .ok joined later) ∧
      ∀ joined later, concat path tail world = .ok joined later → Appends path tail joined) ∧
    (∀ path tail last both others first second middle later final,
      Made place start world path → Made place start world tail → Made place start world last →
      tail.rootType = none → last.rootType = none →
      (Joined place start world path tail both → concat both last world = .ok first middle →
        Continues place middle later → Joined place start later tail last others →
        concat path others later = .ok second final → second = first) ∧
      (Joined place start world tail last others → concat path others world = .ok first middle →
        Continues place middle later → Joined place start later path tail both →
        concat both last later = .ok second final → second = first)) ∧
    ∀ path, Remembers place start world path →
      (∃ early, Origin early world place path.source path) ∧
      ∀ early, Origin early world place path.source path →
      (∀ owner, path.rootType = some owner →
        Resolves (early.compiler place).resolver (Form.leading (path.nodes.map Node.form)) owner
          .onClass early.graph →
        Resolves (world.compiler place).resolver (Form.leading (path.nodes.map Node.form)) owner
          .onClass world.graph) →
      (∀ node ∈ path.nodes, ¬ PathText.NamesType node.text) →
      ∀ cut, 0 < cut → cut < path.size →
      (world.cached? place (path.sliceSource 0 cut) = none →
        ReportReturns place (path.sliceSource 0 cut) world) →
      ∃ head middle, subPath path (.ofNat 0) (some (.ofNat cut)) world = .ok head middle ∧
        ((middle.cached? place (path.sliceSource cut path.size) = none →
            ReportReturns place (path.sliceSource cut path.size) middle) →
          ∃ rest later,
            subPath path (.ofNat cut) (some (.ofNat path.size)) middle = .ok rest later ∧
            concat head rest later = .ok path later) := by
  have sound := reached.sound fresh.sound
  refine ⟨fun path tail made madeTail noTypeTail => ⟨fun noType allows returns => ?_,
    fun joined later ended => ?_⟩, ?_, fun path remembers => ?_⟩
  · exact exists_concat sound limited (made.cached fresh) (madeTail.cached fresh) noType noTypeTail
      allows returns
  · exact (joins_of_concat sound (made.cached fresh) (madeTail.cached fresh) noTypeTail
      ended).appends
  · intro path tail last both others first second middle later final made madeTail madeLast
    exact concat_assoc fresh sound (made.cached fresh) (madeTail.cached fresh)
      (madeLast.cached fresh)
  · obtain ⟨found, cached⟩ := remembers.cached? fresh
    refine ⟨reached.traced fresh _ _ found,
      fun early origin unchanged plain cut positive inside => ?_⟩
    exact concat_of_cut sound (reached.matched matched) limited cached found plain
      (fun owner root => unchanged owner root (resolves_of_origin limited cached origin root))
      positive inside

/-- Two calls that take one key are joined to a path that takes it once, and a path of a type is
joined from the two nodes into which it is cut. -/
theorem calls_are_appended :
    (∃ path tail joined world later, concat path tail world = .ok joined later ∧
      path.argumentKeys = ["k"] ∧ tail.argumentKeys = ["k"] ∧ joined.argumentKeys = ["k"]) ∧
    ∃ path head middle rest world, compile World.standardPlace "class(A)m(k).a" namedString =
        .ok path (stateAfter (compile World.standardPlace "class(A)m(k).a") namedString) ∧
      subPath path (.ofNat 0) (some (.ofNat 1))
          (stateAfter (compile World.standardPlace "class(A)m(k).a") namedString) =
        .ok head middle ∧
      subPath path (.ofNat 1) (some (.ofNat 2)) middle = .ok rest world ∧
      concat head rest world = .ok path world := by
  constructor
  · have call : SpellsPlainly [⟨.method "m" ["k"], []⟩] "m(k)" :=
      ⟨by decide, by rw [PathText.NamesType]; decide, _, spells_call⟩
    obtain ⟨path, tail, joined, world, later, _, reached, made, madeTail, _, noTypeTail, forms,
      formsTail, ended⟩ := exists_joined (fresh_initial .standard)
        (show _ = Value.number (.ofNat 64) from rfl) rfl call call (by decide)
    have keys : ∀ {path : Path}, path.nodes.map Node.form = [⟨.method "m" ["k"], []⟩] →
        path.argumentKeys = ["k"] := by
      intro path forms
      obtain ⟨node, nodes, form⟩ := List.map_eq_singleton_iff.1 forms
      rw [Path.argumentKeys, nodes, List.flatMap_singleton, Node.argumentKeys_eq, form]
      rfl
    have appends := ((concatenation_is_append (fresh_initial .standard) (matched_initial .standard)
      reached reached.maxNodes).1 path tail made madeTail noTypeTail).2 joined later ended
    refine ⟨path, tail, joined, world, later, ended, keys forms, keys formsTail, ?_⟩
    rw [appends.argumentKeys, keys forms, keys formsTail]
    decide
  · obtain ⟨path, later, call⟩ := exists_namedCall
    have inside : 1 < path.size := by rw [call.size]; decide
    have sound := call.reached.sound (fresh_initial .standard).sound
    have matched := call.reached.matched (matched_initial .standard)
    obtain ⟨⟨early, origin⟩, cut⟩ := (concatenation_is_append (fresh_initial .standard)
      (matched_initial .standard) call.reached call.limited).2.2 path
        ⟨later, _, call.reached, .start, call.isCached⟩
    obtain ⟨head, middle, ended, joins⟩ := cut early origin (fun _ _ _ => call.resolves later)
      call.plain 1 (by decide) inside fun _ => reportReturns_of_unhandled _ call.unhandled
    obtain ⟨rest, world, endedRest, same⟩ := joins fun _ => by
      obtain ⟨part, final, sliced, compiled, _⟩ := sliceOf_slices sound (matched _) call.limited
        (call.made.cached (fresh_initial .standard)) (by decide) inside.le (call.admitsSlice 0 1)
      have same : Session.subPath path (.ofNat 0) (some (.ofNat 1)) later = .ok part final := by
        rw [← sliced]
        exact subPath_of_inside (positionOf?_ofNat (by omega)) (positionOf?_ofNat (by omega))
          (by decide) (by omega)
      cases ended.symm.trans same
      exact reportReturns_of_unhandled _ (unhandled_of_compile call.unhandled compiled)
    rw [call.size] at endedRest
    refine ⟨path, head, middle, rest, world, ?_, ?_, endedRest, same⟩
    · rw [stateAfter_of_ok call.compiled, call.compiled]
    · rw [stateAfter_of_ok call.compiled, ended]

theorem beside_subscribe (present : place < world.compilers.size) (kind : EventKind) (name : String)
    (handler : Handler) :
    Beside place world (stateAfter (subscribe place kind name handler) world) where
  size := (size_modifyCompiler _ _ _).ge
  compiler := ⟨((world.compiler place).subscribe kind name).handlers, by
    rw [stateAfter, subscribe]
    exact compiler_modifyCompiler_self present _⟩
  registries := rfl
  events := ⟨[], (List.append_nil _).symm, rfl⟩

/-- The message of the fault that a session raises, if it raises one. -/
def raisedBy {α : Type} (work : Session α) (world : World) : Option String :=
  match work world with
  | .error (.raised message) _ => some message
  | _ => none

theorem error_of_raisedBy {α : Type} {work : Session α} {message : String}
    (raised : raisedBy work world = some message) :
    ∃ later, work world = .error (.raised message) later := by
  unfold raisedBy at raised
  split at raised
  · rename_i later ended
    cases raised
    exact ⟨later, ended⟩
  · cases raised

/-- Two short paths without a type are not joined if a handler of the report raises a fault. -/
theorem concatenation_is_refused :
    let world := stateAfter (compileValues World.standardPlace [.string "a"])
      (World.initial .standard)
    let guarded := stateAfter
      (subscribe World.standardPlace .compiled "guard" ⟨.compiled, .raise "refused"⟩) world
    ∃ path later mark, Reached World.standardPlace (World.initial .standard) guarded mark ∧
      Made World.standardPlace (World.initial .standard) guarded path ∧ path.rootType = none ∧
      (guarded.compiler World.standardPlace).maxNodes = .number (.ofNat 64) ∧
      (Number.ofNat 64).Allows (path.size + path.size) ∧
      concat path path guarded = .error (.raised "refused") later := by
  intro world guarded
  have fresh := fresh_initial .standard
  have word := spellsPlainly_word (show Text.isIdentifier "a" = true by decide)
  have spells : PathText.Spells [⟨.field "a", []⟩] ["a".toList] "a".toList :=
    spells_word (by decide)
  obtain ⟨path, later, compiled, _, cached, noType, nodes⟩ := compile_of_spells fresh.sound rfl
    word.trimmed word.plain spells (Number.allows_ofNat.2 (by decide))
    (reportReturns_of_unhandled _ rfl)
  have isLater : world = later :=
    stateAfter_of_ok (show compileValues _ [.string "a"] _ = .ok path later from compiled)
  have reached : Reached World.standardPlace (World.initial .standard) world 0 :=
    .compiled _ _ .start
  have goesOn : Beside World.standardPlace world guarded :=
    beside_subscribe (reached.sound fresh.sound).present _ _ _
  have source : path.source = "a" := cached.source
  have maker : path.compiler = World.standardPlace := cached.maker
  have size : path.size = 1 := by
    rw [Path.size, ← List.length_map (f := Node.text), nodes]
    rfl
  have found := (cached_of_compile fresh.sound compiled).2.1
  have member : (path.source, path) ∈ (world.compiler World.standardPlace).expressions := by
    rw [isLater, source]
    exact Entries.mem_of_get? found
  obtain ⟨final, refused⟩ := error_of_raisedBy
    (show raisedBy (compile World.standardPlace "a.a") guarded = some "refused" by decide +kernel)
  refine ⟨path, final, 0, .beside goesOn reached,
    ⟨world, _, _, reached, .beside goesOn .start, member⟩, noType, by decide +kernel, ?_, ?_⟩
  · rw [size]
    exact Number.allows_ofNat.2 (by decide)
  · rw [concat_of_plain noType, maker, source]
    exact refused

end Session

end ObjectPath
