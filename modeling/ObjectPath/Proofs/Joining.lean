import ObjectPath.Proofs.Unbinding

/-!
# Joined paths

One path is joined to another by a dot between their texts.  The brackets of each text are closed
where it ends, so the text of the joined path is split where the two texts are split and at the
dot between them: its nodes are those of the one path and then those of the other, up to the
numbers that their table gave them, and it starts from the type that the first path starts from.
-/

namespace ObjectPath

namespace PathText

/-! ## Joined texts -/

theorem intercalate_append {first second : List (List Char)} (someFirst : first ≠ [])
    (someSecond : second ≠ []) :
    ['.'].intercalate (first ++ second) =
      ['.'].intercalate first ++ '.' :: ['.'].intercalate second := by
  induction first with
  | nil => exact absurd rfl someFirst
  | cons text rest inductionHypothesis =>
      cases rest with
      | nil =>
          obtain ⟨next, others, rfl⟩ := List.exists_cons_of_ne_nil someSecond
          rw [List.singleton_append, List.intercalate_cons_cons, List.intercalate_singleton,
            List.append_assoc, List.singleton_append]
      | cons next others =>
          have joined := inductionHypothesis (List.cons_ne_nil _ _)
          rw [List.cons_append] at joined ⊢
          rw [List.cons_append, List.intercalate_cons_cons, joined, List.intercalate_cons_cons]
          simp only [List.append_assoc]

theorem Spells.append {segments others : List Form} {texts otherTexts : List (List Char)}
    {text otherText : List Char} (spells : Spells segments texts text)
    (spellsOthers : Spells others otherTexts otherText) :
    Spells (segments ++ others) (texts ++ otherTexts) (text ++ '.' :: otherText) := by
  obtain ⟨some, all, rfl⟩ := spells
  obtain ⟨someOthers, allOthers, rfl⟩ := spellsOthers
  have texts_ne_nil : texts ≠ [] := by
    rintro rfl
    cases all
    exact some rfl
  have otherTexts_ne_nil : otherTexts ≠ [] := by
    rintro rfl
    cases allOthers
    exact someOthers rfl
  exact ⟨List.append_ne_nil_of_left_ne_nil some _, List.rel_append all allOthers,
    (intercalate_append texts_ne_nil otherTexts_ne_nil).symm⟩

/-- A text that names no type names none either when something is joined to it. -/
theorem not_namesType_join {text : String} (plain : ¬ NamesType text) (rest : String) :
    ¬ NamesType (text ++ "." ++ rest) := by
  rintro ⟨behind, same⟩
  have whole : staticMark ++ behind = text.toList ++ '.' :: rest.toList := by
    rw [same]
    simp
  rcases List.append_eq_append_iff.1 whole with ⟨inside, marked, _⟩ | ⟨cut, marked, dotted⟩
  · exact plain ⟨inside, marked.symm⟩
  · -- If the text ended inside the mark, the mark would go on with a dot.
    cases cut with
    | nil => exact plain ⟨[], by rw [marked]; simp⟩
    | cons character others =>
        obtain rfl : '.' = character := (List.cons.inj dotted).1
        have member : '.' ∈ staticMark := by
          rw [marked]
          simp
        revert member
        decide

/-- What is joined to a text goes to the path in it. -/
theorem parts_join {text rest : String} {parts joined : Option StaticParts}
    (parsed : parseStatic text = .ok parts)
    (parsedJoined : parseStatic (text ++ "." ++ rest) = .ok joined) :
    joined = parts.map fun parts => ⟨parts.typeName, parts.body ++ "." ++ rest⟩ := by
  cases parts with
  | none =>
      rw [parseStatic_of_plain (not_namesType_join (plain_of_parseStatic parsed) rest)]
        at parsedJoined
      cases parsedJoined
      rfl
  | some parts =>
      obtain ⟨isStatic, closed, _⟩ := eq_withType_of_parseStatic parsed
      refine parts_withType closed ?_
      rw [isStatic] at parsedJoined
      rw [← parsedJoined]
      simp only [withType, String.append_assoc]

theorem trimEnd_join (text : String) {rest : String}
    (trimmed : Text.trimEnd rest.toList = rest.toList) (notEmpty : rest ≠ "") :
    Text.trimEnd (text ++ "." ++ rest).toList = (text ++ "." ++ rest).toList := by
  rw [String.toList_append]
  refine Text.trimEnd_append_of_trimmed _ trimmed fun nothing => notEmpty ?_
  rw [← String.toList_inj, nothing]
  rfl

end PathText

namespace Path

/-! ## Joined paths -/

variable {registry : Registry} {path tail joined : Path}

/-- The text of a path without its type spells its nodes. -/
theorem IsRead.spells (isRead : path.IsRead registry) :
    ∃ parts segments, PathText.parseStatic path.source = .ok parts ∧
      parts.map (fun parts => registry.type? (.string parts.typeName)) = path.rootType.map some ∧
      PathText.Spells (path.nodes.map Node.form) (segments.map String.toList)
        ((parts.map (·.body)).getD path.source).toList ∧
      List.Forall₂ (fun segment node => NodeTable.read segment.toList = .ok node.bare) segments
        path.nodes := by
  obtain ⟨parts, segments, parsed, resolved, split, read⟩ := isRead.read
  exact ⟨parts, segments, parsed, resolved, (PathText.spells_of_read split read).1, read⟩

theorem IsRead.trimEnd (isRead : path.IsRead registry) :
    Text.trimEnd path.source.toList = path.source.toList := by
  rw [← isRead.trimmed, Text.trim, String.toList_ofList, Text.trimEnd_trimList]

/-- A path without a type is written as what its nodes spell. -/
theorem IsRead.spells_of_plain (isRead : path.IsRead registry) (noType : path.rootType = none) :
    ∃ segments, PathText.Spells (path.nodes.map Node.form) (segments.map String.toList)
        path.source.toList ∧
      List.Forall₂ (fun segment node => NodeTable.read segment.toList = .ok node.bare) segments
        path.nodes := by
  obtain ⟨parts, segments, _, resolved, spells, read⟩ := isRead.spells
  rw [noType, Option.map_none, Option.map_eq_none_iff] at resolved
  subst resolved
  exact ⟨segments, spells, read⟩

/-- A path without a type is read alike with every registry. -/
theorem IsRead.of_plain (isRead : path.IsRead registry) (noType : path.rootType = none)
    {other : Registry} : path.IsRead other where
  trimmed := isRead.trimmed
  notEmpty := isRead.notEmpty
  read := by
    obtain ⟨parts, segments, parsed, resolved, split, read⟩ := isRead.read
    rw [noType, Option.map_none, Option.map_eq_none_iff] at resolved
    subst resolved
    exact ⟨none, segments, parsed, by rw [noType]; rfl, split, read⟩

/-- The text of a path that is joined to another one is trimmed. -/
theorem trim_join (isRead : path.IsRead registry) (isReadTail : tail.IsRead registry)
    (noType : tail.rootType = none) :
    Text.trim (path.source ++ "." ++ tail.source) = path.source ++ "." ++ tail.source := by
  obtain ⟨parts, segments, parsed, _, spells, _⟩ := isRead.spells
  obtain ⟨others, spellsTail, _⟩ := isReadTail.spells_of_plain noType
  have trimmed := fun text => PathText.trimEnd_join text isReadTail.trimEnd isReadTail.notEmpty
  cases parts with
  | none =>
      have joined := spells.append spellsTail
      have whole : path.source.toList ++ '.' :: tail.source.toList =
          (path.source ++ "." ++ tail.source).toList := by simp
      rw [Option.map_none, Option.getD_none, whole] at joined
      exact PathText.trim_of_spells (trimmed _) joined
  | some parts =>
      have whole : path.source ++ "." ++ tail.source =
          PathText.withType parts.typeName (parts.body ++ "." ++ tail.source) := by
        conv_lhs => rw [(PathText.eq_withType_of_parseStatic parsed).1]
        simp only [PathText.withType, String.append_assoc]
      rw [whole]
      exact PathText.trim_withType _ (trimmed _)

/-- Nodes that are read from the same segments are the same, up to their numbers. -/
theorem map_bare_of_read {segments : List String} {nodes others : List Node}
    (read : List.Forall₂ (fun segment node => NodeTable.read segment.toList = .ok node.bare)
      segments nodes)
    (readOthers : List.Forall₂ (fun segment node => NodeTable.read segment.toList = .ok node.bare)
      segments others) :
    nodes.map Node.bare = others.map Node.bare := by
  induction read generalizing others with
  | nil =>
      cases readOthers
      rfl
  | cons first _ inductionHypothesis =>
      cases readOthers with
      | cons firstOther restOthers =>
          rw [List.map_cons, List.map_cons, Except.ok.inj (first.symm.trans firstOther),
            inductionHypothesis restOthers]

/-- A joined path starts from the type of the first path and has the nodes of both. -/
theorem parts_of_join (isRead : path.IsRead registry) (isReadTail : tail.IsRead registry)
    (noType : tail.rootType = none) (isReadJoined : joined.IsRead registry)
    (source : joined.source = path.source ++ "." ++ tail.source) :
    joined.rootType = path.rootType ∧
      joined.nodes.map Node.bare = (path.nodes ++ tail.nodes).map Node.bare := by
  obtain ⟨parts, segments, parsed, resolved, spells, read⟩ := isRead.spells
  obtain ⟨others, spellsTail, readTail⟩ := isReadTail.spells_of_plain noType
  obtain ⟨joinedParts, joinedSegments, parsedJoined, resolvedJoined, splitJoined, readJoined⟩ :=
    isReadJoined.read
  rw [source] at parsedJoined splitJoined
  obtain rfl := PathText.parts_join parsed parsedJoined
  constructor
  · have same : joined.rootType.map some = path.rootType.map some := by
      rw [← resolvedJoined, ← resolved, Option.map_map]
      rfl
    exact Option.map_injective (fun _ _ => Option.some.inj) same
  · have body : ((parts.map fun parts => (⟨parts.typeName, parts.body ++ "." ++ tail.source⟩ :
        PathText.StaticParts)).map (·.body)).getD (path.source ++ "." ++ tail.source) =
        (parts.map (·.body)).getD path.source ++ "." ++ tail.source := by
      cases parts <;> rfl
    have spellsJoined := spells.append spellsTail
    rw [← List.map_append, ← List.map_append] at spellsJoined
    have spelled : PathText.Spells ((path.nodes ++ tail.nodes).map Node.form)
        ((segments ++ others).map String.toList)
        ((parts.map (·.body)).getD path.source ++ "." ++ tail.source).toList := by
      simpa [String.toList_append] using spellsJoined
    rw [body, PathText.splitSegments_of_spells spelled] at splitJoined
    have same : joinedSegments = segments ++ others := by
      rw [← Except.ok.inj splitJoined, List.map_map]
      simp
    rw [same] at readJoined
    exact map_bare_of_read readJoined (List.rel_append read readTail)

end Path

namespace Session

open World

variable {world : World} {place : Nat}

theorem concat_of_plain {path tail : Path} (noType : tail.rootType = none) :
    concat path tail world = compile path.compiler (path.source ++ "." ++ tail.source) world := by
  have returned : unbind tail world = .ok tail world := by
    rw [unbind, Path.isStatic, noType]
    rfl
  rw [concat, bind_of_ok returned]

/-- A path is joined to another one, of whatever compiler, to a path that starts from the type of
the first one and has the nodes of both. -/
theorem parts_of_concat {path tail joined : Path} {later : World} {other : Nat}
    (sound : Sound world place) (cached : Cached world place (path.source, path))
    (cachedTail : Cached world other (tail.source, tail)) (noType : tail.rootType = none)
    (ended : concat path tail world = .ok joined later) :
    joined.compiler = path.compiler ∧ joined.source = path.source ++ "." ++ tail.source ∧
      joined.rootType = path.rootType ∧
      joined.nodes.map Node.bare = (path.nodes ++ tail.nodes).map Node.bare := by
  have maker : path.compiler = place := cached.maker
  rw [concat_of_plain noType, maker] at ended
  obtain ⟨changes, _, cachedJoined⟩ := cached_of_compile sound ended
  have isRead : path.IsRead (later.registryOf place) := (changes.cached cached).isRead
  have isReadTail : tail.IsRead (later.registryOf place) := cachedTail.isRead.of_plain noType
  have source : joined.source = path.source ++ "." ++ tail.source := by
    rw [← Path.trim_join isRead isReadTail noType]
    exact cachedJoined.source
  have makerJoined : joined.compiler = place := cachedJoined.maker
  exact ⟨makerJoined.trans maker.symm, source,
    Path.parts_of_join isRead isReadTail noType cachedJoined.isRead source⟩

/-- What is known of a path that was joined from two others. -/
structure Joins (path tail joined : Path) : Prop where
  compiler : joined.compiler = path.compiler
  compilerTail : tail.compiler = path.compiler
  source : joined.source = path.source ++ "." ++ tail.source
  rootType : joined.rootType = path.rootType
  nodes : joined.nodes.map Node.bare = (path.nodes ++ tail.nodes).map Node.bare

/-- Two paths of one compiler are joined to a path with the nodes of both. -/
theorem joins_of_concat {path tail joined : Path} {later : World} (sound : Sound world place)
    (cached : Cached world place (path.source, path))
    (cachedTail : Cached world place (tail.source, tail)) (noType : tail.rootType = none)
    (ended : concat path tail world = .ok joined later) : Joins path tail joined := by
  have maker : path.compiler = place := cached.maker
  have makerTail : tail.compiler = place := cachedTail.maker
  obtain ⟨makerJoined, source, rootType, nodes⟩ :=
    parts_of_concat sound cached cachedTail noType ended
  exact ⟨makerJoined, makerTail.trans maker.symm, source, rootType, nodes⟩

/-! ## Paths that can be joined -/

/-- A trimmed text that names no type and spells segments. -/
structure SpellsPlainly (segments : List Form) (text : String) : Prop where
  trimmed : Text.trim text = text
  plain : ¬ PathText.NamesType text
  spells : ∃ texts, PathText.Spells segments texts text.toList

/-- A word is a path without a type. -/
theorem spellsPlainly_word {name : String} (identifier : Text.isIdentifier name = true) :
    SpellsPlainly [⟨.field name, []⟩] name where
  trimmed := by
    have continues := Text.continues_of_isIdentifierList identifier
    rw [Text.trim, Text.trimList_of_solid (Text.solid_of_continues continues), String.ofList_toList]
  plain := fun names =>
    PathText.quiet_word (Text.continues_of_isIdentifierList identifier) '(' (by decide)
      (names.subset (by decide))
  spells := ⟨_, spells_word identifier⟩

/-- Where neither of two compilers has handlers of its reports, a text of the one and a text of the
other compile to paths that can be joined. -/
theorem exists_joined_across {start : World} {other : Nat} (fresh : Fresh start place)
    (freshTail : Fresh start other) {limit : Nat}
    (limited : ∀ maker ∈ [place, other],
      (start.compiler maker).maxNodes = .number (.ofNat limit) ∧
        (start.compiler maker).handlers .compiled = []) {first second : String}
    {segments others : List Form} (spellsFirst : SpellsPlainly segments first)
    (spellsSecond : SpellsPlainly others second)
    (short : segments.length + others.length ≤ limit) :
    ∃ path tail joined : Path, ∃ world later : World, ∃ mark, Reached place start world mark ∧
      Made place start world path ∧ Made other start world tail ∧ path.rootType = none ∧
      tail.rootType = none ∧ path.nodes.map Node.form = segments ∧
      tail.nodes.map Node.form = others ∧ concat path tail world = .ok joined later := by
  -- Both texts are compiled in the same way, the second one in the world that the first one leaves.
  have compiles : ∀ {maker : Nat} {world : World} {text : String} {forms : List Form},
      Sound world maker → (world.compiler maker).maxNodes = .number (.ofNat limit) →
      (world.compiler maker).handlers .compiled = [] → SpellsPlainly forms text →
      forms.length ≤ limit →
        ∃ path later, compile maker text world = .ok path later ∧ Changes world later ∧
          Cached later maker (path.source, path) ∧ path.source = text ∧ path.rootType = none ∧
          path.nodes.map Node.form = forms ∧
          (path.source, path) ∈ (later.compiler maker).expressions := by
    intro maker world text forms sound limited unhandled spells short
    obtain ⟨texts, spelled⟩ := spells.spells
    obtain ⟨path, later, compiled, changes, cached, noType, _⟩ := compile_of_spells sound limited
      spells.trimmed spells.plain spelled (Number.allows_ofNat.2 short)
      (reportReturns_of_unhandled _ unhandled)
    have source : path.source = text := cached.source
    have found := (cached_of_compile sound compiled).2.1
    rw [spells.trimmed, ← source] at found
    obtain ⟨_, spelledAgain, _⟩ := cached.isRead.spells_of_plain noType
    rw [source] at spelledAgain
    exact ⟨path, later, compiled, changes, source ▸ cached, source, noType,
      (spelledAgain.unique spelled).1, Entries.mem_of_get? found⟩
  have asks : ∀ {maker : Nat} {world later : World} {text : String} {path : Path},
      compile maker text world = .ok path later →
        stateAfter (compileValues maker [.string text]) world = later :=
    fun compiled => stateAfter_of_ok compiled
  obtain ⟨limitedPlace, unhandled⟩ := limited place (by simp)
  obtain ⟨limitedOther, unhandledOther⟩ := limited other (by simp)
  obtain ⟨path, middle, compiled, changes, cached, _, noType, forms, isCached⟩ :=
    compiles fresh.sound limitedPlace unhandled spellsFirst (by omega)
  have reachedMiddle : ∀ maker, Reached maker start middle start.events.length := by
    intro maker
    rw [← asks compiled]
    exact .compiled _ _ .start
  have sound := changes.sound fresh.sound
  have limitedMiddle : ∀ maker, (middle.compiler maker).maxNodes =
      (start.compiler maker).maxNodes := changes.maxNodes
  have handled : ∀ maker, (middle.compiler maker).handlers = (start.compiler maker).handlers :=
    handlers_of_compile unhandled compiled
  obtain ⟨tail, world, compiledTail, changesTail, cachedTail, _, noTypeTail, formsTail,
    isCachedTail⟩ := compiles (changes.sound freshTail.sound)
      ((limitedMiddle other).trans limitedOther) (by rw [handled, unhandledOther]) spellsSecond
      (by omega)
  have onward : ∀ {maker : Nat} {base : World} {mark : Nat}, Reached maker base middle mark →
      Reached maker base world mark := by
    intro maker base mark reached
    rw [← asks compiledTail]
    exact .compiled _ _ reached
  have made : Made place start world path :=
    ⟨middle, _, _, reachedMiddle place, onward .start, isCached⟩
  have madeTail : Made other start world tail :=
    ⟨world, _, _, onward (reachedMiddle other), .start, isCachedTail⟩
  have soundWorld := changesTail.sound sound
  have isRead := (changesTail.cached cached).isRead
  obtain ⟨texts, spelled, _⟩ := isRead.spells_of_plain noType
  obtain ⟨otherTexts, spelledTail, _⟩ := cachedTail.isRead.spells_of_plain noTypeTail
  have plain := PathText.not_namesType_join (plain_of_cached cached noType) tail.source
  have whole : path.source.toList ++ '.' :: tail.source.toList =
      (path.source ++ "." ++ tail.source).toList := by simp
  have spelledJoined := spelled.append spelledTail
  rw [whole] at spelledJoined
  have maker : path.compiler = place := cached.maker
  obtain ⟨joined, later, ended, _⟩ := compile_of_spells soundWorld
    (by rw [changesTail.maxNodes, limitedMiddle, limitedPlace])
    (Path.trim_join isRead (cachedTail.isRead.of_plain noTypeTail) noTypeTail) plain spelledJoined
    (Number.allows_ofNat.2 (by rw [forms, formsTail, List.length_append]; exact short))
    (reportReturns_of_unhandled _ (by
      rw [handlers_of_compile (by rw [handled, unhandledOther]) compiledTail, handled, unhandled]))
  exact ⟨path, tail, joined, world, later, _, onward (reachedMiddle place), made, madeTail, noType,
    noTypeTail, forms, formsTail, by rw [concat_of_plain noTypeTail, maker, ended]⟩

/-- In a world in which no report is handled, two texts compile to paths that can be joined. -/
theorem exists_joined {start : World} (fresh : Fresh start place) {limit : Nat}
    (limited : (start.compiler place).maxNodes = .number (.ofNat limit))
    (unhandled : (start.compiler place).handlers .compiled = []) {first second : String}
    {segments others : List Form} (spellsFirst : SpellsPlainly segments first)
    (spellsSecond : SpellsPlainly others second)
    (short : segments.length + others.length ≤ limit) :
    ∃ path tail joined : Path, ∃ world later : World, ∃ mark, Reached place start world mark ∧
      Made place start world path ∧ Made place start world tail ∧ path.rootType = none ∧
      tail.rootType = none ∧ path.nodes.map Node.form = segments ∧
      tail.nodes.map Node.form = others ∧ concat path tail world = .ok joined later :=
  exists_joined_across fresh fresh (by simp [limited, unhandled]) spellsFirst spellsSecond short

end Session

end ObjectPath
