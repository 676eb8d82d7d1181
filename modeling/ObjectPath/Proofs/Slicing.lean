import ObjectPath.Proofs.Differences
import ObjectPath.Proofs.Joining
import ObjectPath.Proofs.Resolving

/-!
# Slices of paths

A slice is compiled from the texts of its nodes.  What spells a segment spells it at every place of
a text, so the slice is compiled to the nodes that were asked for, and a slice that starts with the
first node of a path with a type is bound to that type again.  The one exception is a slice whose
first text starts like a bound text: it is read as one.
-/

namespace ObjectPath

/-! ## Texts of slices -/

namespace PathText

theorem trimEnd_indices {indices : List Nat} {suffixes : List (List Char)}
    (spell : List.Forall₂ IndexSpells indices suffixes) {before : List Char}
    (trimmed : Text.trimEnd before = before) :
    Text.trimEnd (before ++ suffixes.flatten) = before ++ suffixes.flatten := by
  induction spell generalizing before with
  | nil => rwa [List.flatten_nil, List.append_nil]
  | cons first _ inductionHypothesis =>
      obtain ⟨_, inside, _, _, _, _, rfl⟩ := first
      rw [List.flatten_cons, ← List.append_assoc]
      refine inductionHypothesis ?_
      rw [← List.append_assoc]
      exact Text.trimEnd_append_of_trimmed _ (by decide) (by simp)

theorem trimEnd_segment {form : Form} {text : List Char} (spells : form.Spells text) :
    Text.trimEnd text = text := by
  obtain ⟨start, suffixes, base, indices, _, rfl⟩ := spells
  obtain ⟨formBase, formIndices⟩ := form
  refine trimEnd_indices indices ?_
  cases base with
  | nothing => rfl
  | field identifier =>
      exact Text.trimEnd_of_solid
        (Text.solid_of_continues (Text.continues_of_isIdentifierList identifier))
  | method _ _ => exact Text.trimEnd_append_of_trimmed _ (by decide) (by simp)

/-- What spells a path does not end with a blank. -/
theorem Spells.trimEnd {segments : List Form} {texts : List (List Char)} {text : List Char}
    (spells : Spells segments texts text) : Text.trimEnd text = text := by
  obtain ⟨some, all, rfl⟩ := spells
  rcases List.eq_nil_or_concat texts with rfl | ⟨others, last, rfl⟩
  · cases all
    exact absurd rfl some
  rw [List.concat_eq_append] at all ⊢
  obtain ⟨form, spelled⟩ :=
    exists_spells_of_mem all (List.mem_append_right _ (List.mem_singleton_self _))
  have trimmed := trimEnd_segment spelled
  by_cases alone : others = []
  · rwa [alone, List.nil_append, List.intercalate_singleton]
  · rw [intercalate_append alone (List.cons_ne_nil _ _), List.intercalate_singleton,
      List.append_cons]
    exact Text.trimEnd_append_of_trimmed _ trimmed spelled.ne_nil

theorem Spells.trim {segments : List Form} {texts : List (List Char)} {text : String}
    (spells : Spells segments texts text.toList) : Text.trim text = text :=
  trim_of_spells spells.trimEnd spells

theorem Spells.length_eq {segments : List Form} {texts : List (List Char)} {text : List Char}
    (spells : Spells segments texts text) : texts.length = segments.length :=
  spells.2.1.length_eq.symm

/-- The texts of some of the segments of a path spell these segments. -/
theorem Spells.slice {segments : List Form} {texts : List (List Char)} {text : List Char}
    (spells : Spells segments texts text) {first last : Nat} (inside : first < last)
    (notLonger : last ≤ segments.length) :
    Spells ((segments.take last).drop first) ((texts.take last).drop first)
      (['.'].intercalate ((texts.take last).drop first)) := by
  refine ⟨fun nothing => ?_, List.forall₂_drop first (List.forall₂_take last spells.2.1), rfl⟩
  have length := congrArg List.length nothing
  rw [List.length_drop, List.length_take_of_le notLonger, List.length_nil] at length
  omega

/-- Texts with dots between them name a type only if the first of them does. -/
theorem not_namesType_intercalate {text : String} (plain : ¬ NamesType text) (rest : List String) :
    ¬ NamesType (".".intercalate (text :: rest)) := by
  cases rest with
  | nil => rwa [String.intercalate_singleton]
  | cons next others =>
      rw [String.intercalate_cons_cons]
      exact not_namesType_join plain _

end PathText

/-! ## Sources of slices -/

namespace Path

/-- The texts of the nodes from `first` up to but not including `last`. -/
def sliceText (path : Path) (first last : Nat) : String :=
  Session.joinedText ((path.nodes.take last).drop first)

/-- The text that a slice is compiled from: a slice of a path with a type is bound to the type if it
starts with the first node. -/
def sliceSource (path : Path) (first last : Nat) : String :=
  match PathText.parseStatic path.source with
  | .ok (some parts) =>
      if first = 0 then
        PathText.withType parts.typeName (path.sliceText first last)
      else
        path.sliceText first last
  | _ => path.sliceText first last

variable {path : Path} {first last : Nat}

theorem toList_sliceText {texts : List (List Char)}
    (nodeTexts : path.nodes.map Node.text = texts.map String.ofList) (first last : Nat) :
    (path.sliceText first last).toList = ['.'].intercalate ((texts.take last).drop first) := by
  rw [sliceText, Session.joinedText, String.toList_intercalate, List.map_drop, List.map_take,
    nodeTexts, List.map_drop, List.map_take, List.map_map]
  simp

theorem length_slice_le (path : Path) (first last : Nat) :
    (((path.nodes.map Node.form).take last).drop first).length ≤ path.size := by
  rw [List.length_drop, List.length_take, List.length_map, size]
  omega

theorem not_namesType_sliceText (inside : first < last) (notLonger : last ≤ path.size)
    (plain : ∀ node, path.nodes[first]? = some node → ¬ PathText.NamesType node.text) :
    ¬ PathText.NamesType (path.sliceText first last) := by
  have shorter : first < (path.nodes.take last).length := by
    rwa [List.length_take_of_le notLonger]
  have found : path.nodes[first]? = some (path.nodes.take last)[first] := by
    rw [List.getElem_take]
    exact List.getElem?_eq_getElem _
  rw [sliceText, Session.joinedText, List.drop_eq_getElem_cons shorter, List.map_cons]
  exact PathText.not_namesType_intercalate (plain _ found) _

end Path

/-! ## Limits and walks -/

theorem Number.Allows.mono {limit : Number} {count fewer : Nat} (allows : limit.Allows count)
    (isFewer : fewer ≤ count) : limit.Allows fewer := by
  unfold Number.Allows at allows ⊢
  cases located : limit.point? with
  | none => rfl
  | some point =>
      rw [located] at allows
      cases point with
      | below => exact allows
      | above => exact allows
      | «at» value =>
          have notLess : ¬ value < Dyadic.ofInt count := of_decide_eq_false allows
          refine decide_eq_false fun less => notLess ?_
          rw [← Dyadic.toRat_lt_toRat_iff] at less ⊢
          refine less.trans_le ?_
          change Dyadic.toRat ((fewer : Int) : Dyadic) ≤ Dyadic.toRat ((count : Int) : Dyadic)
          rw [Dyadic.toRat_intCast, Dyadic.toRat_intCast, Rat.intCast_le_intCast]
          exact_mod_cast isFewer

theorem Resolves.take {resolver : Resolver} {bases : List Base} {owner : Value} {scope : Scope}
    {graph : Graph} (resolves : Resolves resolver bases owner scope graph) (count : Nat) :
    Resolves resolver (bases.take count) owner scope graph := by
  induction resolves generalizing count with
  | nil =>
      rw [List.take_nil]
      exact .nil
  | last found =>
      cases count with
      | zero => exact .nil
      | succ count =>
          rw [List.take_succ_cons, List.take_nil]
          exact .last found
  | @step base next rest _ _ _ _ _ _ _ found stepping _ inductionHypothesis =>
      match count with
      | 0 => exact .nil
      | 1 => exact .last found
      | count + 2 => exact .step found stepping (inductionHypothesis (count + 1))

theorem Form.leading_take (segments : List Form) (count : Nat) :
    Form.leading (segments.take count) = (Form.leading segments).take count := by
  rw [leading, leading, List.map_take, List.take_takeWhile]

/-- What a slice asks of a world: the text of its first node does not look bound, and unless its
source is cached already, no handler fails on the report of it, and, if it keeps the type of its
path, the types can be walked along the path as they could when it was compiled. -/
structure World.AdmitsSlice (world : World) (place : Nat) (path : Path) (first last : Nat) :
    Prop where
  plain : ∀ node, path.nodes[first]? = some node → ¬ PathText.NamesType node.text
  returns : world.cached? place (path.sliceSource first last) = none →
    Session.ReportReturns place (path.sliceSource first last) world
  resolves : world.cached? place (path.sliceSource first last) = none → first = 0 →
    ∀ owner, path.rootType = some owner →
      Resolves (world.compiler place).resolver (Form.leading (path.nodes.map Node.form)) owner
        .onClass world.graph

namespace Session

open World

variable {world : World} {place : Nat} {limit : Number} {path : Path} {first last : Nat}

/-! ## Texts that are compiled -/

/-- A compiled text that is bound to a registered name has the nodes that are spelled behind it. -/
theorem parts_of_static {part : Path} {name body : String} {owner : Value}
    (cached : Cached world place (PathText.withType name body, part)) (closed : ')' ∉ name.toList)
    (bound : (world.registryOf place).type? (.string name) = some owner) {segments : List Form}
    {texts : List (List Char)} (spells : PathText.Spells segments texts body.toList) :
    part.rootType = some owner ∧ part.nodes.map Node.text = texts.map String.ofList := by
  obtain ⟨parts, split, parsed, resolved, isSplit, read⟩ := cached.isRead.read
  have source : part.source = PathText.withType name body := cached.source
  rw [source] at parsed isSplit
  obtain rfl := PathText.parts_withType closed parsed
  have resolved : some ((world.registryOf place).type? (.string name)) =
      part.rootType.map some := resolved
  rw [bound] at resolved
  rw [Option.map_some, Option.getD_some, PathText.splitSegments_of_spells spells] at isSplit
  refine ⟨?_, (PathText.spells_of_read (PathText.splitSegments_of_spells spells body)
    (Except.ok.inj isSplit ▸ read)).2⟩
  cases root : part.rootType with
  | none =>
      rw [root] at resolved
      cases resolved
  | some type =>
      rw [root] at resolved
      exact (Option.some.inj resolved).symm

/-- The texts of the nodes of a path spell its segments. -/
theorem spells_of_cached (cached : Cached world place (path.source, path)) :
    ∃ texts text, PathText.Spells (path.nodes.map Node.form) texts text ∧
      path.nodes.map Node.text = texts.map String.ofList := by
  obtain ⟨parts, split, _, _, isSplit, read⟩ := cached.isRead.read
  obtain ⟨spells, texts⟩ := PathText.spells_of_read isSplit read
  refine ⟨_, _, spells, ?_⟩
  rw [texts, List.map_map]
  simp

/-- A text that is bound to a registered class names the class that it is bound to, and the registry
is as it was. -/
theorem compileBound_of_registered {type : Value} {name body : String}
    (matched : (world.registryOf place).Matched)
    (registered : (world.registryOf place).type? (.string name) = some type)
    (stripped : PathText.toNonStatic body = .ok body) :
    compileBound place type body world = compile place (PathText.withType name body) world := by
  have unchanged : world.setRegistry (world.compiler place).registry (world.registryOf place) =
      world := by
    have found : Entries.get? world.registries (world.compiler place).registry =
        some (world.registryOf place) := by
      unfold World.registryOf World.registry at registered ⊢
      cases found : Entries.get? world.registries (world.compiler place).registry with
      | none =>
          rw [found] at registered
          cases registered
      | some registry => rfl
    rw [World.setRegistry, Entries.put_of_get? found]
  have asked := boundText_of_registered matched registered stripped
  rw [unchanged] at asked
  rw [compileBound, bind_of_ok asked]

/-! ## Compiling slices -/

/-- A slice as it is compiled: bound to the type of its path if it starts with the first node. -/
def sliceOf (path : Path) (first last : Nat) : Session Path :=
  match path.rootType with
  | some owner =>
      if first = 0 then
        compileBound path.compiler owner (path.sliceText first last)
      else
        compile path.compiler (path.sliceText first last)
  | none => compile path.compiler (path.sliceText first last)

theorem compile_of_found (sound : Sound world place) {text : String}
    (trimmed : Text.trim text = text) {part : Path}
    (found : world.cached? place text = some part) :
    compile place text world = .ok part world := by
  have cached := sound.cached _ (Entries.mem_of_get? found)
  have source : part.source = text := cached.source
  exact compile_of_cached (by rw [trimmed, ← source]; exact cached.isRead.notEmpty)
    (by rwa [trimmed])

/-- A text that spells a path compiles if it is cached, or if no handler fails on its report. -/
theorem exists_compile_of_plain (sound : Sound world place)
    (limited : (world.compiler place).maxNodes = .number limit) {text : String}
    (plain : ¬ PathText.NamesType text) {segments : List Form} {texts : List (List Char)}
    (spells : PathText.Spells segments texts text.toList) (allows : limit.Allows segments.length)
    (returns : world.cached? place text = none → ReportReturns place text world) :
    ∃ part later, compile place text world = .ok part later := by
  have trimmed := spells.trim
  cases found : world.cached? place text with
  | some part => exact ⟨part, world, compile_of_found sound trimmed found⟩
  | none =>
      obtain ⟨part, later, compiled, _⟩ :=
        compile_of_spells sound limited trimmed plain spells allows (returns found)
      exact ⟨part, later, compiled⟩

/-- A text that is bound to a type compiles if it is cached, or if it is accepted and no handler
fails on its report. -/
theorem exists_compile_of_static (sound : Sound world place)
    (limited : (world.compiler place).maxNodes = .number limit) {text name : String}
    {owner : Value} {segments : List Form} (trimmed : Text.trim text = text)
    (returns : world.cached? place text = none → ReportReturns place text world)
    (accepts : world.cached? place text = none →
      world.AcceptsStatic place limit text name owner segments) :
    ∃ part later, compile place text world = .ok part later := by
  cases found : world.cached? place text with
  | some part => exact ⟨part, world, compile_of_found sound trimmed found⟩
  | none =>
      obtain ⟨part, later, compiled, _⟩ := compile_of_acceptsStatic sound limited
        (by rwa [trimmed]) (by rw [trimmed]; exact returns found)
        (by rw [trimmed]; exact accepts found)
      exact ⟨part, later, compiled⟩

/-- The text of a path with a type is taken apart into the name of the type and what its nodes
spell. -/
theorem parts_of_cached (cached : Cached world place (path.source, path)) {owner : Value}
    (root : path.rootType = some owner) :
    ∃ name body texts, PathText.parseStatic path.source = .ok (some ⟨name, body⟩) ∧
      (world.registryOf place).type? (.string name) = some owner ∧
      PathText.Spells (path.nodes.map Node.form) texts body.toList ∧
      path.nodes.map Node.text = texts.map String.ofList := by
  obtain ⟨name, body, texts, source, closed, registered, _, _, spells, nodeTexts⟩ :=
    static_of_cached cached root
  obtain ⟨parts, _, parsed, _⟩ := cached.isRead.read
  have parsed : PathText.parseStatic path.source = .ok parts := parsed
  have same : parts = some ⟨name, body⟩ := by
    rw [source] at parsed
    exact PathText.parts_withType closed parsed
  exact ⟨name, body, texts, by rw [parsed, same], registered, spells, nodeTexts⟩

/-- What a slice is known to be: compiled from its source, with the nodes that were asked for, and
with the type of its path exactly if it starts with the first node. -/
structure Slices (place : Nat) (path part : Path) (first last : Nat) (later : World) : Prop where
  cached : Cached later place (path.sliceSource first last, part)
  rootType : part.rootType = if first = 0 then path.rootType else none
  nodes : part.nodes.map Node.text = ((path.nodes.map Node.text).take last).drop first

section Slice

variable (sound : Sound world place) (matched : (world.registryOf place).Matched)
  (limited : (world.compiler place).maxNodes = .number limit)
  (cached : Cached world place (path.source, path)) (inside : first < last)
  (notLonger : last ≤ path.size) (admits : world.AdmitsSlice place path first last)

include sound limited cached inside notLonger admits

/-- A slice that does not keep the type of its path. -/
theorem sliceOf_of_plain (free : first = 0 → path.rootType = none) :
    ∃ part later, sliceOf path first last world = .ok part later ∧
      compile place (path.sliceSource first last) world = .ok part later ∧
      Slices place path part first last later := by
  obtain ⟨texts, text, spells, nodeTexts⟩ := spells_of_cached cached
  have maker : path.compiler = place := cached.maker
  -- If the path has a type, the slice does not start with the first node.
  have source : path.sliceSource first last = path.sliceText first last := by
    unfold Path.sliceSource
    split
    · rename_i parts parsed
      split
      · rename_i isFirst
        rw [PathText.parseStatic_of_plain (plain_of_cached cached (free isFirst))] at parsed
        cases parsed
      · rfl
    · rfl
  have isCompiled : sliceOf path first last = compile place (path.sliceSource first last) := by
    rw [source, ← maker]
    unfold sliceOf
    cases root : path.rootType with
    | none => rfl
    | some owner => exact if_neg fun isFirst => by cases root.symm.trans (free isFirst)
  have plain := Path.not_namesType_sliceText inside notLonger admits.plain
  have sliced := spells.slice inside (by rwa [List.length_map])
  rw [← Path.toList_sliceText nodeTexts, ← source] at sliced
  rw [← source] at plain
  have allows := (cached.allowed limit limited).mono (path.length_slice_le first last)
  obtain ⟨part, later, compiled⟩ :=
    exists_compile_of_plain sound limited plain sliced allows admits.returns
  have cachedPart := (cached_of_compile sound compiled).2.2
  rw [sliced.trim] at cachedPart
  obtain ⟨noType, nodes⟩ := parts_of_plain cachedPart plain sliced
  refine ⟨part, later, by rw [isCompiled, compiled], compiled, cachedPart, ?_, ?_⟩
  · split
    · rw [noType, free (by assumption)]
    · exact noType
  · rw [nodes, nodeTexts, List.map_drop, List.map_take]

include matched

/-- A slice that keeps the type of its path. -/
theorem sliceOf_of_static {owner : Value} (root : path.rootType = some owner)
    (isFirst : first = 0) :
    ∃ part later, sliceOf path first last world = .ok part later ∧
      compile place (path.sliceSource first last) world = .ok part later ∧
      Slices place path part first last later := by
  obtain ⟨name, body, texts, parsed, registered, spells, nodeTexts⟩ := parts_of_cached cached root
  obtain ⟨_, closed, named, _⟩ := PathText.eq_withType_of_parseStatic parsed
  have maker : path.compiler = place := cached.maker
  have source : path.sliceSource first last =
      PathText.withType name (path.sliceText first last) := by
    rw [Path.sliceSource, parsed]
    exact if_pos isFirst
  have plain := Path.not_namesType_sliceText inside notLonger admits.plain
  have sliced := spells.slice inside (by rwa [List.length_map])
  rw [← Path.toList_sliceText nodeTexts] at sliced
  -- The text is bound to the name that the path was compiled from, under which its type is
  -- registered.
  have stripped := PathText.toNonStatic_of_plain sliced.trim plain
  have isCompiled : sliceOf path first last world =
      compile place (path.sliceSource first last) world := by
    rw [source, sliceOf, root, maker]
    dsimp only
    rw [if_pos isFirst, compileBound_of_registered matched registered stripped]
  have trimmed : Text.trim (path.sliceSource first last) = path.sliceSource first last := by
    rw [source]
    exact PathText.trim_withType name sliced.trimEnd
  have notEmpty : path.sliceText first last ≠ "" := by
    obtain ⟨character, rest, same, _⟩ := sliced.exists_head
    intro nothing
    rw [nothing] at same
    cases same
  have accepts : world.cached? place (path.sliceSource first last) = none →
      world.AcceptsStatic place limit (path.sliceSource first last) name owner
        (((path.nodes.map Node.form).take last).drop first) := fun uncached =>
    { spells := ⟨named, closed, _, _, source, notEmpty, sliced⟩
      bound := registered
      allowed := (cached.allowed limit limited).mono (path.length_slice_le first last)
      resolves := by
        rw [isFirst, List.drop_zero, Form.leading_take]
        exact (admits.resolves uncached isFirst owner root).take last }
  obtain ⟨part, later, compiled⟩ :=
    exists_compile_of_static sound limited trimmed admits.returns accepts
  obtain ⟨changes, _, cachedPart⟩ := cached_of_compile sound compiled
  rw [trimmed] at cachedPart
  have isBound := changes.registryOf registered
  obtain ⟨hasType, nodes⟩ := parts_of_static (source ▸ cachedPart) closed isBound sliced
  refine ⟨part, later, by rw [isCompiled, compiled], compiled, cachedPart, ?_, ?_⟩
  · rw [if_pos isFirst, hasType, root]
  · rw [nodes, nodeTexts, List.map_drop, List.map_take]

/-- A slice that a world admits is compiled to the nodes that were asked for. -/
theorem sliceOf_slices :
    ∃ part later, sliceOf path first last world = .ok part later ∧
      compile place (path.sliceSource first last) world = .ok part later ∧
      Slices place path part first last later := by
  cases root : path.rootType with
  | none => exact sliceOf_of_plain sound limited cached inside notLonger admits fun _ => root
  | some owner =>
      by_cases isFirst : first = 0
      · exact sliceOf_of_static sound matched limited cached inside notLonger admits root isFirst
      · exact sliceOf_of_plain sound limited cached inside notLonger admits fun same =>
          absurd same isFirst

end Slice

end Session

end ObjectPath
