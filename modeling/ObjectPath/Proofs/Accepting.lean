import ObjectPath.Graph.Standard
import ObjectPath.Proofs.Caching
import ObjectPath.Proofs.Splitting

/-!
# Texts that are accepted

A text without a type compiles exactly if it spells a path that is not longer than its compiler
allows, and the nodes of the path are the segments that are spelled.  Any other text is refused
by a fault that names it.
-/

namespace ObjectPath

/-! ## Limits -/

theorem Number.allows_ofNat {limit count : Nat} :
    (Number.ofNat limit).Allows count ↔ count ≤ limit := by
  have order : Dyadic.ofInt limit < Dyadic.ofInt count ↔ limit < count := by
    rw [← Dyadic.toRat_lt_toRat_iff, show (Dyadic.ofInt limit).toRat = _ from
      Dyadic.toRat_intCast limit, show (Dyadic.ofInt count).toRat = _ from
      Dyadic.toRat_intCast count, Rat.intCast_lt_intCast, Int.ofNat_lt]
  change decide (Dyadic.ofInt limit < Dyadic.ofInt count) = false ↔ _
  rw [decide_eq_false_iff_not, order, Nat.not_lt]

/-- What is no number bounds nothing. -/
theorem Number.allows_nan (count : Nat) : Number.nan.Allows count :=
  rfl

/-- Whether a text spells a path that is not longer than a limit. -/
def Number.Accepts (limit : Number) (source : String) : Prop :=
  ∃ segments texts, PathText.Spells segments texts source.toList ∧ limit.Allows segments.length

/-- A segment that is spelled without blanks between the parentheses of an empty list of argument
keys. -/
def Form.SpellsTightly (form : Form) (text : List Char) : Prop :=
  form.Spells text ∧
    ∀ name, form.base = .method name [] → name.toList ++ ['(', ')'] <+: text

/-- Whether a text spells a path tightly and with a number of segments that a limit reaches. -/
def Number.AcceptsTightly (limit : Number) (source : String) : Prop :=
  ∃ segments texts, PathText.Spells segments texts source.toList ∧
    List.Forall₂ Form.SpellsTightly segments texts ∧
    ∃ point, limit.point? = some point ∧ point.before (.ofInt segments.length) = false

/-- The argument keys of what a segment starts with. -/
def Base.keys : Base → List String
  | .method _ keys => keys
  | _ => []

theorem Node.argumentKeys_eq (node : Node) : node.argumentKeys = node.form.base.keys := by
  fun_induction Node.argumentKeys node with
  | case1 => rfl
  | case2 => rfl
  | case3 => rfl
  | case4 serial text index inner inductionHypothesis => exact inductionHypothesis

/-! ## Texts without a type -/

namespace PathText

/-- Whether a text names a root type. -/
def NamesType (text : String) : Prop :=
  staticMark <+: text.toList

theorem parseStatic_of_plain {text : String} (plain : ¬ NamesType text) :
    parseStatic text = .ok none := by
  unfold parseStatic afterStaticMark?
  rw [if_neg (by rwa [List.isPrefixOf_iff_prefix])]

theorem splitSegments_of_spells {segments : List Form} {texts : List (List Char)} {text : String}
    (spells : Spells segments texts text.toList) (expression : String) :
    splitSegments expression text = .ok (texts.map String.ofList) := by
  rw [splitSegments, splitList_of_spells spells]

/-- Nodes that are read from the parts of a text are those of the segments that it spells. -/
theorem spells_of_read {text expression : String} {parts : List String} {nodes : List Node}
    (split : splitSegments expression text = .ok parts)
    (read : List.Forall₂ (fun segment node => NodeTable.read segment.toList = .ok node.bare)
      parts nodes) :
    Spells (nodes.map Node.form) (parts.map String.toList) text.toList ∧
      nodes.map Node.text = parts := by
  unfold splitSegments at split
  split at split
  · rename_i texts found
    cases split
    rw [List.forall₂_map_left_iff] at read
    have spelled := read.imp fun text node same => NodeTable.spells_of_read same
    simp only [String.toList_ofList, Node.form_bare, Node.text_bare] at spelled
    have sameTexts : (texts.map String.ofList).map String.toList = texts := by
      rw [List.map_map]
      simp
    rw [sameTexts]
    refine ⟨spells_of_splitList found ?_, ?_⟩
    · rw [List.forall₂_map_left_iff]
      exact (spelled.imp fun _ _ each => each.1).flip
    · have same := List.forall₂_map_left_iff.2 (List.forall₂_map_right_iff.2
        (spelled.imp fun _ _ each => each.2.symm))
      rw [List.forall₂_eq_eq_eq] at same
      exact same.symm
  · cases split

/-- A text spells one path at most. -/
theorem Spells.unique {segments others : List Form} {texts otherTexts : List (List Char)}
    {text : List Char} (spells : Spells segments texts text)
    (spellsOthers : Spells others otherTexts text) : segments = others ∧ texts = otherTexts := by
  have same := Except.ok.inj ((splitList_of_spells spells).symm.trans (splitList_of_spells spellsOthers))
  subst same
  refine ⟨?_, rfl⟩
  have all := spells.2.1
  have allOthers := spellsOthers.2.1
  clear spells spellsOthers
  induction all generalizing others with
  | nil => cases allOthers; rfl
  | cons first _ inductionHypothesis =>
      cases allOthers with
      | cons firstOther restOthers =>
          rw [first.unique firstOther, inductionHypothesis restOthers]

/-- A text that is not split spells no path, and the fault names the expression. -/
theorem not_spells_of_split_error {expression body : String} {fault : Fault}
    (split : splitSegments expression body = .error fault) :
    (∃ reason cause, fault = .invalidExpression expression reason cause) ∧
      ∀ segments texts, ¬ Spells segments texts body.toList := by
  refine ⟨?_, fun segments texts spells => ?_⟩
  · unfold splitSegments at split
    split at split <;> cases split
    exact ⟨_, _, rfl⟩
  · cases split.symm.trans (splitSegments_of_spells spells expression)

/-- The parts of a text are those of whatever path it spells. -/
theorem Spells.parts {segments : List Form} {texts : List (List Char)} {expression body : String}
    {parts : List String} (spells : Spells segments texts body.toList)
    (split : splitSegments expression body = .ok parts) :
    parts = texts.map String.ofList ∧ segments.length = parts.length := by
  have same := Except.ok.inj (split.symm.trans (splitSegments_of_spells spells expression))
  exact ⟨same, by rw [same, List.length_map, spells.2.1.length_eq]⟩

end PathText

namespace Session

open World

variable {world : World} {place : Nat} {source : String} {limit : Number}

/-! ## Refusals -/

theorem checkCount_of_allows (source : String) {count : Nat}
    (limited : (world.compiler place).maxNodes = .number limit) (allows : limit.Allows count) :
    checkCount place source count world = .ok () world := by
  rw [checkCount, bind_get, limited,
    bind_of_ok (onGraph_of_ok (Run.isBelow_number limit count world.graph))]
  rw [Number.Allows] at allows
  rw [allows]
  rfl

theorem checkCount_of_exceeded (source : String) {count : Nat}
    (limited : (world.compiler place).maxNodes = .number limit) (exceeded : ¬ limit.Allows count) :
    checkCount place source count world =
      .error (.invalidExpression source (.tooManyNodes limit.text count) none) world := by
  rw [checkCount, bind_get, limited,
    bind_of_ok (onGraph_of_ok (Run.isBelow_number limit count world.graph))]
  rw [Number.Allows, Bool.not_eq_false] at exceeded
  rw [exceeded]
  rfl

/-- The nodes of the parts of a text are the segments that it spells.  If a part has no node, the
text spells nothing. -/
theorem nodesOf_spells {body : String} {parts : List String}
    (split : PathText.splitSegments source body = .ok parts)
    (faithful : (world.compiler place).nodeTable.Faithful) :
    Ensures (nodesOf place source parts) world
      (fun nodes later => Prepares world later ∧ nodes.length = parts.length ∧
        (place < world.compilers.size →
          PathText.Spells (nodes.map Node.form) (parts.map String.toList) body.toList))
      fun fault later => Prepares world later ∧
        (∃ reason cause, fault = .invalidExpression source reason cause) ∧
          ∀ segments texts, ¬ PathText.Spells segments texts body.toList := by
  refine (nodesOf_prepares place source parts .refl).mono ?_ ?_
  · rintro nodes later ⟨prepared, _, sameLength, found⟩
    refine ⟨prepared, sameLength, fun present => (PathText.spells_of_read split ?_).1⟩
    exact (found present).imp (prepared.changes.faithful faithful)
  · rintro fault later ⟨ended, segment, member, cause, middle, prepared, refused, rfl⟩
    refine ⟨ended, ⟨_, _, rfl⟩, fun segments texts spells => ?_⟩
    rw [(spells.parts split).1] at member
    obtain ⟨text, isText, rfl⟩ := List.mem_map.1 member
    obtain ⟨form, spelled⟩ := PathText.exists_spells_of_mem spells.2.1 isText
    rw [String.toList_ofList] at refused
    exact NodeTable.not_spells_of_refused (prepared.changes.faithful faithful) refused form spelled

/-- A text without a type is only refused if it does not spell a path that is not too long. -/
theorem newPath_refuses (plain : ¬ PathText.NamesType source)
    (limited : (world.compiler place).maxNodes = .number limit)
    (faithful : (world.compiler place).nodeTable.Faithful) :
    Ensures (newPath place source) world (fun _ _ => True)
      fun fault _ => (∃ reason cause, fault = .invalidExpression source reason cause) ∧
        ¬ limit.Accepts source := by
  have parsed : lift (PathText.parseStatic source) world = .ok none world := by
    rw [PathText.parseStatic_of_plain plain]
    rfl
  unfold newPath
  refine Ensures.ok_bind parsed (Ensures.ok_bind rfl ?_)
  dsimp only [Option.map_none, Option.getD_none]
  cases split : PathText.splitSegments source source with
  | error fault =>
      obtain ⟨named, spellsNot⟩ := PathText.not_spells_of_split_error split
      exact ⟨named, fun ⟨segments, texts, spells, _⟩ => spellsNot segments texts spells⟩
  | ok parts =>
      refine Ensures.ok_bind rfl ?_
      by_cases allows : limit.Allows parts.length
      · refine Ensures.ok_bind (checkCount_of_allows source limited allows) ?_
        refine (nodesOf_spells split faithful).bind_weaker ?_ ?_
        · exact fun _ _ ⟨_, named, spellsNot⟩ =>
            ⟨named, fun ⟨segments, texts, spells, _⟩ => spellsNot segments texts spells⟩
        · rintro nodes interned ⟨_, sameLength, _⟩
          refine Ensures.ok_bind rfl (Ensures.bind ((enterPath_ensures place source nodes none
            interned).mono (fun _ _ _ => trivial) ?_) fun _ _ _ => trivial)
          rintro fault _ ⟨_, nothing, rfl⟩
          refine ⟨⟨_, _, rfl⟩, ?_⟩
          rintro ⟨segments, texts, spells, _⟩
          rw [nothing, ← (spells.parts split).2, eq_comm, List.length_nil, List.length_eq_zero_iff]
            at sameLength
          exact spells.1 sameLength
      · refine Ensures.error_bind (checkCount_of_exceeded source limited allows) ⟨⟨_, _, rfl⟩, ?_⟩
        rintro ⟨segments, texts, spells, allowed⟩
        exact allows ((spells.parts split).2 ▸ allowed)

/-! ## Acceptance -/

section Plain

variable {text : String} (sound : Sound world place)
  (plain : ¬ PathText.NamesType (Text.trim text))
  (limited : (world.compiler place).maxNodes = .number limit)

include sound plain limited

/-- What compiles spells a path that is not too long, and the nodes are its segments. -/
theorem accepts_of_compile {path : Path} {later : World}
    (compiled : compile place text world = .ok path later) :
    ∃ segments texts, PathText.Spells segments texts (Text.trim text).toList ∧
      limit.Allows segments.length ∧ path.nodes.map Node.form = segments ∧
      path.nodes.map Node.text = texts.map String.ofList := by
  obtain ⟨changes, _, cached⟩ := cached_of_compile sound compiled
  have source : path.source = Text.trim text := cached.source
  obtain ⟨parts, segments, parsed, _, split, read⟩ := cached.isRead.read
  rw [source, PathText.parseStatic_of_plain plain] at parsed
  cases parsed
  rw [source] at split
  obtain ⟨spells, texts⟩ := PathText.spells_of_read split read
  refine ⟨_, _, spells, ?_, rfl, ?_⟩
  · rw [List.length_map]
    exact cached.allowed limit (by rw [changes.maxNodes, limited])
  · rw [texts, List.map_map]
    simp

/-- What does not compile is named by the fault and spells no path that is not too long. -/
theorem not_accepts_of_compile (notEmpty : Text.trim text ≠ "")
    (returns : ReportReturns place (Text.trim text) world)
    {fault : Fault} {later : World} (failed : compile place text world = .error fault later) :
    (∃ reason cause, fault = .invalidExpression (Text.trim text) reason cause) ∧
      ¬ limit.Accepts (Text.trim text) := by
  cases found : world.cached? place (Text.trim text) with
  | some path =>
      rw [compile_of_cached notEmpty found] at failed
      cases failed
  | none =>
      have unmade := (compile_of_fresh notEmpty found returns).error failed
      exact (newPath_refuses plain limited sound.faithful).error unmade

theorem compile_of_accepts (notEmpty : Text.trim text ≠ "")
    (returns : ReportReturns place (Text.trim text) world)
    (accepts : limit.Accepts (Text.trim text)) :
    ∃ path later, compile place text world = .ok path later := by
  cases ended : compile place text world with
  | ok path later => exact ⟨path, later, rfl⟩
  | error fault later =>
      exact absurd accepts (not_accepts_of_compile sound plain limited notEmpty returns ended).2

end Plain

/-- A trimmed text that is not empty and names no type compiles exactly if it spells a path that
is not longer than the limit of its compiler, provided that no handler of its report fails.  The
nodes of the path then have the texts, the indices and the argument keys that are spelled, in
order.  Otherwise the fault names the trimmed text. -/
theorem compile_ok_iff_accepts {mark : Nat} {start : World} (fresh : Fresh start place)
    (reached : Reached place start world mark) {text : String} (notEmpty : Text.trim text ≠ "")
    (plain : ¬ PathText.NamesType (Text.trim text))
    (limited : (world.compiler place).maxNodes = .number limit)
    (returns : ReportReturns place (Text.trim text) world) :
    ((∃ path later, compile place text world = .ok path later) ↔
        limit.Accepts (Text.trim text)) ∧
      (∀ path later, compile place text world = .ok path later → ∀ segments texts,
        PathText.Spells segments texts (Text.trim text).toList →
          path.nodes.map Node.text = texts.map String.ofList ∧
            path.nodes.map Node.form = segments ∧
            path.nodes.map Node.argumentKeys = segments.map (·.base.keys)) ∧
      ∀ fault later, compile place text world = .error fault later →
        ∃ reason cause, fault = .invalidExpression (Text.trim text) reason cause := by
  have sound := reached.sound fresh.sound
  refine ⟨⟨?_, compile_of_accepts sound plain limited notEmpty returns⟩, ?_,
    fun fault later failed => ?_⟩
  · rintro ⟨path, later, compiled⟩
    obtain ⟨segments, texts, spells, allows, _⟩ :=
      accepts_of_compile sound plain limited compiled
    exact ⟨segments, texts, spells, allows⟩
  · intro path later compiled segments texts spells
    obtain ⟨forms, parts, spelled, _, sameForms, sameTexts⟩ :=
      accepts_of_compile sound plain limited compiled
    obtain ⟨rfl, rfl⟩ := spelled.unique spells
    refine ⟨sameTexts, sameForms, ?_⟩
    rw [← sameForms, List.map_map]
    exact List.map_congr_left fun node _ => node.argumentKeys_eq
  · exact (not_accepts_of_compile sound plain limited notEmpty returns failed).1

/-- A path of two segments is compiled from a text with blanks around it and in it. -/
theorem compile_ok_iff_accepts_initial :
    ∃ path later, compile World.standardPlace " a[ 0 ].f(x, y)" (World.initial .standard) =
        .ok path later ∧ path.nodes.map Node.text = ["a[ 0 ]", "f(x, y)"] ∧
      path.nodes.map Node.argumentKeys = [[], ["x", "y"]] := by
  have spells : PathText.Spells [⟨.field "a", [0]⟩, ⟨.method "f" ["x", "y"], []⟩]
      ["a[ 0 ]".toList, "f(x, y)".toList] "a[ 0 ].f(x, y)".toList := by
    refine ⟨by simp, .cons ?_ (.cons ?_ .nil), by decide⟩
    · refine ⟨"a".toList, ["[ 0 ]".toList], .field (by decide), .cons ?_ .nil, by simp, by decide⟩
      exact ⟨['0'], " 0 ".toList, by decide, by decide, by decide,
        ⟨[' '], [' '], by decide, by decide, by decide⟩, by decide⟩
    · have last : KeysSpell ["y"] " y".toList :=
        .last (by decide) ⟨[' '], [], by decide, by decide, by decide⟩
      have keys : KeysSpell ["x", "y"] ("x".toList ++ ',' :: " y".toList) :=
        .next (by decide) ⟨[], [], by decide, by decide, by decide⟩ (by decide) last
      exact Form.spells_base.2 ⟨.method (by decide) keys, by simp⟩
  have trimmed : Text.trim " a[ 0 ].f(x, y)" = "a[ 0 ].f(x, y)" := by decide
  have plain : ¬ PathText.NamesType (Text.trim " a[ 0 ].f(x, y)") := by
    rw [trimmed, PathText.NamesType]
    decide
  have limited : ((World.initial .standard).compiler World.standardPlace).maxNodes =
      .number (.ofNat 64) := rfl
  obtain ⟨compiles, nodes, _⟩ := compile_ok_iff_accepts (fresh_initial .standard) .start
    (by rw [trimmed]; decide) plain limited (reportReturns_of_unhandled _ rfl)
  rw [trimmed] at compiles nodes
  obtain ⟨path, later, compiled⟩ := compiles.2 ⟨_, _, spells, Number.allows_ofNat.2 (by decide)⟩
  obtain ⟨texts, _, keys⟩ := nodes path later compiled _ _ spells
  exact ⟨path, later, compiled, texts, keys⟩

/-! ## Where the grammar is wider -/

theorem spells_word {name : String} (identifier : Text.isIdentifier name = true) :
    PathText.Spells [⟨.field name, []⟩] [name.toList] name.toList :=
  ⟨by simp, .cons (Form.spells_base.2 ⟨.field identifier, by simp⟩) .nil,
    by rw [List.intercalate_singleton]⟩

theorem spells_call_of_blank : PathText.Spells [⟨.method "f" [], []⟩] ["f( )".toList] "f( )".toList :=
  ⟨by simp, .cons (Form.spells_base.2 ⟨.method (by decide) (.none (by decide : Text.Blanks [' '])),
    by simp⟩) .nil, by decide⟩

/-- A grammar without blanks between the parentheses of an empty list, with at most as many
segments as the limit and with no regard to handlers is not what compiles: a blank between the
parentheses is accepted, a limit that is no number bounds nothing, and a text that is spelled
tightly does not compile if a handler of its report raises a fault. -/
theorem compile_is_not_tight :
    let world := World.initial .standard
    let unlimited := world.modifyCompiler World.standardPlace
      fun compiler => { compiler with maxNodes := .number .nan }
    let guarded := stateAfter
      (subscribe World.standardPlace .compiled "guard" ⟨.compiled, .raise "refused"⟩) world
    ((∃ path later, compile World.standardPlace "f( )" world = .ok path later) ∧
        ¬ (Number.ofNat 64).AcceptsTightly "f( )") ∧
      ((∃ path later, compile World.standardPlace "a" unlimited = .ok path later) ∧
        ¬ Number.nan.AcceptsTightly "a") ∧
      (∃ later, compile World.standardPlace "a" guarded = .error (.raised "refused") later) ∧
        (Number.ofNat 64).AcceptsTightly "a" := by
  intro world unlimited guarded
  have oneWord : PathText.Spells [⟨.field "a", []⟩] [['a']] "a".toList := spells_word (by decide)
  have plain : ∀ text, 'c' ∉ text.toList → ¬ PathText.NamesType text :=
    fun text absent named => absent (named.subset (by decide))
  refine ⟨⟨?_, ?_⟩, ⟨?_, ?_⟩, ?_, ?_⟩
  · have sound : Sound world World.standardPlace := (fresh_initial .standard).sound
    exact compile_of_accepts sound (plain _ (by decide)) rfl (by decide) (reportReturns_of_unhandled _ rfl)
      ⟨_, _, spells_call_of_blank, Number.allows_ofNat.2 (by decide)⟩
  · rintro ⟨segments, texts, spells, tight, _⟩
    obtain ⟨rfl, rfl⟩ := spells.unique spells_call_of_blank
    cases tight with
    | cons first _ =>
        have impossible := first.2 "f" rfl
        revert impossible
        decide
  · have fresh : Fresh unlimited World.standardPlace := ⟨by decide, rfl, rfl⟩
    exact compile_of_accepts fresh.sound (plain _ (by decide)) rfl (by decide)
      (reportReturns_of_unhandled _ rfl) ⟨_, _, oneWord, Number.allows_nan 1⟩
  · rintro ⟨_, _, _, _, point, impossible, _⟩
    cases impossible
  · have sound : Sound guarded World.standardPlace := Fresh.sound ⟨by decide, rfl, rfl⟩
    have accepts : (Number.ofNat 64).Accepts "a" :=
      ⟨_, _, oneWord, Number.allows_ofNat.2 (by decide)⟩
    cases made : newPath World.standardPlace "a" guarded with
    | error fault later =>
        exact absurd accepts
          ((newPath_refuses (plain _ (by decide)) rfl sound.faithful).error made).2
    | ok result later =>
        obtain ⟨path, typeName⟩ := result
        have handled : (guarded.compiler World.standardPlace).handlers .compiled = ["guard"] := rfl
        have raises : Entries.get? guarded.handlers "guard" = some ⟨.compiled, .raise "refused"⟩ :=
          rfl
        have fails : ∃ final, compile World.standardPlace "a" guarded =
            .error (.raised "refused") final ∧ final.cached? World.standardPlace "a" = some path :=
          compile_of_raise sound.present (by decide) rfl handled raises made
        obtain ⟨final, failed, _⟩ := fails
        exact ⟨final, failed⟩
  · refine ⟨_, _, oneWord, .cons ⟨Form.spells_base.2 ⟨.field (by decide), by simp⟩, nofun⟩ .nil,
      _, rfl, ?_⟩
    exact Number.allows_ofNat.2 (by decide : 1 ≤ 64)

end Session

end ObjectPath
