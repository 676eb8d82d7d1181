import ObjectPath.Proofs.Contents
import ObjectPath.Proofs.Outcome

/-!
# Laying data out

Data is laid out without a fault and without a change to the graph, and each of its objects is laid
out once: an object is numbered before it is laid out, the graph has no more objects than that, and
a level is left for each of them.  What the layout shows of the numbered objects is what they hold.
-/

namespace ObjectPath

variable {graph : Graph}

theorem Run.readWith_content (invoke : Invoker) {value content : Value} {key : Key}
    (held : graph.content? value key = some content) :
    Run.readWith invoke value key graph = .ok content graph := by
  change Run.receive invoke value (graph.find? value key) graph = .ok content graph
  obtain ⟨property, found, isContent⟩ := Option.bind_eq_some_iff.1 held
  rw [found]
  cases property with
  | data =>
      cases isContent
      rfl
  | accessor => cases isContent

/-- What listings show of a record is read as it is held. -/
theorem Run.listedEntries_eq {value : Value} (container : graph.IsContainer value)
    (isRecord : graph.arrayLength? value = none) :
    Run.listedEntries perform value graph = .ok ((graph.listedKeys value).map fun key =>
      (key.text, (graph.content? value key).getD .undefined)) graph := by
  have read : ∀ keys : List Key, (∀ key ∈ keys, key ∈ graph.listedKeys value) →
      Run.readEntries perform value keys graph = .ok (keys.map fun key =>
        (key.text, (graph.content? value key).getD .undefined)) graph := by
    intro keys listed
    induction keys with
    | nil => rfl
    | cons key rest inductionHypothesis =>
        rw [List.forall_mem_cons] at listed
        obtain ⟨content, held⟩ :=
          Option.ne_none_iff_exists'.1 (container.entries isRecord key listed.1)
        rw [Run.readEntries, bind_of_ok (Run.readWith_content perform held),
          bind_of_ok (inductionHypothesis listed.2), List.map_cons, held]
        rfl
  exact read _ fun _ listed => listed

namespace Format

/-! ## Numbered objects -/

/-- Objects of a graph, each of them once. -/
structure Distinct (graph : Graph) (objects : List Value) : Prop where
  nodup : objects.Nodup
  held : ∀ value ∈ objects, ∃ place < graph.objects.size, value = .object place

theorem Distinct.length_le {objects : List Value} (distinct : Distinct graph objects) :
    objects.length ≤ graph.objects.size := by
  have inside : objects ⊆ (List.range graph.objects.size).map Value.object := by
    intro value member
    obtain ⟨place, small, rfl⟩ := distinct.held value member
    exact List.mem_map_of_mem (List.mem_range.2 small)
  simpa using (distinct.nodup.subperm inside).length_le

theorem Distinct.snoc {objects : List Value} {value : Value} (distinct : Distinct graph objects)
    (held : ∃ place < graph.objects.size, value = .object place) (fresh : value ∉ objects) :
    Distinct graph (objects ++ [value]) := by
  constructor
  · exact List.nodup_append.2 ⟨distinct.nodup, List.nodup_singleton value, fun other member _ last same =>
      fresh (List.mem_singleton.1 last ▸ same ▸ member)⟩
  · rw [List.forall_mem_append]
    exact ⟨distinct.held, List.forall_mem_singleton.2 held⟩

/-- What is shown of objects is what they hold, where `numbered` are all objects by their numbers. -/
def Shows (graph : Graph) (numbered : List Value) : List Value → List (Contents Mark) → Prop :=
  List.Forall₂ fun object shown => (graph.contents object).Rel (StandsFor numbered) shown

/-- What is shown of objects stays right when more of them are numbered and shown. -/
theorem Shows.append {numbered objects more : List Value} {shown shownMore : List (Contents Mark)}
    (shows_ : Shows graph numbered objects shown)
    (showsMore : Shows graph (numbered ++ more) more shownMore) :
    Shows graph (numbered ++ more) (objects ++ more) (shown ++ shownMore) :=
  List.rel_append (shows_.imp fun _ _ related => related.imp fun _ _ stands => stands.append more)
    showsMore

/-! ## Laying out -/

/-- A value is laid out after the objects `before`, and the objects `added` with it. -/
structure Laid (graph : Graph) (before : List Value) (value : Value) (layout : Layout)
    (added : List Value) : Prop where
  isData : layout.IsData
  distinct : Distinct graph (before ++ added)
  reached : ∀ object ∈ added, graph.Reaches value object
  stands : StandsFor (before ++ added) value (layout.mark before.length)
  shows_ : Shows graph (before ++ added) added (layout.shown before.length)

/-- Elements and holes are laid out one after the other. -/
structure LaidElements (graph : Graph) (before : List Value) (held : List (Option Value))
    (elements : List (Option Layout)) (added : List Value) : Prop where
  isData : ∀ layout, some layout ∈ elements → layout.IsData
  distinct : Distinct graph (before ++ added)
  reached : ∀ object ∈ added, ∃ content, some content ∈ held ∧ graph.Reaches content object
  stand : List.Forall₂ (Option.Rel (StandsFor (before ++ added))) held
    (elementMarks before.length elements)
  shows_ : Shows graph (before ++ added) added (elementsShown before.length elements)

/-- Entries are laid out one after the other. -/
structure LaidEntries (graph : Graph) (before : List Value) (held : List (String × Value))
    (entries : List (String × Layout)) (added : List Value) : Prop where
  isData : ∀ entry ∈ entries, entry.2.IsData
  distinct : Distinct graph (before ++ added)
  reached : ∀ object ∈ added, ∃ entry ∈ held, graph.Reaches entry.2 object
  stand : List.Forall₂ (fun entry mark => entry.1 = mark.1 ∧
    StandsFor (before ++ added) entry.2 mark.2) held (entryMarks before.length entries)
  shows_ : Shows graph (before ++ added) added (entriesShown before.length entries)

section Lists

variable {before added more : List Value} {value : Value} {layout : Layout}

theorem Laid.count (laid : Laid graph before value layout added) :
    before.length + (layout.shown before.length).length = (before ++ added).length := by
  rw [List.length_append, laid.shows_.length_eq]

theorem LaidElements.nil (distinct : Distinct graph before) :
    LaidElements graph before [] [] [] := by
  rw [← List.append_nil before] at distinct
  refine ⟨nofun, distinct, nofun, ?_, ?_⟩
  · rw [elementMarks]
    exact .nil
  · rw [elementsShown]
    exact .nil

theorem LaidElements.hole {held : List (Option Value)} {elements : List (Option Layout)}
    (laid : LaidElements graph before held elements added) :
    LaidElements graph before (none :: held) (none :: elements) added := by
  refine ⟨?_, laid.distinct, ?_, ?_, ?_⟩
  · intro layout member
    rcases List.mem_cons.1 member with impossible | member
    · cases impossible
    · exact laid.isData layout member
  · intro object member
    obtain ⟨content, isHeld, reached⟩ := laid.reached object member
    exact ⟨content, List.mem_cons_of_mem _ isHeld, reached⟩
  · rw [elementMarks]
    exact .cons .none laid.stand
  · rw [elementsShown]
    exact laid.shows_

theorem LaidElements.cons {held : List (Option Value)} {elements : List (Option Layout)}
    (first : Laid graph before value layout added)
    (rest : LaidElements graph (before ++ added) held elements more) :
    LaidElements graph before (some value :: held) (some layout :: elements) (added ++ more) := by
  obtain ⟨isData, distinct, reached, stand, shows_⟩ := rest
  constructor
  · intro other member
    rcases List.mem_cons.1 member with isFirst | member
    · exact Option.some.inj isFirst ▸ first.isData
    · exact isData other member
  · rwa [← List.append_assoc]
  · intro object member
    rcases List.mem_append.1 member with member | member
    · exact ⟨value, List.mem_cons_self .., first.reached object member⟩
    · obtain ⟨content, isHeld, reachedToo⟩ := reached object member
      exact ⟨content, List.mem_cons_of_mem _ isHeld, reachedToo⟩
  · rw [elementMarks, first.count, ← List.append_assoc]
    exact .cons (.some (first.stands.append more)) stand
  · rw [elementsShown, first.count, ← List.append_assoc]
    exact first.shows_.append shows_

theorem LaidEntries.nil (distinct : Distinct graph before) :
    LaidEntries graph before [] [] [] := by
  rw [← List.append_nil before] at distinct
  refine ⟨nofun, distinct, nofun, ?_, ?_⟩
  · rw [entryMarks]
    exact .nil
  · rw [entriesShown]
    exact .nil

theorem LaidEntries.cons {name : String} {held : List (String × Value)}
    {entries : List (String × Layout)} (first : Laid graph before value layout added)
    (rest : LaidEntries graph (before ++ added) held entries more) :
    LaidEntries graph before ((name, value) :: held) ((name, layout) :: entries)
      (added ++ more) := by
  obtain ⟨isData, distinct, reached, stand, shows_⟩ := rest
  constructor
  · exact List.forall_mem_cons.2 ⟨first.isData, isData⟩
  · rwa [← List.append_assoc]
  · intro object member
    rcases List.mem_append.1 member with member | member
    · exact ⟨(name, value), List.mem_cons_self .., first.reached object member⟩
    · obtain ⟨entry, isHeld, reachedToo⟩ := reached object member
      exact ⟨entry, List.mem_cons_of_mem _ isHeld, reachedToo⟩
  · rw [entryMarks, first.count, ← List.append_assoc]
    exact .cons ⟨rfl, first.stands.append more⟩ stand
  · rw [entriesShown, first.count, ← List.append_assoc]
    exact first.shows_.append shows_

end Lists

/-- Values inside of data are laid out if a level is left for each object that does not come
before. -/
def Lays (graph : Graph) (inside : Value → Prop) (levels : Nat)
    (lay : List Value → Value → Run (Layout × List Value)) : Prop :=
  ∀ before value, Distinct graph before → graph.objects.size < levels + before.length →
    inside value → ∃ layout added, lay before value graph = .ok (layout, before ++ added) graph ∧
      Laid graph before value layout added

section Runs

variable {inside : Value → Prop} {levels : Nat}
  {lay : List Value → Value → Run (Layout × List Value)} (lays : Lays graph inside levels lay)
include lays

theorem Lays.elements {array : Value} {positions : List Nat} {before : List Value}
    (distinct : Distinct graph before) (enough : graph.objects.size < levels + before.length)
    (slots : ∀ position ∈ positions, graph.has array (.ofIndex position) = true →
      graph.content? array (.ofIndex position) ≠ none)
    (held : ∀ position ∈ positions, ∀ content,
      graph.content? array (.ofIndex position) = some content → inside content) :
    ∃ elements added,
      layElements lay array before positions graph = .ok (elements, before ++ added) graph ∧
      LaidElements graph before
        (positions.map fun position => graph.content? array (.ofIndex position)) elements added := by
  induction positions generalizing before with
  | nil =>
      refine ⟨[], [], ?_, .nil distinct⟩
      rw [List.append_nil]
      rfl
  | cons position rest inductionHypothesis =>
      rw [List.forall_mem_cons] at slots held
      rw [List.map_cons]
      cases content : graph.content? array (.ofIndex position) with
      | none =>
          have absent : graph.has array (.ofIndex position) = false :=
            Bool.eq_false_iff.2 fun present => slots.1 present content
          obtain ⟨elements, added, ran, laid⟩ :=
            inductionHypothesis distinct enough slots.2 held.2
          refine ⟨none :: elements, added, ?_, laid.hole⟩
          rw [layElements, bind_get, absent, if_neg (by decide), bind_of_ok ran]
          rfl
      | some value =>
          have present : graph.has array (.ofIndex position) = true := by
            obtain ⟨property, found, _⟩ := Option.bind_eq_some_iff.1 content
            rw [Graph.has, found]
            rfl
          obtain ⟨layout, added, ranFirst, first⟩ :=
            lays before value distinct enough (held.1 value content)
          have enoughLeft : graph.objects.size < levels + (before ++ added).length := by
            rw [List.length_append]
            omega
          obtain ⟨elements, more, ran, laid⟩ :=
            inductionHypothesis first.distinct enoughLeft slots.2 held.2
          refine ⟨some layout :: elements, added ++ more, ?_, .cons first laid⟩
          rw [layElements, bind_get, present, if_pos rfl,
            bind_of_ok (Run.readWith_content perform content), bind_of_ok ranFirst,
            ← List.append_assoc]
          exact bind_of_ok ran

theorem Lays.entries {held : List (String × Value)} {before : List Value}
    (distinct : Distinct graph before) (enough : graph.objects.size < levels + before.length)
    (isInside : ∀ entry ∈ held, inside entry.2) :
    ∃ entries added, layEntries lay before held graph = .ok (entries, before ++ added) graph ∧
      LaidEntries graph before held entries added := by
  induction held generalizing before with
  | nil =>
      refine ⟨[], [], ?_, .nil distinct⟩
      rw [List.append_nil]
      rfl
  | cons entry rest inductionHypothesis =>
      rw [List.forall_mem_cons] at isInside
      obtain ⟨layout, added, ranFirst, first⟩ := lays before entry.2 distinct enough isInside.1
      have enoughLeft : graph.objects.size < levels + (before ++ added).length := by
        rw [List.length_append]
        omega
      obtain ⟨entries, more, ran, laid⟩ :=
        inductionHypothesis first.distinct enoughLeft isInside.2
      refine ⟨(entry.1, layout) :: entries, added ++ more, ?_, .cons first laid⟩
      rw [layEntries, bind_of_ok ranFirst, ← List.append_assoc]
      exact bind_of_ok ran

end Runs

/-! ## Levels -/

section Levels

variable {before added : List Value} {value : Value}

theorem numbered_append_cons : (before ++ value :: added)[before.length]? = some value := by
  rw [List.getElem?_append_right (Nat.le_refl _), Nat.sub_self]
  rfl

theorem LaidElements.list {held : List (Option Value)} {elements : List (Option Layout)}
    (laid : LaidElements graph (before ++ [value]) held elements added)
    (isObject : value.isObject = true) (contents : graph.contents value = .list held) :
    Laid graph before value (.list elements) (value :: added) := by
  obtain ⟨isData, distinct, reached, stand, shows_⟩ := laid
  rw [List.append_assoc, List.singleton_append] at distinct stand shows_
  rw [List.length_append, List.length_singleton] at stand shows_
  refine ⟨.list isData, distinct, ?_, .object numbered_append_cons, ?_⟩
  · rw [List.forall_mem_cons]
    refine ⟨.self, fun object member => ?_⟩
    obtain ⟨content, isHeld, reachedToo⟩ := reached object member
    exact reachedToo.head isObject (contents ▸ .element isHeld)
  · rw [Layout.shown]
    exact .cons (contents ▸ .list stand) shows_

theorem LaidEntries.record {held : List (String × Value)} {entries : List (String × Layout)}
    (laid : LaidEntries graph (before ++ [value]) held entries added)
    (isObject : value.isObject = true) (contents : graph.contents value = .record held) :
    Laid graph before value (.record entries) (value :: added) := by
  obtain ⟨isData, distinct, reached, stand, shows_⟩ := laid
  rw [List.append_assoc, List.singleton_append] at distinct stand shows_
  rw [List.length_append, List.length_singleton] at stand shows_
  refine ⟨.record isData, distinct, ?_, .object numbered_append_cons, ?_⟩
  · rw [List.forall_mem_cons]
    refine ⟨.self, fun object member => ?_⟩
    obtain ⟨entry, isHeld, reachedToo⟩ := reached object member
    exact reachedToo.head isObject (contents ▸ .entry isHeld)
  · rw [Layout.shown]
    exact .cons (contents ▸ .record stand) shows_

theorem laid_of_scalar {text : String} (distinct : Distinct graph before) (scalar : Scalar value)
    (isText : simple? value = some text) : Laid graph before value (.leaf text) [] := by
  rw [← List.append_nil before] at distinct
  refine ⟨.leaf scalar isText, distinct, nofun, .scalar scalar isText, ?_⟩
  rw [Layout.shown]
  exact .nil

theorem laid_of_idxOf? {number : Nat} (distinct : Distinct graph before)
    (visited : before.idxOf? value = some number) :
    Laid graph before value (.visited number) [] := by
  obtain ⟨small, numbered, _⟩ := List.idxOf?_eq_some_iff.1 visited
  rw [← List.append_nil before] at distinct
  refine ⟨.visited number, distinct, nofun, .object ?_, ?_⟩
  · rw [List.append_nil, List.getElem?_eq_some_iff]
    exact ⟨small, numbered⟩
  · rw [Layout.shown]
    exact .nil

end Levels

theorem Scalar.exists_text {value : Value} (scalar : Scalar value) :
    ∃ text, simple? value = some text := by
  cases scalar with
  | boolean value => cases value <;> exact ⟨_, rfl⟩
  | _ => exact ⟨_, rfl⟩

section Steps

variable {levels : Nat} {before later : List Value} {value : Value}

theorem layWithin_visited {number : Nat} (container : graph.IsContainer value)
    (visited : before.idxOf? value = some number) :
    layWithin (levels + 1) before value graph = .ok (.visited number, before) graph := by
  rw [layWithin, container.simple?_eq_none]
  dsimp only
  rw [bind_get, container.isCallable_eq_false, if_neg (by decide), visited]
  rfl

theorem layWithin_list {length : Nat} {elements : List (Option Layout)}
    (container : graph.IsContainer value) (fresh : before.idxOf? value = none)
    (isArray : graph.arrayLength? value = some length)
    (ran : layElements (layWithin levels) value (before ++ [value]) (List.range length) graph =
      .ok (elements, later) graph) :
    layWithin (levels + 1) before value graph = .ok (.list elements, later) graph := by
  rw [layWithin, container.simple?_eq_none]
  dsimp only
  rw [bind_get, container.isCallable_eq_false, if_neg (by decide), fresh]
  dsimp only
  rw [container.notDate, if_neg (by decide), isArray]
  exact bind_of_ok ran

theorem layWithin_record {entries : List (String × Layout)}
    (container : graph.IsContainer value) (fresh : before.idxOf? value = none)
    (isRecord : graph.arrayLength? value = none)
    (ran : layEntries (layWithin levels) (before ++ [value]) ((graph.listedKeys value).map fun key =>
      (key.text, (graph.content? value key).getD .undefined)) graph = .ok (entries, later) graph) :
    layWithin (levels + 1) before value graph = .ok (.record entries, later) graph := by
  rw [layWithin, container.simple?_eq_none]
  dsimp only
  rw [bind_get, container.isCallable_eq_false, if_neg (by decide), fresh]
  dsimp only
  rw [container.notDate, if_neg (by decide), isRecord]
  dsimp only
  rw [container.isPlainRecord_of_arrayLength? isRecord, if_pos rfl,
    bind_of_ok (Run.listedEntries_eq container isRecord)]
  exact bind_of_ok ran

end Steps

/-- Data is laid out if a level is left for each object that does not come before. -/
theorem lays_layWithin {inside : Value → Prop}
    (isData : ∀ held, inside held → Scalar held ∨
      graph.IsContainer held ∧ ∀ content, (graph.contents held).Holds content → inside content)
    (levels : Nat) : Lays graph inside levels (layWithin levels) := by
  induction levels with
  | zero =>
      intro before value distinct enough isInside
      have := distinct.length_le
      omega
  | succ levels inductionHypothesis =>
      intro before value distinct enough isInside
      rcases isData value isInside with scalar | ⟨container, contents⟩
      · obtain ⟨text, isText⟩ := scalar.exists_text
        refine ⟨.leaf text, [], ?_, laid_of_scalar distinct scalar isText⟩
        rw [layWithin, isText, List.append_nil]
        rfl
      · cases visited : before.idxOf? value with
        | some number =>
            refine ⟨.visited number, [], ?_, laid_of_idxOf? distinct visited⟩
            rw [List.append_nil]
            exact layWithin_visited container visited
        | none =>
            have distinctToo := distinct.snoc container.object (List.idxOf?_eq_none_iff.1 visited)
            have enoughLeft : graph.objects.size < levels + (before ++ [value]).length := by
              rw [List.length_append, List.length_singleton]
              omega
            cases isArray : graph.arrayLength? value with
            | some length =>
                have isList := graph.contents_of_arrayLength? isArray
                obtain ⟨elements, added, ran, laid⟩ := inductionHypothesis.elements distinctToo
                  enoughLeft (fun position member =>
                    container.elements length isArray position (List.mem_range.1 member))
                  fun position member content held => contents content (isList ▸
                    .element (List.mem_map.2 ⟨position, member, held⟩))
                rw [← List.append_cons] at ran
                exact ⟨.list elements, value :: added, layWithin_list container visited isArray ran,
                  laid.list container.isObject isList⟩
            | none =>
                have isRecord := graph.contents_of_arrayLength?_eq_none isArray
                obtain ⟨entries, added, ran, laid⟩ := inductionHypothesis.entries distinctToo
                  enoughLeft fun (name, content) member => contents content (isRecord ▸
                    .entry member)
                rw [← List.append_cons] at ran
                exact ⟨.record entries, value :: added,
                  layWithin_record container visited isArray ran, laid.record container.isObject isRecord⟩

end Format

end ObjectPath
