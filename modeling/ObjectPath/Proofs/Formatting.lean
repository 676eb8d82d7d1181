import ObjectPath.Graph.Standard
import ObjectPath.Proofs.Laying

/-!
# The text of data

The text of data can always be had, and numbers the objects that the data is made of.  Data with the
same text has the same layout, and so the same marks stand for what objects of the same number hold.
-/

namespace ObjectPath

variable {graph : Graph}

namespace Format

/-! ## Numbers of objects -/

/-- How the text of a value numbers its objects: they are the objects that the value is made of,
each of them once, in the order in which `layout` writes them out.  What stands in the text for the
value itself and for the contents of each object are texts of scalars and numbers of objects. -/
structure Numbers (graph : Graph) (value : Value) (layout : Layout) (objects : List Value) :
    Prop where
  run : layWithin (levels graph) [] value graph = .ok (layout, objects) graph
  isData : layout.IsData
  nodup : objects.Nodup
  mem_iff : ∀ held, held ∈ objects ↔ graph.Reaches value held ∧ held.isObject = true
  stands : StandsFor objects value (layout.mark 0)
  shows_ : Shows graph objects objects (layout.shown 0)

theorem StandsFor.scalar_or_mem {objects : List Value} {value : Value} {mark : Mark}
    (stands : StandsFor objects value mark) : Scalar value ∨ value ∈ objects := by
  cases stands with
  | scalar isScalar => exact .inl isScalar
  | object numbered => exact .inr (List.mem_of_getElem? numbered)

theorem Scalar.isObject_eq_false {value : Value} (scalar : Scalar value) :
    value.isObject = false := by
  cases scalar <;> rfl

theorem Laid.mem_of_reaches {value : Value} {layout : Layout} {objects : List Value}
    (laid : Laid graph [] value layout objects) {held : Value} (reached : graph.Reaches value held) :
    Scalar held ∨ held ∈ objects := by
  induction reached with
  | self => exact laid.stands.scalar_or_mem
  | content _ isObject holds inductionHypothesis =>
      rcases inductionHypothesis with scalar | member
      · rw [scalar.isObject_eq_false] at isObject
        cases isObject
      · obtain ⟨_, _, related⟩ := Contents.exists_of_forall₂ laid.shows_ member
        obtain ⟨_, stands⟩ := related.exists_of_holds holds
        exact stands.scalar_or_mem

theorem Laid.numbers {value : Value} {layout : Layout} {objects : List Value}
    (laid : Laid graph [] value layout objects)
    (run : layWithin (levels graph) [] value graph = .ok (layout, objects) graph) :
    Numbers graph value layout objects := by
  refine ⟨run, laid.isData, laid.distinct.nodup, fun held => ⟨fun member => ?_, ?_⟩, laid.stands,
    laid.shows_⟩
  · obtain ⟨place, _, isObject⟩ := laid.distinct.held held member
    exact ⟨laid.reached held member, isObject ▸ rfl⟩
  · rintro ⟨reached, isObject⟩
    rcases laid.mem_of_reaches reached with scalar | member
    · rw [scalar.isObject_eq_false] at isObject
      cases isObject
    · exact member

theorem exists_numbers {value : Value} (data : graph.IsData value) :
    ∃ layout objects, Numbers graph value layout objects := by
  obtain ⟨inside, isInside, isData⟩ := data
  obtain ⟨layout, objects, run, laid⟩ := lays_layWithin isData (levels graph) [] value
    ⟨List.nodup_nil, nofun⟩ (by rw [levels, depthLimit]; omega) isInside
  exact ⟨layout, objects, laid.numbers run⟩

theorem Numbers.value_eq {value : Value} {layout : Layout} {objects : List Value}
    (numbers : Numbers graph value layout objects) :
    Format.value value graph = .ok layout.text graph := by
  rw [Format.value, bind_get, bind_of_ok numbers.run]
  rfl

/-! ## Data up to identity -/

/-- Values are the same scalar, or objects with the same number. -/
inductive Alike (objects others : List Value) : Value → Value → Prop
  | scalar {value : Value} : Scalar value → Alike objects others value value
  | object {number : Nat} {held heldOther : Value} : objects[number]? = some held →
      others[number]? = some heldOther → Alike objects others held heldOther

/-- Values in two graphs are the same up to the identity of their objects: numbers are a one-to-one
relation between the objects, and related objects hold the same, with the same holes and the same
keys in the same order. -/
structure SameData (graph other : Graph) (objects others : List Value) (value valueOther : Value) :
    Prop where
  length_eq : objects.length = others.length
  values : Alike objects others value valueOther
  contents : ∀ (number : Nat) (held heldOther : Value), objects[number]? = some held →
    others[number]? = some heldOther →
    (graph.contents held).Rel (Alike objects others) (other.contents heldOther)
  right_unique : ∀ held first second, Alike objects others held first →
    Alike objects others held second → first = second
  left_unique : ∀ first second heldOther, Alike objects others first heldOther →
    Alike objects others second heldOther → first = second

theorem alike_of_standsFor {objects others : List Value} {held heldOther : Value} {mark : Mark}
    (stands : StandsFor objects held mark) (standsOther : StandsFor others heldOther mark) :
    Alike objects others held heldOther := by
  cases stands with
  | scalar isScalar isText =>
      cases standsOther with
      | scalar isScalarOther isTextOther =>
          obtain rfl := isScalar.eq_of_text isScalarOther isText isTextOther
          exact .scalar isScalar
  | object numbered =>
      cases standsOther with
      | object numberedOther => exact .object numbered numberedOther

theorem Alike.symm {objects others : List Value} {held heldOther : Value}
    (alike : Alike objects others held heldOther) : Alike others objects heldOther held := by
  cases alike with
  | scalar isScalar => exact .scalar isScalar
  | object numbered numberedOther => exact .object numberedOther numbered

/-- An object has one number, so it is alike to one object only. -/
theorem Alike.unique {objects others : List Value} (nodup : objects.Nodup)
    (areObjects : ∀ held ∈ objects, held.isObject = true) {held first second : Value}
    (alike : Alike objects others held first) (alikeToo : Alike objects others held second) :
    first = second := by
  have apart : ∀ {number : Nat}, Scalar held → objects[number]? ≠ some held := by
    intro number isScalar numbered
    have isObject := areObjects held (List.mem_of_getElem? numbered)
    rw [isScalar.isObject_eq_false] at isObject
    cases isObject
  cases alike with
  | scalar isScalar =>
      cases alikeToo with
      | scalar => rfl
      | object numbered => exact absurd numbered (apart isScalar)
  | object numbered isFirst =>
      cases alikeToo with
      | scalar isScalar => exact absurd numbered (apart isScalar)
      | object numberedToo isSecond =>
          obtain rfl := (List.getElem?_inj (List.getElem?_eq_some_iff.1 numbered).1 nodup).1
            (numbered.trans numberedToo.symm)
          exact Option.some.inj (isFirst.symm.trans isSecond)

theorem sameData_of_numbers {other : Graph} {value valueOther : Value} {layout : Layout}
    {objects others : List Value} (numbers : Numbers graph value layout objects)
    (numbersOther : Numbers other valueOther layout others) :
    SameData graph other objects others value valueOther := by
  have areObjects : ∀ held ∈ objects, held.isObject = true :=
    fun held member => ((numbers.mem_iff held).1 member).2
  have areObjectsOther : ∀ held ∈ others, held.isObject = true :=
    fun held member => ((numbersOther.mem_iff held).1 member).2
  have joins : ∀ held heldOther mark, StandsFor objects held mark →
      StandsFor others heldOther mark → Alike objects others held heldOther :=
    fun _ _ _ => alike_of_standsFor
  have contents : List.Forall₂ (fun held heldOther =>
      (graph.contents held).Rel (Alike objects others) (other.contents heldOther)) objects others :=
    Contents.forall₂_join (fun _ _ _ related relatedOther => related.join joins relatedOther)
      numbers.shows_ numbersOther.shows_
  constructor
  · exact contents.length_eq
  · exact alike_of_standsFor numbers.stands numbersOther.stands
  · intro number held heldOther numbered numberedOther
    obtain ⟨small, rfl⟩ := List.getElem?_eq_some_iff.1 numbered
    obtain ⟨smallOther, rfl⟩ := List.getElem?_eq_some_iff.1 numberedOther
    exact contents.get small smallOther
  · exact fun held first second alike alikeToo => alike.unique numbers.nodup areObjects alikeToo
  · exact fun first second heldOther alike alikeToo =>
      alike.symm.unique numbersOther.nodup areObjectsOther alikeToo.symm

/-- Data in two graphs that have the same text are the same up to the identity of their objects, and
the text can always be had: it writes each object out once. -/
theorem text_tells_data {other : Graph} {value valueOther : Value} (data : graph.IsData value)
    (dataOther : other.IsData valueOther) :
    (∃ layout objects, Numbers graph value layout objects ∧
      Format.value value graph = .ok layout.text graph) ∧
    ∀ text later laterOther, Format.value value graph = .ok text later →
      Format.value valueOther other = .ok text laterOther →
      ∃ layout objects others, Numbers graph value layout objects ∧
        Numbers other valueOther layout others ∧
        SameData graph other objects others value valueOther := by
  obtain ⟨layout, objects, numbers⟩ := exists_numbers data
  refine ⟨⟨layout, objects, numbers, numbers.value_eq⟩, ?_⟩
  intro text later laterOther ran ranOther
  obtain ⟨layoutOther, others, numbersOther⟩ := exists_numbers dataOther
  rw [numbers.value_eq] at ran
  rw [numbersOther.value_eq] at ranOther
  have sameText : layout.text = layoutOther.text := by
    injection ran with isText
    injection ranOther with isTextOther
    exact isText.trans isTextOther.symm
  obtain rfl := numbers.isData.eq_of_text numbersOther.isData sameText
  exact ⟨layout, objects, others, numbers, numbersOther, sameData_of_numbers numbers numbersOther⟩

/-! ## A knot -/

/-- A record that holds itself and, under two keys, an array. -/
def knotRecord (record array : Nat) : Object where
  parent := some BuiltinClass.object.sharedPlace
  body := .plain
  slots := Run.dataSlots
    [(.name "self", .object record), (.name "list", .object array), (.name "b-c", .object array)]
  extensible := true

/-- An array that holds a record after a hole and a zero. -/
def knotArray (record : Nat) : Object where
  parent := some BuiltinClass.array.sharedPlace
  body := .items 3 true
  slots := Run.elementSlots [none, some (.number .negativeZero), some (.object record)]
  extensible := true

/-- The place of the first object after the standard ones. -/
def knotPlace : Nat :=
  Graph.standard.objects.size

/-- The standard graph with a knot, the record standing before the array. -/
@[irreducible]
def knotGraph : Graph :=
  stateAfter (do
    let _ ← Run.allocate (knotRecord knotPlace (knotPlace + 1))
    Run.allocate (knotArray knotPlace)) Graph.standard

/-- The standard graph with a knot, the array standing before the record. -/
@[irreducible]
def mirroredGraph : Graph :=
  stateAfter (do
    let _ ← Run.allocate (knotArray (knotPlace + 1))
    Run.allocate (knotRecord (knotPlace + 1) knotPlace)) Graph.standard

/-- A record and an array are tied to a knot. -/
structure IsKnot (graph : Graph) (record array : Nat) : Prop where
  places : record < graph.objects.size ∧ array < graph.objects.size
  lengths : graph.arrayLength? (.object record) = none ∧ graph.arrayLength? (.object array) = some 3
  isPlain : graph.isPlainRecord (.object record) = true
  noDates : graph.isDate (.object record) = false ∧ graph.isDate (.object array) = false
  keys : graph.listedKeys (.object record) = [.name "self", .name "list", .name "b-c"]
  entries : [Key.name "self", .name "list", .name "b-c"].map (graph.content? (.object record)) =
    [some (.object record), some (.object array), some (.object array)]
  slots : ∀ position < 3, graph.has (.object array) (.ofIndex position) = true →
    graph.content? (.object array) (.ofIndex position) ≠ none
  elements : (List.range 3).map (fun position => graph.content? (.object array) (.ofIndex position)) =
    [none, some (.number .negativeZero), some (.object record)]

theorem IsKnot.contents_record {record array : Nat} (knot : IsKnot graph record array) :
    graph.contents (.object record) = .record
      [("self", .object record), ("list", .object array), ("b-c", .object array)] := by
  have entries := knot.entries
  simp only [List.map_cons, List.map_nil, List.cons.injEq, and_true] at entries
  obtain ⟨self, list, other⟩ := entries
  rw [graph.contents_of_arrayLength?_eq_none knot.lengths.1, knot.keys]
  simp only [List.map_cons, List.map_nil, self, list, other]
  rfl

theorem IsKnot.contents_array {record array : Nat} (knot : IsKnot graph record array) :
    graph.contents (.object array) = .list
      [none, some (.number .negativeZero), some (.object record)] := by
  rw [graph.contents_of_arrayLength? knot.lengths.2, knot.elements]

theorem IsKnot.isContainer_record {record array : Nat} (knot : IsKnot graph record array) :
    graph.IsContainer (.object record) where
  object := ⟨record, knot.places.1, rfl⟩
  kind := .inr knot.isPlain
  notDate := knot.noDates.1
  elements := by
    intro length isLength
    rw [knot.lengths.1] at isLength
    cases isLength
  entries := by
    intro _ key listed
    rw [knot.keys] at listed
    have found := List.mem_map_of_mem listed (f := graph.content? (.object record))
    rw [knot.entries] at found
    intro isNone
    simp [isNone] at found

theorem IsKnot.isContainer_array {record array : Nat} (knot : IsKnot graph record array) :
    graph.IsContainer (.object array) where
  object := ⟨array, knot.places.2, rfl⟩
  kind := .inl (by rw [Graph.isArray, knot.lengths.2]; rfl)
  notDate := knot.noDates.2
  elements := by
    intro length isLength
    rw [knot.lengths.2] at isLength
    cases isLength
    exact knot.slots
  entries := by
    intro isNone
    rw [knot.lengths.2] at isNone
    cases isNone

theorem IsKnot.isData {record array : Nat} (knot : IsKnot graph record array) :
    graph.IsData (.object record) := by
  refine ⟨(· ∈ [.object record, .object array, .number .negativeZero]), List.mem_cons_self .., ?_⟩
  simp only [List.mem_cons, List.not_mem_nil, or_false, forall_eq_or_imp, forall_eq]
  refine ⟨.inr ⟨knot.isContainer_record, ?_⟩, .inr ⟨knot.isContainer_array, ?_⟩, .inl .negativeZero⟩
  · rw [knot.contents_record]
    intro content holds
    cases holds with
    | entry member =>
        simp only [List.mem_cons, Prod.mk.injEq, List.not_mem_nil, or_false] at member
        rcases member with ⟨_, rfl⟩ | ⟨_, rfl⟩ | ⟨_, rfl⟩ <;> simp
  · rw [knot.contents_array]
    intro content holds
    cases holds with
    | element member =>
        simp only [List.mem_cons, reduceCtorEq, Option.some.injEq, List.not_mem_nil, or_false,
          false_or] at member
        rcases member with rfl | rfl <;> simp

theorem isKnot_knotGraph : IsKnot knotGraph knotPlace (knotPlace + 1) := by
  constructor <;> decide +kernel

theorem isKnot_mirroredGraph : IsKnot mirroredGraph (knotPlace + 1) knotPlace := by
  constructor <;> decide +kernel

/-- A knot and its mirror image have the same text, and so they are the same. -/
theorem knots_have_one_text :
    (∃ layout objects, Numbers knotGraph (.object knotPlace) layout objects ∧
      Format.value (.object knotPlace) knotGraph = .ok layout.text knotGraph ∧
      layout.text = "\x7bself: $0, list: [<hole>, -0, $0], \"b-c\": $1\x7d") ∧
    ∃ layout objects others, Numbers knotGraph (.object knotPlace) layout objects ∧
      Numbers mirroredGraph (.object (knotPlace + 1)) layout others ∧
      SameData knotGraph mirroredGraph objects others (.object knotPlace)
        (.object (knotPlace + 1)) := by
  obtain ⟨⟨layout, objects, numbers, ran⟩, same⟩ :=
    text_tells_data isKnot_knotGraph.isData isKnot_mirroredGraph.isData
  have text : Format.value (.object knotPlace) knotGraph =
      .ok "\x7bself: $0, list: [<hole>, -0, $0], \"b-c\": $1\x7d" _ :=
    ok_of_run' (by decide +kernel)
  have textOther : Format.value (.object (knotPlace + 1)) mirroredGraph =
      .ok "\x7bself: $0, list: [<hole>, -0, $0], \"b-c\": $1\x7d" _ :=
    ok_of_run' (by decide +kernel)
  refine ⟨⟨layout, objects, numbers, ran, ?_⟩, same _ _ _ text textOther⟩
  rw [ran] at text
  injection text

end Format

end ObjectPath
