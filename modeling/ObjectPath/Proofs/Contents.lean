import ObjectPath.Proofs.Layouts

/-!
# Data and what its text shows

Data is made of scalars, arrays and plain records, which may be shared and may hold themselves.  The
text of data shows what each of its objects holds: for each object that is written out, in the order
in which the texts of the objects open, the marks of its elements or entries.  A mark is the text of
a scalar or the number of an object.
-/

namespace ObjectPath

/-! ## Contents -/

/-- What an object holds: elements and holes, or entries in reading order. -/
inductive Contents (α : Type)
  | list (elements : List (Option α))
  | record (entries : List (String × α))

namespace Contents

variable {α β γ : Type}

/-- Whether something is an element or is under a key. -/
inductive Holds : Contents α → α → Prop
  | element {elements : List (Option α)} {content : α} : some content ∈ elements →
      Holds (.list elements) content
  | entry {entries : List (String × α)} {name : String} {content : α} :
      (name, content) ∈ entries → Holds (.record entries) content

/-- The same length with the same holes, or the same keys in the same order, and what is held is
related. -/
inductive Rel (relates : α → β → Prop) : Contents α → Contents β → Prop
  | list {elements : List (Option α)} {others : List (Option β)} :
      List.Forall₂ (Option.Rel relates) elements others → Rel relates (.list elements) (.list others)
  | record {entries : List (String × α)} {others : List (String × β)} :
      List.Forall₂ (fun entry other => entry.1 = other.1 ∧ relates entry.2 other.2) entries others →
      Rel relates (.record entries) (.record others)

theorem Rel.imp {relates relatesToo : α → β → Prop} {contents : Contents α} {others : Contents β}
    (implies : ∀ content other, relates content other → relatesToo content other)
    (related : contents.Rel relates others) : contents.Rel relatesToo others := by
  cases related with
  | list elements =>
      refine .list (elements.imp fun element other related => ?_)
      cases related with
      | some related => exact .some (implies _ _ related)
      | none => exact .none
  | record entries =>
      exact .record (entries.imp fun entry other related => ⟨related.1, implies _ _ related.2⟩)

theorem forall₂_join {relates : α → γ → Prop} {relatesOther : β → γ → Prop} {joined : α → β → Prop}
    {items : List α} {others : List β} {marks : List γ}
    (joins : ∀ item other mark, relates item mark → relatesOther other mark → joined item other)
    (related : List.Forall₂ relates items marks)
    (relatedOther : List.Forall₂ relatesOther others marks) : List.Forall₂ joined items others := by
  induction related generalizing others with
  | nil =>
      cases relatedOther
      exact .nil
  | cons head _ inductionHypothesis =>
      cases relatedOther with
      | cons headOther tailOther =>
          exact .cons (joins _ _ _ head headOther) (inductionHypothesis tailOther)

/-- What is related to the same contents is related. -/
theorem Rel.join {relates : α → γ → Prop} {relatesOther : β → γ → Prop} {joined : α → β → Prop}
    {contents : Contents α} {others : Contents β} {shape : Contents γ}
    (joins : ∀ content other mark, relates content mark → relatesOther other mark →
      joined content other)
    (related : contents.Rel relates shape) (relatedOther : others.Rel relatesOther shape) :
    contents.Rel joined others := by
  cases related with
  | list elements =>
      cases relatedOther with
      | list elementsOther =>
          refine .list (forall₂_join (fun element other mark related relatedOther => ?_) elements
            elementsOther)
          cases related with
          | some related =>
              cases relatedOther with
              | some relatedOther => exact .some (joins _ _ _ related relatedOther)
          | none =>
              cases relatedOther
              exact .none
  | record entries =>
      cases relatedOther with
      | record entriesOther =>
          exact .record (forall₂_join (fun entry other mark related relatedOther =>
            ⟨related.1.trans relatedOther.1.symm, joins _ _ _ related.2 relatedOther.2⟩) entries
              entriesOther)

theorem exists_of_forall₂ {relates : α → β → Prop} {items : List α} {others : List β} {item : α}
    (related : List.Forall₂ relates items others) (member : item ∈ items) :
    ∃ other ∈ others, relates item other := by
  induction related with
  | nil => cases member
  | cons head _ inductionHypothesis =>
      rcases List.mem_cons.1 member with rfl | member
      · exact ⟨_, List.mem_cons_self .., head⟩
      · obtain ⟨other, memberOther, related⟩ := inductionHypothesis member
        exact ⟨other, List.mem_cons_of_mem _ memberOther, related⟩

theorem Rel.exists_of_holds {relates : α → β → Prop} {contents : Contents α} {others : Contents β}
    {content : α} (related : contents.Rel relates others) (holds : contents.Holds content) :
    ∃ other, relates content other := by
  cases related with
  | list elements =>
      cases holds with
      | element member =>
          obtain ⟨_, _, related⟩ := exists_of_forall₂ elements member
          cases related with
          | some related => exact ⟨_, related⟩
  | record entries =>
      cases holds with
      | entry member =>
          obtain ⟨other, _, _, related⟩ := exists_of_forall₂ entries member
          exact ⟨other.2, related⟩

end Contents

namespace Graph

variable (graph : Graph)

/-- The value of a slot; accessors have none. -/
def content? (value : Value) (key : Key) : Option Value :=
  (graph.find? value key).bind Property.content?

/-- What an array holds under its element numbers or a record under the keys that listings show. -/
def contents (value : Value) : Contents Value :=
  match graph.arrayLength? value with
  | some length => .list ((List.range length).map fun position =>
      graph.content? value (.ofIndex position))
  | none => .record ((graph.listedKeys value).map fun key =>
      (key.text, (graph.content? value key).getD .undefined))

theorem contents_of_arrayLength? {value : Value} {length : Nat}
    (isArray : graph.arrayLength? value = some length) :
    graph.contents value = .list ((List.range length).map fun position =>
      graph.content? value (.ofIndex position)) := by
  rw [contents, isArray]

theorem contents_of_arrayLength?_eq_none {value : Value}
    (isRecord : graph.arrayLength? value = none) :
    graph.contents value = .record ((graph.listedKeys value).map fun key =>
      (key.text, (graph.content? value key).getD .undefined)) := by
  rw [contents, isRecord]

/-- An array or a plain record that shows no accessor, and that is no date. -/
structure IsContainer (value : Value) : Prop where
  object : ∃ place < graph.objects.size, value = .object place
  kind : graph.isArray value = true ∨ graph.isPlainRecord value = true
  notDate : graph.isDate value = false
  elements : ∀ length, graph.arrayLength? value = some length → ∀ position < length,
    graph.has value (.ofIndex position) = true → graph.content? value (.ofIndex position) ≠ none
  entries : graph.arrayLength? value = none → ∀ key ∈ graph.listedKeys value,
    graph.content? value key ≠ none

theorem isCallable_of_arrayLength? {graph : Graph} {value : Value} {length : Nat}
    (isArray : graph.arrayLength? value = some length) : graph.isCallable value = false := by
  unfold arrayLength? at isArray
  rw [isCallable, callee?]
  split
  · rename_i isFunction
    rw [isFunction] at isArray
    cases isArray
  · rfl

theorem IsContainer.isCallable_eq_false {graph : Graph} {value : Value}
    (container : graph.IsContainer value) : graph.isCallable value = false := by
  rcases container.kind with isArray | isRecord
  · obtain ⟨length, isArray⟩ := Option.isSome_iff_exists.1 isArray
    exact isCallable_of_arrayLength? isArray
  · obtain ⟨place, _, rfl⟩ := container.object
    rw [isPlainRecord, Bool.and_eq_true, decide_eq_true_eq, Graph.kind] at isRecord
    cases callable : graph.isCallable (.object place) with
    | false => rfl
    | true =>
        rw [callable] at isRecord
        cases isRecord.1

theorem IsContainer.isObject {graph : Graph} {value : Value}
    (container : graph.IsContainer value) : value.isObject = true := by
  obtain ⟨place, _, rfl⟩ := container.object
  rfl

theorem IsContainer.simple?_eq_none {graph : Graph} {value : Value}
    (container : graph.IsContainer value) : Format.simple? value = none := by
  obtain ⟨place, _, rfl⟩ := container.object
  rfl

theorem IsContainer.isPlainRecord_of_arrayLength? {graph : Graph} {value : Value}
    (container : graph.IsContainer value) (isRecord : graph.arrayLength? value = none) :
    graph.isPlainRecord value = true := by
  rcases container.kind with isArray | isPlain
  · rw [Graph.isArray, isRecord] at isArray
    cases isArray
  · exact isPlain

/-- What a value is made of: the value, and what is held by objects that it is made of. -/
inductive Reaches (value : Value) : Value → Prop
  | self : Reaches value value
  | content {held content : Value} : Reaches value held → held.isObject = true →
      (graph.contents held).Holds content → Reaches value content

theorem Reaches.head {graph : Graph} {value content held : Value} (isObject : value.isObject = true)
    (holds : (graph.contents value).Holds content) (reached : graph.Reaches content held) :
    graph.Reaches value held := by
  induction reached with
  | self => exact .content .self isObject holds
  | content _ isObjectToo holdsToo inductionHypothesis =>
      exact .content inductionHypothesis isObjectToo holdsToo

/-- A value is data if it is a scalar, or an array or a plain record whose contents are data again.
The values that it is made of may be in cycles. -/
def IsData (value : Value) : Prop :=
  ∃ inside : Value → Prop, inside value ∧ ∀ held, inside held → Format.Scalar held ∨
    graph.IsContainer held ∧ ∀ content, (graph.contents held).Holds content → inside content

end Graph

namespace Format

/-! ## Marks -/

/-- What stands for a value in a text: the text of a scalar or the number of an object. -/
inductive Mark
  | scalar (text : String)
  | object (number : Nat)

/-- Whether a mark stands for a value, where `objects` are the objects by their numbers. -/
inductive StandsFor (objects : List Value) : Value → Mark → Prop
  | scalar {value : Value} {text : String} : Scalar value → simple? value = some text →
      StandsFor objects value (.scalar text)
  | object {value : Value} {number : Nat} : objects[number]? = some value →
      StandsFor objects value (.object number)

theorem StandsFor.append {objects : List Value} {value : Value} {mark : Mark}
    (stands : StandsFor objects value mark) (more : List Value) :
    StandsFor (objects ++ more) value mark := by
  cases stands with
  | scalar isScalar isText => exact .scalar isScalar isText
  | object numbered =>
      exact .object (by rw [List.getElem?_append_left (List.getElem?_eq_some_iff.1 numbered).1, numbered])

/-! ## What a layout shows -/

/-- What stands for the value of a layout that comes after a number of objects. -/
def Layout.mark (count : Nat) : Layout → Mark
  | .leaf text => .scalar text
  | .visited number => .object number
  | .list _ => .object count
  | .record _ => .object count

mutual

/-- What a layout shows of the objects that it writes out, in the order in which their texts open,
if it comes after a number of objects. -/
def Layout.shown (count : Nat) : Layout → List (Contents Mark)
  | .leaf _ => []
  | .visited _ => []
  | .list elements =>
      .list (elementMarks (count + 1) elements) :: elementsShown (count + 1) elements
  | .record entries =>
      .record (entryMarks (count + 1) entries) :: entriesShown (count + 1) entries

/-- What the layouts of elements show. -/
def elementsShown (count : Nat) : List (Option Layout) → List (Contents Mark)
  | [] => []
  | none :: rest => elementsShown count rest
  | some element :: rest =>
      element.shown count ++ elementsShown (count + (element.shown count).length) rest

/-- The marks of elements, and the holes between them. -/
def elementMarks (count : Nat) : List (Option Layout) → List (Option Mark)
  | [] => []
  | none :: rest => none :: elementMarks count rest
  | some element :: rest =>
      some (element.mark count) :: elementMarks (count + (element.shown count).length) rest

/-- What the layouts of entries show. -/
def entriesShown (count : Nat) : List (String × Layout) → List (Contents Mark)
  | [] => []
  | (_, content) :: rest =>
      content.shown count ++ entriesShown (count + (content.shown count).length) rest

/-- The keys of entries with their marks. -/
def entryMarks (count : Nat) : List (String × Layout) → List (String × Mark)
  | [] => []
  | (name, content) :: rest =>
      (name, content.mark count) :: entryMarks (count + (content.shown count).length) rest

end

end Format

end ObjectPath
