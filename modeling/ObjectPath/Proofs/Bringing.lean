import ObjectPath.Proofs.Storing

/-!
# Values that are brought in

A write may put a value into a set of values that was not in it, with everything that this value
refers to.  What is brought in conforms by itself and keeps doing so while the set changes: its
arrays are not in the set, and where an object of it inherits from one in the set, both are
declared alike.  So a set with types for its arrays and what is brought into it conform together.
-/

namespace ObjectPath

open Graph

variable {graph before after : Graph} {steps : List Step} {typing later : Typing}
  {values : Value → Prop} {value : Value}

/-! ## Lookups through a set -/

namespace Graph

/-- Either no place of a list is touched up to the first one that has a member, or a touched one
is come to also when touched places have changed. -/
theorem upTo_or {has hasLater : Nat → Bool} {touched : Nat → Prop} {places : List Nat}
    (same : ∀ place ∈ places, ¬ touched place → hasLater place = has place) :
    (∀ place ∈ upTo has places, ¬ touched place) ∨
      ∃ place ∈ upTo hasLater places, touched place := by
  induction places with
  | nil => exact Or.inl fun _ impossible => absurd impossible List.not_mem_nil
  | cons place rest inductionHypothesis =>
      unfold upTo
      by_cases isTouched : touched place
      · refine Or.inr ⟨place, ?_, isTouched⟩
        split <;> exact List.mem_cons_self ..
      · rw [same place (List.mem_cons_self ..) isTouched]
        split
        · refine Or.inl fun other member => ?_
          rwa [List.mem_singleton.1 member]
        · rcases inductionHypothesis fun other member =>
              same other (List.mem_cons_of_mem place member) with none_ | ⟨other, member, has_⟩
          · refine Or.inl fun other member => ?_
            rcases List.mem_cons.1 member with rfl | later
            · exact isTouched
            · exact none_ other later
          · exact Or.inr ⟨other, List.mem_cons_of_mem place member, has_⟩

end Graph

/-- While a set of values changes, lookups on any value go on finding the same, unless they come
to an object of the set: then they find what that object finds. -/
theorem Typing.Continues.find?_or (continues : typing.Continues before after later)
    (closed : before.Closed) (closedAfter : after.Closed) (known : before.Knows value) (key : Key) :
    after.find? value key = before.find? value key ∨
      ∃ place, typing.inside (.object place) ∧
        (value = .object place ∨ place ∈ before.ancestors value) ∧
        after.find? value key = after.find? (.object place) key := by
  have ancestors := continues.same.ancestors closed known
  have own : ∀ place, place < before.objects.size → ¬ typing.inside (.object place) →
      after.ownAt? place key = before.ownAt? place key := by
    intro place inside outside
    rw [ownAt?, ownAt?, continues.untouched inside outside]
  have above : (∀ place ∈ upTo (fun place => (before.ownAt? place key).isSome)
        (before.ancestors value), ¬ typing.inside (.object place)) ∨
      ∃ place ∈ upTo (fun place => (after.ownAt? place key).isSome) (before.ancestors value),
        typing.inside (.object place) :=
    upTo_or fun place member outside => by
      rw [own place (closed.ancestors_lt value place member) outside]
  have comes : (∀ place ∈ before.asked value key, ¬ typing.inside (.object place)) ∨
      ∃ place ∈ after.asked value key, typing.inside (.object place) := by
    by_cases self : ∃ place ∈ value.place?, typing.inside (.object place)
    · obtain ⟨place, isPlace, isInside⟩ := self
      exact Or.inr ⟨place, List.mem_append_left _ (Option.mem_toList.2 isPlace), isInside⟩
    · have outside : ∀ place ∈ value.place?.toList, ¬ typing.inside (.object place) :=
        fun place member isInside => self ⟨place, Option.mem_toList.1 member, isInside⟩
      have sameOwn : after.own? value key = before.own? value key := by
        cases value with
        | object place =>
            exact own place (known place rfl) (outside place (List.mem_singleton_self place))
        | _ => rfl
      unfold asked
      rw [ancestors, sameOwn]
      split
      · rw [List.append_nil]
        exact Or.inl outside
      · rcases above with none_ | ⟨place, member, isInside⟩
        · exact Or.inl fun place member =>
            (List.mem_append.1 member).elim (outside place) (none_ place)
        · exact Or.inr ⟨place, List.mem_append_right _ member, isInside⟩
  rcases comes with none_ | ⟨place, isAsked, isInside⟩
  · exact Or.inl (find?_eq_of_asked ancestors fun place isAsked =>
      own place (closed.asked_lt known isAsked) (none_ place isAsked))
  · refine Or.inr ⟨place, isInside, ?_, closedAfter.find?_of_asked isAsked⟩
    rcases mem_asked isAsked with self | member
    · exact Or.inl self
    · rw [ancestors] at member
      exact Or.inr member

/-! ## Conformity of what is brought in -/

namespace Graph

/-- Values that conform as long as the elements of their arrays stay what they are go on doing
so. -/
theorem Conforms.carry (same : before.SameTypes after) (sound : before.Sound)
    (known : ∀ {value : Value}, values value → before.Knows value)
    (elements : ∀ {value : Value}, values value → before.isArray value = true → ∀ index,
      after.member value (.ofIndex index) = before.member value (.ofIndex index) ∧
        values (before.member value (.ofIndex index)))
    {type : Value} (knownType : before.Knows type) (isValue : values value)
    (conforms : before.Conforms type value) : after.Conforms type value := by
  intro depth
  induction depth generalizing type value with
  | zero => trivial
  | succ depth inductionHypothesis =>
      have closed := sound.toClosed
      have knownValue := known isValue
      rcases conforms 1 with missing | ⟨takes, _⟩
      · exact Or.inl missing
      · refine Or.inr ⟨(same.takes closed knownType knownValue).trans takes,
          fun isArray index => ?_⟩
        rw [same.isArray knownValue] at isArray
        obtain ⟨sameElement, isElement⟩ := elements isValue isArray index
        rw [sameElement, same.componentType closed knownType]
        exact inductionHypothesis (sound.componentType_known type) isElement
          (conforms.component isArray index)

/-- Values that are brought into a set, with everything that they refer to. -/
structure Brought (graph : Graph) (steps : List Step) (inside values : Value → Prop) : Prop where
  conforming : graph.Conforming steps (fun _ => False) values
  apart : ∀ {value : Value}, values value → graph.isArray value = true → ¬ inside value
  heirs : ∀ {value : Value} {place : Nat}, values value → inside (.object place) →
    place ∈ graph.ancestors value → graph.isArray value = false ∧
      graph.isArray (.object place) = false ∧ graph.classOf (.object place) = graph.classOf value

/-- What is found on a value that was brought in is what was found before, or what an object of
the set finds that is declared alike. -/
theorem Brought.find?_or (brought : before.Brought steps typing.inside values)
    (continues : typing.Continues before after later) (closed : before.Closed)
    (closedAfter : after.Closed) (isValue : values value) (key : Key) :
    after.find? value key = before.find? value key ∨
      ∃ place, typing.inside (.object place) ∧ before.Knows (.object place) ∧
        before.isArray value = false ∧
        before.classOf (.object place) = before.classOf value ∧
        after.find? value key = after.find? (.object place) key := by
  have known := brought.conforming.known isValue
  rcases continues.find?_or closed closedAfter known key with
    same | ⟨place, isInside, rfl | above, found⟩
  · exact Or.inl same
  · have noArray : before.isArray (.object place) = false :=
      Bool.eq_false_iff.2 fun isArray => brought.apart isValue isArray isInside
    exact Or.inr ⟨place, isInside, known, noArray, rfl, found⟩
  · obtain ⟨noArray, _, sameClass⟩ := brought.heirs isValue isInside above
    exact Or.inr ⟨place, isInside, knows_object.2 (closed.ancestors_lt value place above), noArray,
      sameClass, found⟩

/-- Arrays that are brought in keep their elements. -/
theorem Brought.element (brought : before.Brought steps typing.inside values)
    (continues : typing.Continues before after later) (closed : before.Closed)
    (closedAfter : after.Closed) (isValue : values value) (isArray : before.isArray value = true)
    (index : Nat) :
    after.member value (.ofIndex index) = before.member value (.ofIndex index) ∧
      values (before.member value (.ofIndex index)) := by
  constructor
  · rcases brought.find?_or continues closed closedAfter isValue (.ofIndex index) with
      same | ⟨_, _, _, noArray, _⟩
    · rw [member, same, member]
    · rw [isArray] at noArray
      cases noArray
  · have names : before.Names steps value (.element index) := isArray
    obtain ⟨content, looked, isContent | ⟨⟨⟩, _⟩⟩ :=
      brought.conforming.looked isValue (isMissing_of_isArray isArray) (reads_of_names names)
    rwa [← member_of_look? looked] at isContent

/-- What is brought in goes on conforming to whatever it conforms to. -/
theorem Brought.conforms (brought : before.Brought steps typing.inside values)
    (continues : typing.Continues before after later) (sound : before.Sound)
    (closedAfter : after.Closed) {type : Value} (knownType : before.Knows type)
    (isValue : values value) (conforms : before.Conforms type value) : after.Conforms type value :=
  Conforms.carry continues.same sound brought.conforming.known
    (brought.element continues sound.toClosed closedAfter) knownType isValue conforms

/-! ## Sets that refer to what is brought in -/

/-- A set of values in which every slot holds what it is declared to hold: a value of the set, as
the types of the elements of its arrays have it, or one of some other values that conforms by
itself. -/
structure Settled (graph : Graph) (steps : List Step) (values : Value → Prop) (typing : Typing) :
    Prop where
  known : ∀ {value : Value}, typing.inside value → graph.Knows value
  like : ∀ {value other : Value}, typing.inside value → Value.Like value other →
    typing.inside other
  looked : ∀ {value : Value} {key : Key}, typing.inside value → value.isMissing = false →
    graph.Reads steps value key → ∃ content, graph.look? value key = some content ∧
      (typing.inside content ∨ values content)
  suits : ∀ {value : Value} {step : Step}, typing.inside value → value.isMissing = false →
    graph.Names steps value step →
      typing.inside (graph.member value step.key) ∧
          typing.Suits graph (typing.stepType graph value step) (graph.member value step.key) ∨
        graph.Conforms (typing.stepType graph value step) (graph.member value step.key)

/-- What a slot of a typed set holds is in the set. -/
theorem Typed.member_inside (typed : graph.Typed steps (fun _ => False) typing)
    (isInside : typing.inside value) (present : value.isMissing = false) {step : Step}
    (names : graph.Names steps value step) : typing.inside (graph.member value step.key) := by
  obtain ⟨content, looked, isContent | ⟨⟨⟩, _⟩⟩ :=
    typed.looked isInside present (reads_of_names names)
  rwa [member_of_look? looked]

/-- A typed set refers to nothing but itself. -/
theorem Typed.settled (typed : graph.Typed steps (fun _ => False) typing) :
    graph.Settled steps values typing where
  known := typed.known
  like := typed.like
  looked := by
    intro value key isInside present reads
    obtain ⟨content, looked, isContent | ⟨⟨⟩, _⟩⟩ := typed.looked isInside present reads
    exact ⟨content, looked, Or.inl isContent⟩
  suits := fun isInside present names =>
    Or.inl ⟨typed.member_inside isInside present names, typed.suits isInside present names⟩

/-- A typed set into a slot of which a value is stored that conforms there refers to that value
besides. -/
theorem Typed.settled_store (sound : graph.Sound)
    (typed : graph.Typed steps (fun _ => False) typing) (lettered : graph.Lettered steps)
    {place : Nat} {step : Step} {stored : Value}
    (accepted : graph.placement (.object place) step.key = .slot)
    (holder : typing.inside (.object place))
    (namesHolder : graph.Names steps (.object place) step) (isValue : values stored)
    (same : graph.SameTypes (graph.store (.object place) step.key stored))
    (conforms : (graph.store (.object place) step.key stored).Conforms
      (typing.stepType graph (.object place) step) stored) :
    (graph.store (.object place) step.key stored).Settled steps values typing where
  known := fun isInside => same.knows (typed.known isInside)
  like := typed.like
  looked := by
    intro value key isInside present reads
    obtain ⟨content, looked, isContent | ⟨⟨⟩, _⟩⟩ := typed.looked isInside present
      ((same.reads sound.toClosed (typed.known isInside)).1 reads)
    obtain ⟨onward, lookedOnward, like | rfl⟩ := look?_store stored accepted looked
    · exact ⟨onward, lookedOnward, Or.inl (typed.like isContent like)⟩
    · exact ⟨_, lookedOnward, Or.inr isValue⟩
  suits := by
    intro value other isInside present names
    have closed := sound.toClosed
    have known := typed.known isInside
    have namesBefore := (same.names closed known).1 names
    rw [Typing.stepType_later same closed known]
    rcases typed.member_store lettered accepted holder namesHolder isInside namesBefore with
      like | ⟨isStored, sameType⟩
    · exact Or.inl ⟨typed.like (typed.member_inside isInside present namesBefore) like,
        ((typed.suits isInside present namesBefore).later same closed
          (typing.stepType_known sound typed.items value other) (closed.member_known _ _)).of_like
          like⟩
    · rw [isStored, sameType]
      exact Or.inr conforms

/-- What suits a type conforms to it. -/
theorem Settled.conforms (settled : graph.Settled steps values typing) {type : Value}
    (isInside : typing.inside value) (suits : typing.Suits graph type value) :
    graph.Conforms type value := by
  intro depth
  induction depth generalizing type value with
  | zero => trivial
  | succ depth inductionHypothesis =>
      rcases suits with missing | ⟨takes, items⟩
      · exact Or.inl missing
      · refine Or.inr ⟨takes, fun isArray index => ?_⟩
        have present := isMissing_of_isArray isArray
        have names : graph.Names steps value (.element index) := isArray
        rw [← Typing.Suits.stepType_element (Or.inr ⟨takes, items⟩) present isArray index]
        rcases settled.suits isInside present names with ⟨isInsideElement, suits⟩ | conforms
        · exact inductionHypothesis isInsideElement suits
        · exact conforms depth

/-- Every slot of the set holds what conforms. -/
theorem Settled.member_conforms (settled : graph.Settled steps values typing) {step : Step}
    (isInside : typing.inside value) (present : value.isMissing = false)
    (names : graph.Names steps value step) :
    graph.Conforms (typing.stepType graph value step) (graph.member value step.key) := by
  rcases settled.suits isInside present names with ⟨isInsideContent, suits⟩ | conforms
  · exact settled.conforms isInsideContent suits
  · exact conforms

/-- Objects of one class that are no arrays are declared alike. -/
theorem reads_of_alike {other : Value} (noArray : graph.isArray value = false)
    (sameClass : graph.classOf other = graph.classOf value) {key : Key}
    (reads : graph.Reads steps value key) : graph.Reads steps other key := by
  rcases reads with listed | ⟨step, names, rfl⟩
  · exact Or.inl listed
  · cases step with
    | field name =>
        rw [Names, declaration?, ← sameClass] at names
        exact Or.inr ⟨.field name, names, rfl⟩
    | element index =>
        rw [Names, noArray] at names
        cases names

/-- A set that only refers to itself and to what was brought in conforms together with that. -/
theorem Settled.conforming (settled : after.Settled steps values later)
    (brought : before.Brought steps typing.inside values)
    (continues : typing.Continues before after later) (sound : before.Sound)
    (closedAfter : after.Closed) :
    after.Conforming steps (fun _ => False) fun value => later.inside value ∨ values value := by
  have closed := sound.toClosed
  have same := continues.same
  have conforming := brought.conforming
  -- What is found on a value that was brought in was there before, or is found in the set.
  have finds : ∀ {value key}, values value → value.isMissing = false →
      before.Reads steps value key →
      (∃ content, before.look? value key = some content ∧ after.look? value key = some content ∧
        values content) ∨
      ∃ place, later.inside (.object place) ∧ before.Knows (.object place) ∧
        before.classOf (.object place) = before.classOf value ∧
        after.Reads steps (.object place) key ∧
        after.find? value key = after.find? (.object place) key := by
    intro value key isValue present reads
    rcases brought.find?_or continues closed closedAfter isValue key with
      found | ⟨place, isInside, known, noArray, sameClass, found⟩
    · obtain ⟨content, looked, isContent | ⟨⟨⟩, _⟩⟩ := conforming.looked isValue present reads
      exact Or.inl ⟨content, looked, by rw [look?, found]; exact looked, isContent⟩
    · exact Or.inr ⟨place, continues.inside isInside, known, sameClass,
        (same.reads closed known).2 (reads_of_alike noArray sameClass reads), found⟩
  refine ⟨?_, ?_, ?_, ?_⟩
  · rintro value (isInside | isValue)
    · exact settled.known isInside
    · exact same.knows (conforming.known isValue)
  · rintro value other (isInside | isValue) like
    · exact Or.inl (settled.like isInside like)
    · exact Or.inr (conforming.like isValue like)
  · rintro value key (isInside | isValue) present reads
    · obtain ⟨content, looked, belongs⟩ := settled.looked isInside present reads
      exact ⟨content, looked, Or.inl belongs⟩
    · rcases finds isValue present ((same.reads closed (conforming.known isValue)).1 reads) with
        ⟨content, _, looked, isContent⟩ | ⟨place, isInside, _, _, readsPlace, found⟩
      · exact ⟨content, looked, Or.inl (Or.inr isContent)⟩
      · obtain ⟨content, looked, belongs⟩ := settled.looked isInside rfl readsPlace
        exact ⟨content, by rw [look?, found]; exact looked, Or.inl belongs⟩
  · rintro value name declaration (isInside | isValue) present declared
    · have names : after.Names steps value (.field name) := Or.inr (by rw [declared]; rfl)
      rw [← fieldType_of_declaration? declared]
      exact settled.member_conforms isInside present names
    · have known := conforming.known isValue
      rw [same.declaration? closed known] at declared
      have names : before.Names steps value (.field name) := Or.inr (by rw [declared]; rfl)
      rcases finds isValue present (reads_of_names names) with
        ⟨content, lookedBefore, looked, isContent⟩ | ⟨place, isInside, knownPlace, sameClass, _, found⟩
      · have conforms := conforming.fields isValue present declared
        have sameBefore : before.member value (.ofText name) = content := member_of_look? lookedBefore
        have sameAfter : after.member value (.ofText name) = content := member_of_look? looked
        rw [sameBefore] at conforms
        rw [sameAfter]
        exact brought.conforms continues sound closedAfter
          (by rw [← fieldType_of_declaration? declared]; exact sound.fieldType_known _ _)
          isContent conforms
      · have declaredPlace : after.declaration? (.object place) name = some declaration := by
          rw [same.declaration? closed knownPlace, declaration?, sameClass]
          exact declared
        have namesPlace : after.Names steps (.object place) (.field name) :=
          Or.inr (by rw [declaredPlace]; rfl)
        have conforms := settled.member_conforms isInside rfl namesPlace
        rw [← fieldType_of_declaration? declaredPlace]
        have sameMember : after.member value (Step.field name).key =
            after.member (.object place) (Step.field name).key := by
          rw [member, found, member]
        exact sameMember ▸ conforms

/-- New objects leave what conforms as it is. -/
theorem Conforming.extends {inside : Value → Prop} (sound : before.Sound)
    (conforming : before.Conforming steps (fun _ => False) inside)
    (extends_ : before.Extends after) : after.Conforming steps (fun _ => False) inside := by
  have closed := sound.toClosed
  have same := extends_.sameTypes sound
  have holds : ∀ {value : Value} {key : Key}, inside value → value.isMissing = false →
      before.Reads steps value key → ∃ content, before.look? value key = some content ∧
        after.look? value key = some content ∧ inside content := by
    intro value key isInside present reads
    obtain ⟨content, looked, isContent | ⟨⟨⟩, _⟩⟩ := conforming.looked isInside present reads
    exact ⟨content, looked,
      (extends_.look? closed (conforming.known isInside) key).trans looked, isContent⟩
  refine ⟨fun isInside => same.knows (conforming.known isInside), conforming.like, ?_, ?_⟩
  · intro value key isInside present reads
    obtain ⟨content, _, looked, isContent⟩ :=
      holds isInside present ((same.reads closed (conforming.known isInside)).1 reads)
    exact ⟨content, looked, Or.inl isContent⟩
  · intro value name declaration isInside present declared
    have known := conforming.known isInside
    rw [same.declaration? closed known] at declared
    have names : before.Names steps value (.field name) := Or.inr (by rw [declared]; rfl)
    obtain ⟨content, looked, _, isContent⟩ := holds isInside present (reads_of_names names)
    have isMember : before.member value (.ofText name) = content := member_of_look? looked
    have conforms := conforming.fields isInside present declared
    have knownType := sound.fieldType_known value name
    rw [fieldType_of_declaration? declared] at knownType
    rw [extends_.member closed known]
    rw [isMember] at conforms ⊢
    refine Conforms.carry same sound conforming.known ?_ knownType isContent conforms
    intro array isArrayInside isArray index
    have named : before.Names steps array (.element index) := isArray
    obtain ⟨element, lookedElement, _, isElement⟩ :=
      holds isArrayInside (isMissing_of_isArray isArray) (reads_of_names named)
    have isMember : before.member array (.ofIndex index) = element := member_of_look? lookedElement
    exact ⟨extends_.member closed (conforming.known isArrayInside) _, isMember ▸ isElement⟩

end Graph

end ObjectPath
