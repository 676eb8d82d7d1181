import ObjectPath.Proofs.Typings

/-!
# Typed graphs that change

A store of a value that suits its slot keeps a set of values typed: any other lookup that gives
the value is one for the same field of an heir of the same class.  New objects can be added to
the set, as long as they refer to old arrays nowhere.  What is not in the set stays untouched.
-/

namespace ObjectPath

open Graph

/-! ## Keys -/

theorem Key.text_ofText (text : String) : (Key.ofText text).text = text := by
  unfold Key.ofText
  dsimp only
  split
  · rename_i isNumber
    simp only [Bool.and_eq_true, beq_iff_eq] at isNumber
    exact isNumber.2
  · rfl

theorem Key.ofText_injective {first second : String}
    (same : Key.ofText first = Key.ofText second) : first = second := by
  rw [← Key.text_ofText first, same, Key.text_ofText]

theorem Graph.reads_of_names {graph : Graph} {steps : List Step} {value : Value} {step : Step}
    (names : graph.Names steps value step) : graph.Reads steps value step.key :=
  Or.inr ⟨step, names, rfl⟩

/-! ## Types of slots -/

namespace Typing

variable {typing : Typing} {before after graph : Graph} {steps : List Step}

theorem stepType_known (sound : graph.Sound) (items : ∀ place, graph.Knows (typing.items place))
    (value : Value) (step : Step) : graph.Knows (typing.stepType graph value step) := by
  cases step with
  | field name => exact sound.fieldType_known value name
  | element index =>
      cases value with
      | object place => exact items place
      | _ => exact knows_of_isCallable sound.openType

theorem stepType_later (same : before.SameTypes after) (closed : before.Closed) {value : Value}
    (known : before.Knows value) (step : Step) :
    typing.stepType after value step = typing.stepType before value step := by
  cases step with
  | field name => exact same.fieldType closed known name
  | element index => rfl

theorem Suits.later {type value : Value} (suits : typing.Suits before type value)
    (same : before.SameTypes after) (closed : before.Closed) (knownType : before.Knows type)
    (known : before.Knows value) : typing.Suits after type value := by
  rcases suits with missing | ⟨takes, items⟩
  · exact .of_isMissing missing
  · refine Or.inr ⟨(same.takes closed knownType known).trans takes, ?_⟩
    intro place isPlace isArray
    rw [same.componentType closed knownType]
    exact items place isPlace ((same.isArray known).symm.trans isArray)

/-- The elements of an array are asked for the component of the type that the array suits. -/
theorem Suits.stepType_element {type value : Value} (suits : typing.Suits graph type value)
    (present : value.isMissing = false) (isArray : graph.isArray value = true) (index : Nat) :
    typing.stepType graph value (.element index) = graph.componentType type := by
  rcases suits with missing | ⟨_, items⟩
  · rw [present] at missing
    cases missing
  · cases value with
    | object place => exact items place rfl isArray
    | _ => cases isArray

/-- Two steps to one slot of a value ask for the same type. -/
theorem stepType_of_key (lettered : graph.Lettered steps) {value : Value} {first second : Step}
    (names : graph.Names steps value first) (names' : graph.Names steps value second)
    (same : first.key = second.key) :
    typing.stepType graph value first = typing.stepType graph value second := by
  -- A field of an array is none of its elements.
  have apart : ∀ {name index}, graph.Names steps value (.field name) →
      graph.isArray value = true → Key.ofText name ≠ .ofIndex index := by
    rintro name index (listed | declared) isArray
    · exact lettered.names listed index
    · have isClass : graph.classOf value = .object BuiltinClass.array.place := by
        dsimp only [Graph.classOf]
        rw [if_pos isArray]
      rw [declaration?, isClass] at declared
      obtain ⟨declaration, found⟩ := Option.isSome_iff_exists.1 declared
      exact lettered.arrays found index
  cases first with
  | field name =>
      cases second with
      | field other => rw [Key.ofText_injective same]
      | element index => exact absurd same (apart names names')
  | element index =>
      cases second with
      | field other => exact absurd same.symm (apart names' names)
      | element other => rfl

end Typing

/-! ## Stores -/

namespace Graph

theorem mem_asked {graph : Graph} {value : Value} {key : Key} {place : Nat}
    (isAsked : place ∈ graph.asked value key) :
    value = .object place ∨ place ∈ graph.ancestors value := by
  rcases List.mem_append.1 isAsked with self | above
  · left
    cases value with
    | object other =>
        rw [Value.place?, Option.toList_some, List.mem_singleton] at self
        rw [self]
    | _ => cases self
  · right
    split at above
    · cases above
    · exact Closed.mem_upTo above

variable {graph : Graph} {steps : List Step} {around : Value → Prop} {typing : Typing}
  {place : Nat} {step : Step} {stored : Value}

/-- No type of arrays is asked at a place for its component, if that is the key. -/
def SparesComponents (graph : Graph) (place : Nat) (key : Key) : Prop :=
  key = .name "componentType" → ∀ type, graph.isArrayType type = true → place ∉ graph.asked type key

/-- Where nothing is found, no type of arrays is asked. -/
theorem Sound.sparesComponents_of_lacks (sound : graph.Sound) {key : Key}
    (lacks : key = .name "componentType" → graph.Lacks (.object place) key) :
    graph.SparesComponents place key := by
  rintro rfl type isArrayType
  have isType := (sound.component isArrayType).isMissing
  unfold member at isType
  cases found : graph.find? type (.name "componentType") with
  | none =>
      rw [found] at isType
      cases isType
  | some property =>
      refine sound.toClosed.not_asked_of_lacks (lacks rfl) found ?_
      cases property with
      | data content flags => rwa [found] at isType
      | accessor => rfl

/-- A store under another key than those of types, or where no type of arrays is asked for its
component, changes no types. -/
theorem sameTypes_store {key : Key} (accepted : graph.placement (.object place) key = .slot)
    (known : graph.Knows stored) (noClass : key ∉ classKeys)
    (spares : graph.SparesComponents place key) :
    graph.SameTypes (graph.store (.object place) key stored) where
  toSteady := steady_store accepted known noClass fun impossible =>
    absurd impossible List.not_mem_nil
  component := by
    intro type isArrayType
    unfold member
    by_cases same : key = .name "componentType"
    · subst same
      rw [find?_store_of_not_asked graph _ stored (spares rfl type isArrayType)]
    · rw [find?_store_of_ne graph place stored type (Ne.symm same) (by decide)]

/-- After a store, a slot of a set of values holds what it held before, or the value that was
stored where that type is asked for. -/
theorem Typed.member_store (typed : graph.Typed steps around typing)
    (lettered : graph.Lettered steps)
    (accepted : graph.placement (.object place) step.key = .slot)
    (holder : typing.inside (.object place))
    (namesHolder : graph.Names steps (.object place) step) {value : Value} {other : Step}
    (isInside : typing.inside value) (names : graph.Names steps value other) :
    Value.Like (graph.member value other.key)
        ((graph.store (.object place) step.key stored).member value other.key) ∨
      (graph.store (.object place) step.key stored).member value other.key = stored ∧
        typing.stepType graph value other = typing.stepType graph (.object place) step := by
  by_cases disturbed : other.key = step.key ∧ place ∈ graph.asked value step.key
  · obtain ⟨sameKey, isAsked⟩ := disturbed
    obtain ⟨flags, found⟩ := find?_store_of_asked stored accepted isAsked
    refine Or.inr ⟨by rw [sameKey]; exact member_of_find? found, ?_⟩
    rcases mem_asked isAsked with rfl | above
    · exact Typing.stepType_of_key lettered names namesHolder sameKey
    · obtain ⟨noArray, noArrayHolder, sameClass⟩ := typed.heirs isInside holder above
      cases other with
      | element index =>
          rw [Names, noArray] at names
          cases names
      | field name =>
          cases step with
          | element index =>
              rw [Names, noArrayHolder] at namesHolder
              cases namesHolder
          | field otherName =>
              cases Key.ofText_injective sameKey
              simp only [Typing.stepType, fieldType, declaration?, sameClass]
  · exact Or.inl (member_like_of_rel (find?_store_like graph stored fun sameKey isAsked =>
      disturbed ⟨sameKey, sameKey ▸ isAsked⟩))

/-- A store of a value that suits its slot keeps a set of values typed. -/
theorem Typed.store (sound : graph.Sound) (typed : graph.Typed steps (fun _ => False) typing)
    (lettered : graph.Lettered steps)
    (accepted : graph.placement (.object place) step.key = .slot)
    (holder : typing.inside (.object place))
    (namesHolder : graph.Names steps (.object place) step) (isInside : typing.inside stored)
    (suits : typing.Suits graph (typing.stepType graph (.object place) step) stored)
    (same : graph.SameTypes (graph.store (.object place) step.key stored)) :
    (graph.store (.object place) step.key stored).Typed steps (fun _ => False) typing := by
  have closed := sound.toClosed
  refine ⟨fun isInside => same.knows (typed.known isInside), typed.like, ?_, ?_, ?_, ?_,
    fun place => same.knows (typed.items place)⟩
  · intro value key isInside present reads
    obtain ⟨content, looked, isInsideContent | ⟨⟨⟩, _⟩⟩ := typed.looked isInside present
      ((same.reads closed (typed.known isInside)).1 reads)
    obtain ⟨later, lookedLater, like | rfl⟩ := look?_store stored accepted looked
    · exact ⟨later, lookedLater, Or.inl (typed.like isInsideContent like)⟩
    · exact ⟨_, lookedLater, Or.inl ‹_›⟩
  · intro value other isInsideValue present names
    have known := typed.known isInsideValue
    have namesBefore := (same.names closed known).1 names
    rw [Typing.stepType_later same closed known]
    have knownType := typing.stepType_known sound typed.items value other
    rcases typed.member_store lettered accepted holder namesHolder isInsideValue namesBefore with
      like | ⟨isStored, sameType⟩
    · exact ((typed.suits isInsideValue present namesBefore).later same closed knownType
        (closed.member_known _ _)).of_like like
    · rw [isStored, sameType]
      exact suits.later same closed (typing.stepType_known sound typed.items _ _)
        (typed.known isInside)
  · intro value other isInsideValue isInsideOther above
    have known := typed.known isInsideValue
    have knownOther := typed.known isInsideOther
    rw [same.ancestors closed known] at above
    rw [same.isArray known, same.isArray knownOther, same.classOf closed known,
      same.classOf closed knownOther]
    exact typed.heirs isInsideValue isInsideOther above
  · intro value other isInsideValue isArray above index
    have known := typed.known isInsideValue
    rw [same.isArray known] at isArray
    rw [same.ancestors closed known] at above
    rw [ownAt?_store_of_ne_place]
    · exact typed.elements isInsideValue isArray above index
    · rintro rfl
      rw [(typed.heirs isInsideValue holder above).1] at isArray
      cases isArray

end Graph

/-! ## New objects -/

namespace Typing

/-- A set of values together with others, whose objects are at places from a size on. -/
def join (typing : Typing) (size : Nat) (fresh : Typing) : Typing where
  inside := fun value => typing.inside value ∨ fresh.inside value
  items := fun place => if place < size then typing.items place else fresh.items place

theorem Suits.of_items {typing later : Typing} {graph : Graph} {type value : Value}
    (suits : typing.Suits graph type value)
    (items : ∀ place, value = .object place → graph.isArray value = true →
      later.items place = typing.items place) : later.Suits graph type value := by
  rcases suits with missing | ⟨takes, old⟩
  · exact .of_isMissing missing
  · refine Or.inr ⟨takes, fun place isPlace isArray => ?_⟩
    rw [items place isPlace isArray]
    exact old place isPlace isArray

theorem stepType_of_items {typing later : Typing} {graph : Graph} {value : Value}
    (items : ∀ place, value = .object place → later.items place = typing.items place)
    (step : Step) : later.stepType graph value step = typing.stepType graph value step := by
  cases step with
  | field name => rfl
  | element index =>
      cases value with
      | object place => exact items place rfl
      | _ => rfl

end Typing

namespace Graph

variable {before after : Graph} {steps : List Step} {around : Value → Prop}
  {typing fresh : Typing}

/-- Whatever is looked up on old values is as it was. -/
theorem Extends.sameTypes (extends_ : before.Extends after) (sound : before.Sound) :
    before.SameTypes after :=
  have grows : before.Grows [] after := extends_.grows sound.toClosed
  grows.sameTypes sound

/-- A typed set of values can be joined by new objects that are typed, refer to no old arrays
and inherit from no old objects of the set. -/
theorem Typed.join (sound : before.Sound) (typed : before.Typed steps (fun _ => False) typing)
    (extends_ : before.Extends after) (newTyped : after.Typed steps around fresh)
    (surround : ∀ value, around value → typing.inside value)
    (new : ∀ place, fresh.inside (.object place) → before.objects.size ≤ place)
    (outer : ∀ value place, fresh.inside value → place ∈ after.ancestors value →
      place < before.objects.size → ¬ typing.inside (.object place)) :
    after.Typed steps (fun _ => False) (typing.join before.objects.size fresh) := by
  have closed := sound.toClosed
  have same := extends_.sameTypes sound
  -- Arrays are told apart by their places: the old ones keep their items, the new ones have theirs.
  have itemsOld : ∀ value place, before.Knows value → value = .object place →
      (typing.join before.objects.size fresh).items place = typing.items place :=
    fun _ place known isPlace => if_pos (known place isPlace)
  have itemsNew : ∀ place, before.objects.size ≤ place →
      (typing.join before.objects.size fresh).items place = fresh.items place :=
    fun _ le => if_neg (Nat.not_lt.2 le)
  refine ⟨?_, ?_, ?_, ?_, ?_, ?_, ?_⟩
  · rintro value (old | isFresh)
    · exact same.knows (typed.known old)
    · exact newTyped.known isFresh
  · rintro value other (old | isFresh) like
    · exact Or.inl (typed.like old like)
    · exact Or.inr (newTyped.like isFresh like)
  · rintro value key (old | isFresh) present reads
    · have known := typed.known old
      obtain ⟨content, looked, isInside | ⟨⟨⟩, _⟩⟩ :=
        typed.looked old present ((same.reads closed known).1 reads)
      exact ⟨content, (extends_.look? closed known key).trans looked, Or.inl (Or.inl isInside)⟩
    · obtain ⟨content, looked, isInside | ⟨isAround, _⟩⟩ := newTyped.looked isFresh present reads
      · exact ⟨content, looked, Or.inl (Or.inr isInside)⟩
      · exact ⟨content, looked, Or.inl (Or.inl (surround content isAround))⟩
  · rintro value step (old | isFresh) present names
    · have known := typed.known old
      have knownContent := closed.member_known value step.key
      rw [Typing.stepType_of_items fun place => itemsOld value place known,
        Typing.stepType_later same closed known, extends_.member closed known]
      have suits := typed.suits old present ((same.names closed known).1 names)
      exact (suits.later same closed (typing.stepType_known sound typed.items _ _)
        knownContent).of_items fun place isPlace _ => itemsOld _ place knownContent isPlace
    · have sameType : (typing.join before.objects.size fresh).stepType after value step =
          fresh.stepType after value step :=
        Typing.stepType_of_items (fun place isPlace =>
          itemsNew place (new place (isPlace ▸ isFresh))) step
      rw [sameType]
      refine (newTyped.suits isFresh present names).of_items fun place isPlace isArray => ?_
      obtain ⟨content, looked, isInside⟩ := newTyped.looked isFresh present (reads_of_names names)
      rw [member_of_look? looked] at isPlace isArray
      rcases isInside with isInside | ⟨_, noArray⟩
      · exact itemsNew place (new place (isPlace ▸ isInside))
      · rw [isArray] at noArray
        cases noArray
  · rintro value place (old | isFresh) insidePlace above
    · have known := typed.known old
      rw [same.ancestors closed known] at above
      have inside := closed.ancestors_lt value place above
      rcases insidePlace with oldPlace | freshPlace
      · have knownPlace := typed.known oldPlace
        rw [same.isArray known, same.isArray knownPlace, same.classOf closed known,
          same.classOf closed knownPlace]
        exact typed.heirs old oldPlace above
      · exact absurd (new place freshPlace) (Nat.not_le.2 inside)
    · rcases insidePlace with oldPlace | freshPlace
      · exact absurd oldPlace
          (outer value place isFresh above (knows_object.1 (typed.known oldPlace)))
      · exact newTyped.heirs isFresh freshPlace above
  · rintro value place (old | isFresh) isArray above index
    · have known := typed.known old
      rw [same.isArray known] at isArray
      rw [same.ancestors closed known] at above
      rw [extends_.ownAt? (closed.ancestors_lt value place above)]
      exact typed.elements old isArray above index
    · exact newTyped.elements isFresh isArray above index
  · intro place
    change after.Knows (if _ then _ else _)
    split
    · exact same.knows (typed.items place)
    · exact newTyped.items place

/-- New objects that nothing refers to leave a set of values typed. -/
theorem Typed.extends (sound : before.Sound) (typed : before.Typed steps (fun _ => False) typing)
    (extends_ : before.Extends after) : after.Typed steps (fun _ => False) typing := by
  have closed := sound.toClosed
  have same := extends_.sameTypes sound
  have nobody : after.Typed steps (fun _ => False) ⟨fun _ => False, typing.items⟩ :=
    ⟨False.elim, False.elim, False.elim, False.elim, False.elim, False.elim,
      fun place => same.knows (typed.items place)⟩
  have joined := typed.join sound extends_ nobody (fun _ => False.elim) (fun _ => False.elim)
    fun _ _ => False.elim
  have same : typing.join before.objects.size ⟨fun _ => False, typing.items⟩ = typing := by
    simp only [Typing.join, or_false, ite_self]
  rwa [same] at joined

end Graph

/-! ## What goes on -/

/-- A later graph with the same types, in which what is not among some values is as it was. -/
structure Graph.Undisturbed (before : Graph) (inside : Value → Prop) (after : Graph) : Prop where
  same : before.SameTypes after
  untouched : ∀ {place : Nat}, place < before.objects.size → ¬ inside (.object place) →
    after.object? place = before.object? place

theorem Graph.Undisturbed.refl (graph : Graph) (inside : Value → Prop) :
    graph.Undisturbed inside graph where
  same := .refl graph
  untouched := fun _ _ => rfl

/-- What becomes of a graph and of a set of values in it while values are filled in: old objects
stay in the set or out of it, and those out of it stay as they are. -/
structure Typing.Continues (before : Graph) (typing : Typing) (after : Graph) (later : Typing) :
    Prop extends before.Undisturbed typing.inside after where
  inside : ∀ {value : Value}, typing.inside value → later.inside value
  items : ∀ {place : Nat}, place < before.objects.size → later.items place = typing.items place
  old : ∀ {place : Nat}, later.inside (.object place) → place < before.objects.size →
    typing.inside (.object place)

namespace Typing.Continues

theorem refl (graph : Graph) (typing : Typing) : Continues graph typing graph typing where
  same := .refl graph
  inside := id
  items := fun _ => rfl
  old := fun isInside _ => isInside
  untouched := fun _ _ => rfl

theorem trans {first second third : Graph} {typing later final : Typing} (sound : first.Sound)
    (left : Continues first typing second later) (right : Continues second later third final) :
    Continues first typing third final where
  same := left.same.trans sound.toClosed right.same
  inside := right.inside ∘ left.inside
  items := fun inside =>
    (right.items (Nat.lt_of_lt_of_le inside left.same.size)).trans (left.items inside)
  old := fun isInside inside =>
    left.old (right.old isInside (Nat.lt_of_lt_of_le inside left.same.size)) inside
  untouched := fun inside outside =>
    (right.untouched (Nat.lt_of_lt_of_le inside left.same.size) fun isInside =>
      outside (left.old isInside inside)).trans (left.untouched inside outside)

theorem of_extends {before after : Graph} (sound : before.Sound) (extends_ : before.Extends after)
    (typing : Typing) : Continues before typing after typing where
  same := extends_.sameTypes sound
  inside := id
  items := fun _ => rfl
  old := fun isInside _ => isInside
  untouched := fun inside _ => extends_.objects inside

theorem join {before after : Graph} (sound : before.Sound) (extends_ : before.Extends after)
    (typing : Typing) {fresh : Typing}
    (new : ∀ place, fresh.inside (.object place) → before.objects.size ≤ place) :
    Continues before typing after (typing.join before.objects.size fresh) where
  same := extends_.sameTypes sound
  inside := Or.inl
  items := fun inside => if_pos inside
  old := fun isInside inside =>
    isInside.resolve_right fun isFresh => Nat.not_le.2 inside (new _ isFresh)
  untouched := fun inside _ => extends_.objects inside

theorem store {graph : Graph} {typing : Typing} {place : Nat} {key : Key} {stored : Value}
    (accepted : graph.placement (.object place) key = .slot)
    (holder : typing.inside (.object place))
    (same : graph.SameTypes (graph.store (.object place) key stored)) :
    Continues graph typing (graph.store (.object place) key stored) typing where
  same := same
  inside := id
  items := fun _ => rfl
  old := fun isInside _ => isInside
  untouched := by
    intro other _ outside
    rw [object?_store, if_neg]
    rintro rfl
    exact outside holder

/-- What suits a type goes on suiting it. -/
theorem suits {before after : Graph} {typing later : Typing} {type value : Value}
    (continues : typing.Continues before after later) (closed : before.Closed)
    (suits : typing.Suits before type value) (knownType : before.Knows type)
    (known : before.Knows value) : later.Suits after type value :=
  (suits.later continues.same closed knownType known).of_items fun place isPlace _ =>
    continues.items (known place isPlace)

end Typing.Continues

end ObjectPath
