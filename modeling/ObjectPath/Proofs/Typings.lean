import ObjectPath.Proofs.Conforming

/-!
# Arrays with the types of their elements

A declared type says of an array what its elements are to be, and so down through the arrays in
it.  If no array is held by two slots, each one can be given the type of its elements once and
for all.  Whether a value suits its slot is then found out by looking at the value alone, so a
store has to be checked at one place only, and arrays within arrays need no induction.
-/

namespace ObjectPath

open Graph

/-- A set of values, and the types of the elements of the arrays at places. -/
structure Typing where
  inside : Value → Prop
  items : Nat → Value

namespace Typing

/-- The type of what a value is to hold at a step. -/
def stepType (typing : Typing) (graph : Graph) (value : Value) : Step → Value
  | .field name => graph.fieldType value name
  | .element _ =>
      match value with
      | .object place => typing.items place
      | _ => openType

/-- Whether a value can be held where a type is asked for: it is missing, or of that type with
the elements that the type asks for. -/
def Suits (typing : Typing) (graph : Graph) (type value : Value) : Prop :=
  value.isMissing = true ∨ graph.takes type value = true ∧
    ∀ place, value = .object place → graph.isArray value = true →
      typing.items place = graph.componentType type

theorem Suits.of_isMissing {typing : Typing} {graph : Graph} {type value : Value}
    (missing : value.isMissing = true) : typing.Suits graph type value :=
  Or.inl missing

/-- A value without elements suits a type that it conforms to. -/
theorem Suits.of_conforms {typing : Typing} {graph : Graph} {type value : Value}
    (conforms : graph.Conforms type value) (noArray : graph.isArray value = false) :
    typing.Suits graph type value := by
  cases present : value.isMissing with
  | true => exact Or.inl present
  | false =>
      refine Or.inr ⟨conforms.takes present, fun _ _ isArray => ?_⟩
      rw [noArray] at isArray
      cases isArray

theorem Suits.of_like {typing : Typing} {graph : Graph} {type value other : Value}
    (suits : typing.Suits graph type value) (like : Value.Like value other) :
    typing.Suits graph type other := by
  rcases like with rfl | ⟨old, new, rfl, rfl⟩
  · exact suits
  · rcases suits with missing | ⟨takes, _⟩
    · cases missing
    · refine Or.inr ⟨(takes_of_like (Or.inr ⟨old, new, rfl, rfl⟩)).trans takes, ?_⟩
      rintro place ⟨⟩

end Typing

namespace Graph

/-- A set of values in which every slot holds what it is declared to hold, as the types of the
elements of its arrays have it. -/
structure Typed (graph : Graph) (steps : List Step) (around : Value → Prop) (typing : Typing) :
    Prop where
  known : ∀ {value : Value}, typing.inside value → graph.Knows value
  like : ∀ {value other : Value}, typing.inside value → Value.Like value other →
    typing.inside other
  looked : ∀ {value : Value} {key : Key}, typing.inside value → value.isMissing = false →
    graph.Reads steps value key → ∃ content, graph.look? value key = some content ∧
      (typing.inside content ∨ around content ∧ graph.isArray content = false)
  suits : ∀ {value : Value} {step : Step}, typing.inside value → value.isMissing = false →
    graph.Names steps value step →
      typing.Suits graph (typing.stepType graph value step) (graph.member value step.key)
  heirs : ∀ {value : Value} {place : Nat}, typing.inside value → typing.inside (.object place) →
    place ∈ graph.ancestors value → graph.isArray value = false ∧
      graph.isArray (.object place) = false ∧ graph.classOf (.object place) = graph.classOf value
  elements : ∀ {value : Value} {place : Nat}, typing.inside value →
    graph.isArray value = true → place ∈ graph.ancestors value →
      ∀ index, graph.ownAt? place (.ofIndex index) = none
  items : ∀ place, graph.Knows (typing.items place)

/-! ## Types that slots give to what they hold -/

variable {graph : Graph} {steps : List Step} {around inside : Value → Prop}

/-- A slot of a set of values holds a value where a type is asked for. -/
inductive Held (graph : Graph) (steps : List Step) (inside : Value → Prop) :
    Value → Value → Prop
  | field {holder : Value} {name : String} : inside holder → holder.isMissing = false →
      graph.Names steps holder (.field name) →
      Held graph steps inside (graph.fieldType holder name) (graph.member holder (.ofText name))
  | element {type holder : Value} {index : Nat} : Held graph steps inside type holder →
      inside holder → graph.isArray holder = true →
      Held graph steps inside (graph.componentType type) (graph.member holder (.ofIndex index))

/-- A value is held by a slot that a step names, or by none. -/
theorem Held.slot {type value : Value} (held : graph.Held steps inside type value) :
    ∃ holder step, inside holder ∧ holder.isMissing = false ∧ graph.Names steps holder step ∧
      graph.member holder step.key = value := by
  cases held with
  | field isInside present names => exact ⟨_, _, isInside, present, names, rfl⟩
  | @element _ holder index heldHolder isInside isArray =>
      exact ⟨holder, .element index, isInside, isMissing_of_isArray isArray, isArray, rfl⟩

theorem Held.known (sound : graph.Sound) {type value : Value}
    (held : graph.Held steps inside type value) : graph.Knows type := by
  cases held with
  | field => exact sound.fieldType_known _ _
  | element => exact sound.componentType_known _

/-- What a slot holds conforms to the type that is asked for there. -/
theorem Held.conforms (sound : graph.Sound)
    (conforming : graph.Conforming steps around inside) {type value : Value}
    (held : graph.Held steps inside type value) : graph.Conforms type value := by
  induction held with
  | @field holder name isInside present names =>
      unfold fieldType
      cases declared : graph.declaration? holder name with
      | none => exact sound.conforms_openType _
      | some declaration => exact conforming.fields isInside present declared
  | @element type holder index _ _ isArray inductionHypothesis =>
      exact inductionHypothesis.component isArray index

/-- An array that no two slots hold is asked for one type only. -/
theorem Held.unique (unshared : graph.Unshared steps inside) {type other array : Value}
    (held : graph.Held steps inside type array) (heldOther : graph.Held steps inside other array)
    (isArray : graph.isArray array = true) : type = other := by
  induction held generalizing other with
  | @field holder name isInside present names =>
      generalize content : graph.member holder (.ofText name) = array at heldOther isArray
      cases heldOther with
      | @field second secondName isInside' present' names' =>
          obtain ⟨same, which⟩ := unshared.alone isInside isInside' present present' names names'
            content rfl isArray
          cases same
          rcases which with rfl | ⟨_, _, sameClass⟩
          · rfl
          · simp only [fieldType, declaration?, sameClass]
      | @element _ second index _ isInside' isArray' =>
          cases (unshared.alone isInside isInside' present (isMissing_of_isArray isArray') names
            (show graph.Names steps second (.element index) from isArray') content rfl isArray).1
  | @element type holder index _ isInside isArrayHolder inductionHypothesis =>
      generalize content : graph.member holder (.ofIndex index) = array at heldOther isArray
      have names : graph.Names steps holder (.element index) := isArrayHolder
      cases heldOther with
      | @field second secondName isInside' present' names' =>
          cases (unshared.alone isInside isInside' (isMissing_of_isArray isArrayHolder) present'
            names names' content rfl isArray).1
      | @element secondType second secondIndex heldSecond isInside' isArray' =>
          obtain ⟨_, which⟩ := unshared.alone isInside isInside'
            (isMissing_of_isArray isArrayHolder) (isMissing_of_isArray isArray') names
            (show graph.Names steps second (.element secondIndex) from isArray') content rfl isArray
          rcases which with rfl | ⟨noArray, _⟩
          · rw [inductionHypothesis heldSecond isArrayHolder]
          · rw [isArrayHolder] at noArray
            cases noArray

/-- The type of the elements that a slot asks for in the array at a place, if one holds it. -/
noncomputable def heldItems (graph : Graph) (steps : List Step) (inside : Value → Prop)
    (place : Nat) : Value :=
  open Classical in
  if held : ∃ type, graph.Held steps inside type (.object place) then
    graph.componentType held.choose
  else
    openType

theorem heldItems_of_held (unshared : graph.Unshared steps inside) {type : Value} {place : Nat}
    (held : graph.Held steps inside type (.object place))
    (isArray : graph.isArray (.object place) = true) :
    graph.heldItems steps inside place = graph.componentType type := by
  unfold heldItems
  have some : ∃ type, graph.Held steps inside type (.object place) := ⟨type, held⟩
  rw [dif_pos some, Held.unique unshared some.choose_spec held isArray]

theorem heldItems_of_not_held {place : Nat}
    (free : ∀ type, ¬ graph.Held steps inside type (.object place)) :
    graph.heldItems steps inside place = openType := by
  unfold heldItems
  rw [dif_neg]
  rintro ⟨type, held⟩
  exact free type held

/-- What a slot holds suits the type that is asked for there. -/
theorem Held.suits (sound : graph.Sound) (conforming : graph.Conforming steps around inside)
    (unshared : graph.Unshared steps inside) {type value : Value}
    (held : graph.Held steps inside type value) :
    Typing.Suits ⟨inside, graph.heldItems steps inside⟩ graph type value := by
  cases present : value.isMissing with
  | true => exact .of_isMissing present
  | false =>
      refine Or.inr ⟨(held.conforms sound conforming).takes present, ?_⟩
      rintro place rfl isArray
      exact heldItems_of_held unshared held isArray

/-- A conforming set in which no array is held by two slots has types for the elements of its
arrays. -/
theorem Conforming.typed (sound : graph.Sound) (conforming : graph.Conforming steps around inside)
    (unshared : graph.Unshared steps inside) :
    graph.Typed steps around ⟨inside, graph.heldItems steps inside⟩ where
  known := conforming.known
  like := conforming.like
  looked := conforming.looked
  heirs := unshared.heirs
  elements := unshared.elements
  items := by
    intro place
    change graph.Knows (graph.heldItems steps inside place)
    unfold heldItems
    split
    · exact sound.componentType_known _
    · exact knows_of_isCallable sound.openType
  suits := by
    intro value step isInside present names
    cases step with
    | field name => exact (Held.field isInside present names).suits sound conforming unshared
    | element index =>
        have isArray : graph.isArray value = true := names
        cases value with
        | object place =>
            by_cases some : ∃ type, graph.Held steps inside type (.object place)
            · obtain ⟨type, held⟩ := some
              have same : Typing.stepType ⟨inside, graph.heldItems steps inside⟩ graph
                  (.object place) (.element index) = graph.componentType type :=
                heldItems_of_held unshared held isArray
              rw [same]
              exact (held.element isInside isArray).suits sound conforming unshared
            · -- Nothing asks for types in an array that no slot holds, nor in the arrays in it.
              have free : ∀ type, ¬ graph.Held steps inside type (.object place) :=
                fun type held => some ⟨type, held⟩
              have same : Typing.stepType ⟨inside, graph.heldItems steps inside⟩ graph
                  (.object place) (.element index) = ObjectPath.openType :=
                heldItems_of_not_held free
              rw [same]
              refine Or.inr ⟨if_pos rfl, ?_⟩
              intro other content isArrayOther
              rw [sound.componentType_openType]
              refine heldItems_of_not_held fun type held => ?_
              generalize isContent : Value.object other = array at held
              cases held with
              | @field second name isInside' present' names' =>
                  cases (unshared.alone isInside isInside' present present' names names'
                    (content.trans isContent) rfl (isContent ▸ content ▸ isArrayOther)).1
              | @element type second index' held isInside' isArray' =>
                  obtain ⟨_, which⟩ := unshared.alone isInside isInside' present
                    (isMissing_of_isArray isArray') names
                    (show graph.Names steps second (.element index') from isArray')
                    (content.trans isContent) rfl (isContent ▸ content ▸ isArrayOther)
                  rcases which with rfl | ⟨noArray, _⟩
                  · exact free type held
                  · rw [isArray] at noArray
                    cases noArray
        | _ => cases isArray

end Graph

end ObjectPath
