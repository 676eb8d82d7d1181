import ObjectPath.Factory
import ObjectPath.Proofs.Supply

/-!
# The default factory

The default factory always has a value to give: zero values, empty arrays, and instances of
classes.  What it gives is new and plain data, as long as what the built-in classes share is
plain data and the constructors of the other classes behave.
-/

namespace ObjectPath

open Graph

/-! ## Simple values -/

namespace Graph

variable {graph : Graph} {keys : List Key} {floor : Nat}

/-- What a value does not have itself it finds on its parent. -/
theorem Closed.find?_of_parent (closed : graph.Closed) {value : Value} {parent : Nat}
    (isParent : graph.parentOf value = some parent) (inside : parent < graph.objects.size)
    {key : Key} (absent : graph.own? value key = none) :
    graph.find? value key = graph.find? (.object parent) key := by
  simp only [find?, absent, inherited?, ancestors, isParent]
  rw [closed.placesFrom_parent inside]
  simp only [List.findSome?, own?, ancestors]
  cases graph.ownAt? parent key <;> rfl

/-- The plainness of values that find the same as an object and have at most numbers as members
of their own. -/
theorem Plain.of_parent (closed : graph.Closed) {value : Value} {parent : Nat}
    (isParent : graph.parentOf value = some parent) (inside : parent < graph.objects.size)
    (above : ∀ place, value = .object place → floor ≤ place)
    (own : ∀ key ∈ keys, graph.own? value key = none ∨
      ∃ number flags, graph.own? value key = some (.data (.number number) flags))
    (number : ∀ number, graph.Plain keys floor (.number number))
    (plain : graph.Plain keys floor (.object parent)) : graph.Plain keys floor value := by
  refine Plain.of_lookups (fun key named => ?_) above
  rcases own key named with absent | ⟨content, flags, present⟩
  · rw [Graph.look?, closed.find?_of_parent isParent inside absent]
    exact plain.look? rfl named
  · exact ⟨.number content, by rw [Graph.look?, find?, present], number content⟩

theorem Plain.number (closed : graph.Closed) {number : Number}
    (plain : graph.Plain keys floor (.object BuiltinClass.number.sharedPlace)) :
    graph.Plain keys floor (.number number) := by
  refine Plain.of_lookups (fun key named => ?_) fun place impossible => by cases impossible
  rw [Graph.look?, closed.find?_of_parent (show graph.parentOf (.number number) = some _ from rfl)
    (closed.shared .number) rfl]
  exact plain.look? rfl named

end Graph

/-! ## New objects of built-in classes -/

/-- An object of a built-in class without slots. -/
def blankObject (owner : BuiltinClass) (body : Body) : Object :=
  ⟨some owner.sharedPlace, body, [], true⟩

namespace Graph

variable {graph : Graph}

theorem callee?_adding {object : Object} (noFunction : ∀ callee, object.body ≠ .function callee) :
    (graph.adding object).callee? (.object graph.objects.size) = none := by
  simp only [callee?, objectOf?, Value.place?, Option.bind_some, object?_adding_self]
  split
  · rename_i found
    cases found
    exact absurd rfl (noFunction _)
  · rfl

/-- The new objects of a built-in class are no types of arrays. -/
theorem Sound.isArrayType_adding (sound : graph.Sound) {owner : BuiltinClass} (body : Body)
    (notType : owner ≠ .arrayType) :
    (graph.adding (blankObject owner body)).isArrayType (.object graph.objects.size) = false := by
  have apart : owner.sharedPlace ≠ BuiltinClass.arrayType.sharedPlace := by
    cases owner <;> first | exact absurd rfl notType | decide
  have above := sound.sharedType owner
  simp only [Graph.isArrayType, descendsFrom, Value.isObject, Value.place?, Option.isSome_some,
    Bool.true_and] at above ⊢
  rw [sound.toClosed.ancestors_adding rfl (sound.shared owner), List.contains_cons, above,
    Bool.or_false]
  simpa using Ne.symm apart

theorem Sound.adding_blank (sound : graph.Sound) {owner : BuiltinClass} {body : Body}
    (notType : owner ≠ .arrayType) (noFunction : ∀ callee, body ≠ .function callee)
    (own : ∀ key property, (blankObject owner body).own? key = some property →
      key = .name "length" ∧ ∃ number flags, property = .data (.number number) flags) :
    (graph.adding (blankObject owner body)).Sound := by
  refine sound.adding ⟨?_, ?_⟩ ?_ noFunction ?_
  · rintro _ ⟨⟩
    exact sound.shared owner
  · intro key content flags isOwn
    obtain ⟨_, number, _, same⟩ := own key _ isOwn
    cases same
    exact knows_of_isObject_eq_false rfl
  · intro key isTypeKey property isOwn
    obtain ⟨rfl, _⟩ := own key property isOwn
    exact absurd isTypeKey (by decide)
  · intro isArrayType
    rw [sound.isArrayType_adding body notType] at isArrayType
    cases isArrayType

end Graph

/-- The built-in classes that the default factory makes values of. -/
def suppliedClasses : List BuiltinClass :=
  [.object, .array, .number, .boolean, .string]

/-- What these classes share. -/
def sharedValues : List Value :=
  suppliedClasses.map fun owner => .object owner.sharedPlace

/-- The default factory, as long as nobody has entered a producer. -/
def standardFactory : Factory :=
  (ProducerTable.standard .standard).supply

namespace Scene

variable {scene : Scene} {graph : Graph}

/-- What the built-in classes that the default factory makes values of share is plain data. -/
def Furnished (scene : Scene) : Prop :=
  ∀ owner ∈ suppliedClasses, .object owner.sharedPlace ∈ scene.grounds

theorem Holds.plain_number (holds : scene.Holds graph) (furnished : scene.Furnished)
    (number : Number) : graph.Plain scene.keys 0 (.number number) :=
  Plain.number holds.sound.toClosed (holds.plain _ (furnished .number (by decide)))

/-- A simple value is made of nothing. -/
theorem Holds.made_simple (holds : scene.Holds graph) (furnished : scene.Furnished)
    {value : Value} {owner : BuiltinClass}
    (listed : owner ∈ suppliedClasses)
    (isParent : graph.parentOf value = some owner.sharedPlace)
    (simple : value.isObject = false) (present : value.isMissing = false)
    (own : ∀ key, graph.own? value key = none ∨
      ∃ number flags, graph.own? value key = some (.data (.number number) flags)) :
    scene.Made 0 graph value graph where
  extends_ := Extends.refl graph
  sound := holds.sound
  known := knows_of_isObject_eq_false simple
  new := by
    rintro place rfl
    cases simple
  plain := Plain.of_parent holds.sound.toClosed isParent (holds.sound.shared owner)
    (fun place _ => Nat.zero_le place) (fun key _ => own key) (holds.plain_number furnished)
    (holds.plain _ (furnished owner listed))
  calm := by
    intro key _
    cases value <;> first | rfl | cases simple
  given := fun _ => present

/-- A new object of a built-in class is plain data. -/
theorem Holds.made_blank (holds : scene.Holds graph) (furnished : scene.Furnished)
    {owner : BuiltinClass}
    (listed : owner ∈ suppliedClasses) {body : Body}
    (noFunction : ∀ callee, body ≠ .function callee)
    (own : ∀ key property, (blankObject owner body).own? key = some property →
      key = .name "length" ∧ ∃ number flags, property = .data (.number number) flags) :
    scene.Made 0 graph (.object graph.objects.size) (graph.adding (blankObject owner body)) := by
  have sound := holds.sound
  have notType : owner ≠ .arrayType := by
    rintro rfl
    revert listed
    decide
  have extends_ := extends_adding graph (blankObject owner body)
  have later := sound.adding_blank notType noFunction own
  have knownShared : graph.Knows (.object owner.sharedPlace) := knows_object.2 (sound.shared owner)
  refine ⟨extends_, later, ?_, ?_, ?_, ?_, fun _ => rfl⟩
  · exact knows_object.2 (by rw [size_adding]; omega)
  · rintro _ ⟨⟩
    exact Nat.le_refl _
  · refine Plain.of_parent later.toClosed
      (show (graph.adding (blankObject owner body)).parentOf _ = some owner.sharedPlace from ?_)
      (later.shared owner) (fun place _ => Nat.zero_le place) (fun key _ => ?_) (fun number => ?_)
      ((holds.plain _ (furnished owner listed)).extends extends_ sound.toClosed knownShared)
    · rw [Graph.parentOf, object?_adding_self]
      rfl
    · rw [own?, ownAt?_adding_self]
      cases isOwn : (blankObject owner body).own? key with
      | none => exact Or.inl rfl
      | some property =>
          obtain ⟨_, number, flags, rfl⟩ := own key property isOwn
          exact Or.inr ⟨number, flags, rfl⟩
    · exact (holds.plain_number furnished number).extends extends_ sound.toClosed
        (knows_of_isObject_eq_false rfl)
  · intro key _
    have noCallee : (graph.adding (blankObject owner body)).callee? (.object graph.objects.size) =
        none := callee?_adding noFunction
    rw [Graph.isCallable, noCallee]
    rfl

/-! ## The default factory -/

/-- Instances of the classes that the default factory has no value of its own for: their
constructors make new plain data that is no function, and leave every object as it is. -/
def Constructs (scene : Scene) : Prop :=
  ∀ {graph : Graph} {type : Value}, scene.Holds graph → graph.Requested type → type ≠ openType →
    graph.isArrayType type = false →
      Entries.get? (ProducerTable.standard .standard).producers type = none →
        Ensures (Run.newInstance type []) graph (scene.Made 0 graph) (Scene.Failed graph)

/-- The zero values that the default factory has. -/
theorem producers_standard {type : Value} {producer : Producer}
    (found : Entries.get? (ProducerTable.standard .standard).producers type = some producer) :
    type = .object BuiltinClass.number.place ∧ producer = .constant (.number (.ofNat 0)) ∨
      type = .object BuiltinClass.boolean.place ∧ producer = .constant (.boolean false) ∨
      type = .object BuiltinClass.string.place ∧ producer = .constant (.string "") := by
  simp only [ProducerTable.standard, ProducerTable.put, ProducerTable.bare,
    Entries.get?_put] at found
  split at found
  · rename_i isString
    exact Or.inr (Or.inr ⟨isString, (Option.some.inj found).symm⟩)
  · split at found
    · rename_i isBoolean
      exact Or.inr (Or.inl ⟨isBoolean, (Option.some.inj found).symm⟩)
    · split at found
      · rename_i isNumber
        exact Or.inl ⟨isNumber, (Option.some.inj found).symm⟩
      · cases found

/-- An instance of the open type is a new record. -/
theorem newInstance_openType (openClass : graph.callee? openType = some (.builtinClass .object)) :
    Run.newInstance openType [] graph =
      .ok (.object graph.objects.size) (graph.adding (blankObject .object .plain)) := by
  have created : Run.create openType [] graph =
      .ok (.object graph.objects.size) (graph.adding (blankObject .object .plain)) := by
    change createInstance (performWithin 3999) openType [] openType graph = _
    unfold createInstance
    refine bind_get.trans ?_
    rw [openClass]
    rfl
  exact tryCatch_of_ok created

/-- The empty text has a length and no units. -/
theorem own?_emptyText (graph : Graph) (key : Key) :
    graph.own? (.string "") key = none ∨
      ∃ number flags, graph.own? (.string "") key = some (.data (.number number) flags) := by
  change textOwn? "" key = none ∨ ∃ number flags, textOwn? "" key = some (.data (.number number) flags)
  unfold textOwn?
  split
  · exact Or.inr ⟨_, _, rfl⟩
  · exact Or.inl rfl
  · exact Or.inl rfl

/-- An empty array has a length and no elements. -/
theorem own?_emptyArray (key : Key) (property : Property)
    (isOwn : (blankObject .array (.items 0 true)).own? key = some property) :
    key = .name "length" ∧ ∃ number flags, property = .data (.number number) flags := by
  unfold Object.own? at isOwn
  split at isOwn
  · rename_i intrinsic
    simp only [Object.intrinsic?, blankObject, Option.ite_none_right_eq_some] at intrinsic
    obtain ⟨isLength, same⟩ := intrinsic
    exact ⟨isLength, _, _, (Option.some.inj isOwn).symm.trans (Option.some.inj same).symm⟩
  · cases isOwn

/-- The default factory supplies every type with a value, if it is furnished and constructors
behave. -/
theorem supplies_standard (furnished : scene.Furnished) (constructs : scene.Constructs)
    (arguments : Option ArgumentMap) :
    scene.Supplies 0 standardFactory arguments := by
  intro graph type holds _ requested
  unfold standardFactory ProducerTable.supply
  cases found : Entries.get? (ProducerTable.standard .standard).producers type with
  | some producer =>
      change Ensures (producer.run arguments) graph _ _
      rcases producers_standard found with ⟨_, rfl⟩ | ⟨_, rfl⟩ | ⟨_, rfl⟩ <;>
        simp only [Producer.run, Run.build, Template.build]
      · have made : scene.Made 0 graph (.number (.ofNat 0)) graph :=
          holds.made_simple furnished (show BuiltinClass.number ∈ _ by decide) rfl rfl rfl
            fun _ => Or.inl rfl
        exact made
      · have made : scene.Made 0 graph (.boolean false) graph :=
          holds.made_simple furnished (show BuiltinClass.boolean ∈ _ by decide) rfl rfl rfl
            fun _ => Or.inl rfl
        exact made
      · have made : scene.Made 0 graph (.string "") graph :=
          holds.made_simple furnished (show BuiltinClass.string ∈ _ by decide) rfl rfl rfl
            (own?_emptyText graph)
        exact made
  | none =>
      refine Ensures.get_bind ?_
      cases isArrayType : graph.isArrayType type with
      | true =>
          have made : scene.Made 0 graph (.object graph.objects.size)
              (graph.adding (blankObject .array (.items 0 true))) :=
            holds.made_blank furnished (by decide) (fun _ => by rintro ⟨⟩) own?_emptyArray
          exact made
      | false =>
          rw [if_neg Bool.false_ne_true]
          by_cases isOpen : type = openType
          · subst isOpen
            have made : scene.Made 0 graph (.object graph.objects.size)
                (graph.adding (blankObject .object .plain)) :=
              holds.made_blank furnished (by decide) (fun _ => by rintro ⟨⟩) fun _ _ => by rintro ⟨⟩
            exact Ensures.of_ok (newInstance_openType holds.sound.openClass) made
          · exact constructs holds requested isOpen isArrayType found

/-! ## Values held back -/

/-- Nothing is new plain data. -/
theorem Holds.made_null (holds : scene.Holds graph) (reluctant : ¬ scene.generous) (floor : Nat) :
    scene.Made floor graph .null graph where
  extends_ := Extends.refl graph
  sound := holds.sound
  known := knows_of_isObject_eq_false rfl
  new := fun _ impossible => by cases impossible
  plain := .of_isMissing rfl
  calm := fun _ _ => rfl
  given := fun generous => absurd generous reluctant

end Scene

/-- A factory that holds the values of some types back. -/
def withholding (refuses : Value → Bool) (supply : Factory) : Factory := fun type arguments =>
  if refuses type then pure .null else supply type arguments

theorem Scene.Supplies.withholding {scene : Scene} {floor : Nat} {supply : Factory}
    {arguments : Option ArgumentMap} (supplies : scene.Supplies floor supply arguments)
    (reluctant : ¬ scene.generous) (refuses : Value → Bool) :
    scene.Supplies floor (withholding refuses supply) arguments := by
  intro graph type holds above requested
  unfold ObjectPath.withholding
  split
  · exact holds.made_null reluctant floor
  · exact supplies holds above requested

end ObjectPath
