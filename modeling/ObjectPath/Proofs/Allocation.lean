import ObjectPath.Proofs.Naming

/-!
# New objects

A new object extends a graph, and what it does not have itself it finds on its parent as the
parent does.  If its parent and its contents are there, the graph stays closed, and sound
unless the object is a function.
-/

namespace ObjectPath.Graph

/-! ## Objects after an allocation -/

/-- The graph with one more object. -/
def adding (graph : Graph) (object : Object) : Graph :=
  (graph.allocate object).2

theorem size_adding (graph : Graph) (object : Object) :
    (graph.adding object).objects.size = graph.objects.size + 1 :=
  Array.size_push object

theorem object?_adding_self (graph : Graph) (object : Object) :
    (graph.adding object).object? graph.objects.size = some object :=
  Array.getElem?_push_size

theorem object?_adding_of_lt (graph : Graph) (object : Object) {place : Nat}
    (inside : place < graph.objects.size) :
    (graph.adding object).object? place = graph.object? place := by
  change (graph.objects.push object)[place]? = graph.objects[place]?
  rw [Array.getElem?_push, if_neg (by omega)]

theorem extends_adding (graph : Graph) (object : Object) : graph.Extends (graph.adding object) where
  size := by
    rw [size_adding]
    omega
  objects := fun inside => object?_adding_of_lt graph object inside
  declared := rfl

theorem ownAt?_adding_self (graph : Graph) (object : Object) (key : Key) :
    (graph.adding object).ownAt? graph.objects.size key = object.own? key := by
  rw [ownAt?, object?_adding_self]
  rfl

/-! ## Closed graphs -/

theorem Extends.ends {before after : Graph} (extends_ : before.Extends after)
    (closed : before.Closed) {limit later : Nat} {start : Option Nat}
    (inside : ∀ place, start = some place → place < before.objects.size) (longer : limit ≤ later)
    (ended : before.Ends limit start) : after.Ends later start := by
  induction limit generalizing later start with
  | zero =>
      cases start with
      | none => cases later <;> exact trivial
      | some place => exact ended.elim
  | succ limit inductionHypothesis =>
      cases start with
      | none => cases later <;> exact trivial
      | some place =>
          cases later with
          | zero => omega
          | succ later =>
              have here := inside place rfl
              unfold Ends
              rw [extends_.objects here]
              refine inductionHypothesis ?_ (by omega) ended
              intro parent isParent
              obtain ⟨found, isObject⟩ := object?_of_lt here
              simp only [isObject, Option.bind_some] at isParent
              exact closed.parents isObject isParent

/-- Of the new objects of a graph it has to be checked that they refer to objects which are
there; the old ones do. -/
theorem Closed.extends {before after : Graph} (closed : before.Closed)
    (extends_ : before.Extends after)
    (parents : ∀ {place parent : Nat} {object : Object}, before.objects.size ≤ place →
      after.object? place = some object → object.parent = some parent →
        parent < after.objects.size)
    (contents : ∀ {place : Nat} {key : Key} {content : Value} {flags : Flags},
      before.objects.size ≤ place → after.ownAt? place key = some (.data content flags) →
        after.Knows content)
    (ended : ∀ {place : Nat}, before.objects.size ≤ place → place < after.objects.size →
      after.Ends after.objects.size (some place)) : after.Closed where
  classes := fun owner => Nat.lt_of_lt_of_le (closed.classes owner) extends_.size
  parents := by
    intro place parent object isObject isParent
    rcases Nat.lt_or_ge place before.objects.size with old | new
    · rw [extends_.objects old] at isObject
      exact Nat.lt_of_lt_of_le (closed.parents isObject isParent) extends_.size
    · exact parents new isObject isParent
  contents := by
    intro place key content flags own
    rcases Nat.lt_or_ge place before.objects.size with old | new
    · rw [extends_.ownAt? old] at own
      exact extends_.follows.knows (closed.contents own)
    · exact contents new own
  ended := by
    intro place inside
    rcases Nat.lt_or_ge place before.objects.size with old | new
    · refine extends_.ends closed ?_ extends_.size (closed.ended old)
      rintro _ ⟨⟩
      exact old
    · exact ended new inside

/-- Without new objects a graph stays closed. -/
theorem Closed.of_size_eq {before after : Graph} (closed : before.Closed)
    (extends_ : before.Extends after) (same : after.objects.size = before.objects.size) :
    after.Closed := by
  have inside : ∀ {place : Nat} {object : Object}, after.object? place = some object →
      place < before.objects.size := fun isObject => same ▸ lt_of_object? isObject
  refine closed.extends extends_ (fun new isObject => absurd (inside isObject) (Nat.not_lt.2 new))
    (fun new own => ?_) (fun new below => absurd (same ▸ below) (Nat.not_lt.2 new))
  obtain ⟨_, isObject, _⟩ := Option.bind_eq_some_iff.1 own
  exact absurd (inside isObject) (Nat.not_lt.2 new)

/-- What an object refers to is there. -/
structure Fits (graph : Graph) (object : Object) : Prop where
  parent : ∀ place, object.parent = some place → place < graph.objects.size
  contents : ∀ {key : Key} {content : Value} {flags : Flags},
    object.own? key = some (.data content flags) → graph.Knows content

theorem eq_size_of_new {graph : Graph} {object : Object} {place : Nat}
    (new : graph.objects.size ≤ place) (inside : place < (graph.adding object).objects.size) :
    place = graph.objects.size := by
  rw [size_adding] at inside
  omega

theorem eq_of_new {graph : Graph} {object found : Object} {place : Nat}
    (new : graph.objects.size ≤ place) (isObject : (graph.adding object).object? place = some found) :
    place = graph.objects.size ∧ found = object := by
  have same := eq_size_of_new new (lt_of_object? isObject)
  subst same
  rw [object?_adding_self, Option.some.injEq] at isObject
  exact ⟨rfl, isObject.symm⟩

theorem own?_of_new {graph : Graph} {object : Object} {place : Nat} {key : Key}
    {property : Property} (new : graph.objects.size ≤ place)
    (own : (graph.adding object).ownAt? place key = some property) :
    object.own? key = some property := by
  obtain ⟨found, isObject, isOwn⟩ := Option.bind_eq_some_iff.1 own
  obtain ⟨_, rfl⟩ := eq_of_new new isObject
  exact isOwn

theorem Closed.adding {graph : Graph} (closed : graph.Closed) {object : Object}
    (fits : graph.Fits object) : (graph.adding object).Closed := by
  have extends_ := extends_adding graph object
  refine closed.extends extends_ ?parents ?contents ?ended
  case parents =>
    intro place parent found new isObject isParent
    obtain ⟨_, rfl⟩ := eq_of_new new isObject
    exact Nat.lt_of_lt_of_le (fits.parent parent isParent) extends_.size
  case contents =>
    intro place key content flags new own
    exact extends_.follows.knows (fits.contents (own?_of_new new own))
  case ended =>
    intro place new inside
    have same := eq_size_of_new new inside
    subst same
    rw [size_adding]
    unfold Ends
    rw [object?_adding_self, Option.bind_some]
    refine extends_.ends closed fits.parent (Nat.le_refl _) ?_
    cases isParent : object.parent with
    | none => cases graph.objects.size <;> exact trivial
    | some parent => exact closed.ended (fits.parent parent isParent)

theorem Closed.placesFrom_parent {graph : Graph} (closed : graph.Closed) {place : Nat}
    (inside : place < graph.objects.size) :
    graph.placesFrom graph.objects.size (some place) = place :: graph.ancestors (.object place) := by
  have ended := closed.ended inside
  unfold ancestors
  cases size : graph.objects.size with
  | zero => omega
  | succ limit =>
      rw [size] at ended
      have above : graph.Ends limit ((graph.object? place).bind (·.parent)) := ended
      simp only [placesFrom, List.cons.injEq, true_and]
      refine ((Follows.refl graph).placesFrom closed above (Nat.le_succ limit) ?_).symm
      intro parent isParent
      obtain ⟨found, isObject⟩ := object?_of_lt inside
      simp only [isObject, Option.bind_some] at isParent
      exact closed.parents isObject isParent

/-- The ancestors of a new object are its parent and the ancestors of that. -/
theorem Closed.ancestors_adding {graph : Graph} (closed : graph.Closed) {object : Object}
    {parent : Nat} (isParent : object.parent = some parent)
    (inside : parent < graph.objects.size) :
    (graph.adding object).ancestors (.object graph.objects.size) =
      parent :: graph.ancestors (.object parent) := by
  rw [← closed.placesFrom_parent inside, ancestors, Graph.parentOf, object?_adding_self,
    Option.bind_some, isParent, size_adding]
  refine (extends_adding graph object).follows.placesFrom closed (closed.ended inside)
    (Nat.le_succ _) ?_
  rintro _ ⟨⟩
  exact inside

/-- A new object finds its own members, and what its parent finds. -/
theorem Closed.find?_adding {graph : Graph} (closed : graph.Closed) {object : Object}
    {parent : Nat} (isParent : object.parent = some parent)
    (inside : parent < graph.objects.size) {key : Key} (absent : object.own? key = none) :
    (graph.adding object).find? (.object graph.objects.size) key =
      graph.find? (.object parent) key := by
  have old : ∀ place ∈ parent :: graph.ancestors (.object parent), place < graph.objects.size := by
    intro place member
    rcases List.mem_cons.1 member with rfl | above
    · exact inside
    · exact closed.ancestors_lt _ place above
  have same : ∀ places : List Nat, (∀ place ∈ places, place < graph.objects.size) →
      places.findSome? ((graph.adding object).ownAt? · key) =
        places.findSome? (graph.ownAt? · key) := by
    intro places inside
    refine findSome?_eq_of_upTo places fun place isAsked => ?_
    exact (extends_adding graph object).ownAt? (inside place (Closed.mem_upTo isAsked)) key
  rw [find?, own?, ownAt?_adding_self, absent]
  simp only [inherited?]
  rw [closed.ancestors_adding isParent inside, same _ old]
  simp only [List.findSome?, find?, own?, inherited?]
  cases graph.ownAt? parent key <;> rfl

theorem find?_adding_own (graph : Graph) {object : Object} {key : Key} {property : Property}
    (own : object.own? key = some property) :
    (graph.adding object).find? (.object graph.objects.size) key = some property := by
  rw [find?, own?, ownAt?_adding_self, own]

/-! ## Sound graphs -/

theorem NamesArrays.extends {before after : Graph} (extends_ : before.Extends after)
    (closed : before.Closed) {value : Value} (known : before.Knows value)
    (names : before.NamesArrays value) : after.NamesArrays value := by
  obtain ⟨getter, enumerable, configurable, found, callee⟩ := names
  refine ⟨getter, enumerable, configurable, ?_, ?_⟩
  · rw [extends_.find? closed known, found]
  · rw [extends_.follows.callee? (knows_of_callee? callee), callee]

/-- What has to be checked of the new objects of a graph, and of the types of arrays that are
entered in it, for the graph to be sound. -/
structure NewSound (before after : Graph) : Prop where
  plain : ∀ {place : Nat} {key : Key} {property : Property}, before.objects.size ≤ place →
    key ∈ typeKeys → after.ownAt? place key = some property →
      ∃ content flags, property = .data content flags
  named : ∀ {place : Nat}, before.objects.size ≤ place →
    after.isCallable (.object place) = true →
      ∃ content flags, after.ownAt? place (.name "name") = some (.data content flags) ∧
        content.isObject = false ∧ (content.isMissing = true → flags.writable = false)
  arrays : ∀ {place : Nat}, before.objects.size ≤ place →
    after.isArrayType (.object place) = true →
      after.NamesArrays (.object place) ∧
        after.IsType (after.member (.object place) (.name "componentType"))
  arrayTypes : ∀ {component : Value} {place : Nat},
    Entries.get? after.arrayTypes component = some place →
      Entries.get? before.arrayTypes component = some place ∨
        after.isArrayType (.object place) = true ∧
          after.member (.object place) (.name "componentType") = component

theorem Sound.extends {before after : Graph} (sound : before.Sound)
    (extends_ : before.Extends after) (closed : after.Closed) (new : before.NewSound after) :
    after.Sound := by
  have follows := extends_.follows
  -- Each clause is about one place: it is an old one, where nothing has changed, or a new one.
  have oldOrNew : ∀ place : Nat,
      before.Knows (.object place) ∨ before.objects.size ≤ place := fun place =>
    (Nat.lt_or_ge place before.objects.size).imp_left knows_object.2
  have ofArrayType : ∀ {value : Value}, after.isArrayType value = true →
      (before.Knows value ∧ before.isArrayType value = true) ∨
        ∃ place, value = .object place ∧ before.objects.size ≤ place := by
    intro value isArrayType
    cases value with
    | object place =>
        refine (oldOrNew place).imp (fun known => ⟨known, ?_⟩) fun isNew => ⟨place, rfl, isNew⟩
        rw [← follows.isArrayType sound.toClosed known]
        exact isArrayType
    | _ => cases isArrayType
  refine ⟨⟨closed, ?plain⟩, ?named, ?sharedName, ?arrayName, ?sharedType, ?component,
    ?arrayTypes, ?declaredType, ?openClass, ?arrayClass⟩
  case plain =>
    intro place key property isTypeKey own
    rcases oldOrNew place with known | isNew
    · rw [extends_.ownAt? (knows_object.1 known)] at own
      exact sound.plain isTypeKey own
    · exact new.plain isNew isTypeKey own
  case named =>
    intro place callable
    rcases oldOrNew place with known | isNew
    · rw [follows.isCallable known] at callable
      rw [extends_.ownAt? (knows_object.1 known)]
      exact sound.named callable
    · exact new.named isNew callable
  case sharedName =>
    exact sound.sharedName.extends extends_ sound.toClosed (knows_object.2 (sound.shared _))
  case arrayName =>
    intro value isArrayType
    rcases ofArrayType isArrayType with ⟨known, earlier⟩ | ⟨place, rfl, isNew⟩
    · exact (sound.arrayName earlier).extends extends_ sound.toClosed known
    · exact (new.arrays isNew isArrayType).1
  case sharedType =>
    intro owner
    rw [follows.isArrayType sound.toClosed (knows_object.2 (sound.shared owner))]
    exact sound.sharedType owner
  case component =>
    intro value isArrayType
    rcases ofArrayType isArrayType with ⟨known, earlier⟩ | ⟨place, rfl, isNew⟩
    · rw [extends_.member sound.toClosed known]
      exact follows.isType sound.toClosed (sound.component earlier)
    · exact (new.arrays isNew isArrayType).2
  case arrayTypes =>
    intro component place found
    rcases new.arrayTypes found with entered | settled
    · obtain ⟨isArrayType, same⟩ := sound.arrayTypes entered
      have known := knows_of_isArrayType isArrayType
      rw [follows.isArrayType sound.toClosed known, extends_.member sound.toClosed known]
      exact ⟨isArrayType, same⟩
    · exact settled
  case declaredType =>
    intro place scope name field found
    unfold declarationsAt at found
    rw [extends_.declared] at found
    exact follows.isType sound.toClosed (sound.declaredType found)
  case openClass =>
    rw [follows.callee? (knows_of_callee? sound.openClass)]
    exact sound.openClass
  case arrayClass =>
    rw [follows.isCallable (knows_of_isCallable sound.arrayClass)]
    exact sound.arrayClass

/-- A new object that is no function keeps a graph sound, provided that it has a name and a
component if it is the type of some arrays. -/
theorem Sound.adding {graph : Graph} (sound : graph.Sound) {object : Object}
    (fits : graph.Fits object)
    (typed : ∀ key ∈ typeKeys, ∀ property, object.own? key = some property →
      ∃ content flags, property = .data content flags)
    (noFunction : ∀ callee, object.body ≠ .function callee)
    (ofArrays : (graph.adding object).isArrayType (.object graph.objects.size) = true →
      (graph.adding object).NamesArrays (.object graph.objects.size) ∧
        (graph.adding object).IsType
          ((graph.adding object).member (.object graph.objects.size) (.name "componentType"))) :
    (graph.adding object).Sound := by
  refine sound.extends (extends_adding graph object) (sound.toClosed.adding fits)
    ⟨?plain, ?named, ?arrays, Or.inl⟩
  case plain =>
    intro place key property new isTypeKey own
    exact typed key isTypeKey property (own?_of_new new own)
  case named =>
    intro place new callable
    exfalso
    have same := eq_size_of_new new (knows_object.1 (knows_of_isCallable callable))
    subst same
    simp only [isCallable, callee?, objectOf?, Value.place?, Option.bind_some,
      object?_adding_self] at callable
    split at callable
    · rename_i found
      cases found
      exact noFunction _ rfl
    · cases callable
  case arrays =>
    intro place new isArrayType
    have same := eq_size_of_new new (knows_object.1 (knows_of_isArrayType isArrayType))
    subst same
    exact ofArrays isArrayType

end ObjectPath.Graph
