import ObjectPath.Proofs.Lookup

/-!
# Graphs that follow one another

Objects are never dropped, and neither a store nor a new object gives an old one another
parent or another nature.  So whatever depends on parents and natures alone is settled as
soon as an object is there: its ancestors, whether it is an array or a function, the
declarations of its class.
-/

namespace ObjectPath.Graph

/-! ## Closed graphs -/

/-- Whether a value can be met in a graph: an object has to be there. -/
def Knows (graph : Graph) (value : Value) : Prop :=
  ∀ place, value = .object place → place < graph.objects.size

/-- Whether the parents above a start end within a number of steps. -/
def Ends (graph : Graph) : Nat → Option Nat → Prop
  | _, none => True
  | 0, some _ => False
  | limit + 1, some place => Ends graph limit ((graph.object? place).bind (·.parent))

/-- A graph in which nothing refers to an object that is not there, and in which no object
is its own ancestor. -/
structure Closed (graph : Graph) : Prop where
  classes : ∀ owner : BuiltinClass, owner.place < graph.objects.size
  parents : ∀ {place parent : Nat} {object : Object},
    graph.object? place = some object → object.parent = some parent →
      parent < graph.objects.size
  contents : ∀ {place : Nat} {key : Key} {content : Value} {flags : Flags},
    graph.ownAt? place key = some (.data content flags) → graph.Knows content
  ended : ∀ {place : Nat}, place < graph.objects.size →
    graph.Ends graph.objects.size (some place)

theorem knows_of_isObject_eq_false
    {graph : Graph} {value : Value} (simple : value.isObject = false) :
    graph.Knows value := by
  rintro place rfl
  cases simple

theorem knows_object {graph : Graph} {place : Nat} :
    graph.Knows (.object place) ↔ place < graph.objects.size := by
  constructor
  · intro known
    exact known place rfl
  · rintro inside _ ⟨⟩
    exact inside

theorem object?_of_lt {graph : Graph} {place : Nat} (inside : place < graph.objects.size) :
    ∃ object, graph.object? place = some object :=
  ⟨graph.objects[place], Array.getElem?_eq_getElem inside⟩

theorem lt_of_object? {graph : Graph} {place : Nat} {object : Object}
    (found : graph.object? place = some object) : place < graph.objects.size :=
  (Array.getElem?_eq_some_iff.1 found).1

/-- A value that is there and is no object is none in any graph. -/
theorem objectOf?_none
    {graph : Graph} {value : Value} (known : graph.Knows value)
    (absent : graph.objectOf? value = none) (other : Graph) : other.objectOf? value = none := by
  cases value <;> simp only [objectOf?, Value.place?] at absent ⊢ <;> try rfl
  obtain ⟨object, found⟩ := object?_of_lt (knows_object.1 known)
  simp [found] at absent

namespace Closed

variable {graph : Graph}

theorem shared (closed : graph.Closed) (owner : BuiltinClass) :
    owner.sharedPlace < graph.objects.size := by
  have inside := closed.classes owner
  unfold BuiltinClass.place at inside
  unfold BuiltinClass.sharedPlace
  omega

theorem parentOf (closed : graph.Closed) {value : Value} {parent : Nat}
    (found : graph.parentOf value = some parent) : parent < graph.objects.size := by
  cases value <;> simp only [Graph.parentOf, Option.some.injEq] at found
  case object place =>
    cases here : graph.object? place with
    | none => simp [here] at found
    | some object =>
        simp only [here, Option.bind_some] at found
        exact closed.parents here found
  all_goals
    subst found
    exact closed.shared _

theorem placesFrom_lt (closed : graph.Closed) (limit : Nat) {start : Option Nat}
    (inside : ∀ place, start = some place → place < graph.objects.size) :
    ∀ place ∈ graph.placesFrom limit start, place < graph.objects.size := by
  induction limit generalizing start with
  | zero => simp [placesFrom]
  | succ limit inductionHypothesis =>
      cases start with
      | none => simp [placesFrom]
      | some first =>
          simp only [placesFrom, List.mem_cons, forall_eq_or_imp]
          refine ⟨inside first rfl, inductionHypothesis ?_⟩
          intro parent found
          cases here : graph.object? first with
          | none => simp [here] at found
          | some object =>
              simp only [here, Option.bind_some] at found
              exact closed.parents here found

theorem ancestors_lt (closed : graph.Closed) (value : Value) :
    ∀ place ∈ graph.ancestors value, place < graph.objects.size :=
  closed.placesFrom_lt _ fun _ found => closed.parentOf found

theorem mem_upTo {has : Nat → Bool} {places : List Nat} {place : Nat}
    (member : place ∈ upTo has places) : place ∈ places := by
  induction places with
  | nil => simp [upTo] at member
  | cons first rest inductionHypothesis =>
      unfold upTo at member
      split at member
      · simp_all
      · rcases List.mem_cons.1 member with rfl | later
        · simp
        · exact List.mem_cons_of_mem first (inductionHypothesis later)

/-- Lookups on a value that is there ask only objects that are there. -/
theorem asked_lt (closed : graph.Closed) {value : Value} (known : graph.Knows value)
    {key : Key} {place : Nat} (isAsked : place ∈ graph.asked value key) :
    place < graph.objects.size := by
  rcases List.mem_append.1 isAsked with itself | above
  · cases value <;> simp [Value.place?] at itself
    case object other =>
      subst itself
      exact knows_object.1 known
  · split at above
    · simp at above
    · exact closed.ancestors_lt value place (mem_upTo above)

theorem own_known (closed : graph.Closed) {value content : Value} {key : Key} {flags : Flags}
    (found : graph.own? value key = some (.data content flags)) : graph.Knows content := by
  cases value <;> simp only [own?] at found <;> try cases found
  case string text =>
    apply knows_of_isObject_eq_false
    unfold textOwn? at found
    split at found
    · cases found
      rfl
    · obtain ⟨unit, _, same⟩ := Option.map_eq_some_iff.1 found
      cases same
      rfl
    · cases found
  case object place => exact closed.contents found

/-- What a lookup finds is there. -/
theorem find_known (closed : graph.Closed) {value content : Value} {key : Key} {flags : Flags}
    (found : graph.find? value key = some (.data content flags)) : graph.Knows content := by
  unfold find? at found
  split at found
  · rename_i own
    cases found
    exact closed.own_known own
  · obtain ⟨place, _, own⟩ := List.exists_of_findSome?_eq_some found
    exact closed.contents own

theorem member_known (closed : graph.Closed) (value : Value) (key : Key) :
    graph.Knows (graph.member value key) := by
  unfold member
  split
  · rename_i found
    exact closed.find_known found
  · exact knows_of_isObject_eq_false rfl

end Closed

/-! ## Following -/

/-- The nature of an object: what it is besides its slots, whatever its length. -/
def Nature (before after : Body) : Prop :=
  after = before ∨
    ∃ short long resizable, before = .items short resizable ∧ after = .items long resizable

/-- A graph that follows another keeps its objects, with their parents and natures, and has
the same declarations. -/
structure Follows (before after : Graph) : Prop where
  size : before.objects.size ≤ after.objects.size
  kept : ∀ {place : Nat} {object : Object}, before.object? place = some object →
    ∃ later, after.object? place = some later ∧ later.parent = object.parent ∧
      later.extensible = object.extensible ∧ Nature object.body later.body
  declared : after.declarations = before.declarations

theorem Nature.trans {first second third : Body}
    (left : Nature first second) (right : Nature second third) : Nature first third := by
  rcases left with rfl | ⟨short, middle, resizable, rfl, rfl⟩
  · exact right
  · rcases right with rfl | ⟨_, long, _, same, rfl⟩
    · exact Or.inr ⟨short, middle, resizable, rfl, rfl⟩
    · cases same
      exact Or.inr ⟨short, long, resizable, rfl, rfl⟩

namespace Follows

theorem refl (graph : Graph) : graph.Follows graph where
  size := Nat.le_refl _
  kept := fun found => ⟨_, found, rfl, rfl, Or.inl rfl⟩
  declared := rfl

variable {first second third : Graph}

theorem knows (follows : first.Follows second) {value : Value} (known : first.Knows value) :
    second.Knows value :=
  fun place same => Nat.lt_of_lt_of_le (known place same) follows.size

theorem trans (left : first.Follows second) (right : second.Follows third) :
    first.Follows third where
  size := Nat.le_trans left.size right.size
  kept := by
    intro place object found
    obtain ⟨middle, foundMiddle, parentMiddle, extensibleMiddle, natureMiddle⟩ := left.kept found
    obtain ⟨later, foundLater, parentLater, extensibleLater, natureLater⟩ :=
      right.kept foundMiddle
    exact ⟨later, foundLater, parentLater.trans parentMiddle,
      extensibleLater.trans extensibleMiddle, natureMiddle.trans natureLater⟩
  declared := right.declared.trans left.declared

/-! ## What is settled as soon as an object is there -/

variable (follows : first.Follows second)

include follows

theorem parent {place : Nat} (inside : place < first.objects.size) :
    (second.object? place).bind (·.parent) = (first.object? place).bind (·.parent) := by
  obtain ⟨object, found⟩ := object?_of_lt inside
  obtain ⟨later, foundLater, sameParent, _⟩ := follows.kept found
  simp [found, foundLater, sameParent]

theorem parentOf {value : Value} (known : first.Knows value) :
    second.parentOf value = first.parentOf value := by
  cases value <;> simp only [Graph.parentOf]
  exact follows.parent (knows_object.1 known)

theorem placesFrom (closed : first.Closed) {limit later : Nat} {start : Option Nat}
    (ended : first.Ends limit start) (longer : limit ≤ later)
    (inside : ∀ place, start = some place → place < first.objects.size) :
    second.placesFrom later start = first.placesFrom limit start := by
  induction limit generalizing later start with
  | zero =>
      cases start with
      | none => cases later <;> rfl
      | some place => exact ended.elim
  | succ limit inductionHypothesis =>
      cases start with
      | none => cases later <;> rfl
      | some place =>
          cases later with
          | zero => omega
          | succ later =>
              have here := inside place rfl
              simp only [Graph.placesFrom, follows.parent here, List.cons.injEq, true_and]
              apply inductionHypothesis ended (by omega)
              intro parent found
              obtain ⟨object, foundObject⟩ := object?_of_lt here
              simp only [foundObject, Option.bind_some] at found
              exact closed.parents foundObject found

theorem ancestors (closed : first.Closed) {value : Value} (known : first.Knows value) :
    second.ancestors value = first.ancestors value := by
  rw [Graph.ancestors, Graph.ancestors, follows.parentOf known]
  cases start : first.parentOf value with
  | none =>
      cases first.objects.size <;> cases second.objects.size <;> rfl
  | some parent =>
      have inside := closed.parentOf start
      apply follows.placesFrom closed (closed.ended inside) follows.size
      rintro _ ⟨⟩
      exact inside

theorem objectOf? {value : Value} (known : first.Knows value) {object : Object}
    (found : first.objectOf? value = some object) :
    ∃ later, second.objectOf? value = some later ∧ later.parent = object.parent ∧
      later.extensible = object.extensible ∧ Nature object.body later.body := by
  cases value <;> simp only [Graph.objectOf?, Value.place?] at found ⊢ <;> try cases found
  exact follows.kept found

theorem callee? {value : Value} (known : first.Knows value) :
    second.callee? value = first.callee? value := by
  unfold Graph.callee?
  cases found : first.objectOf? value with
  | none => rw [objectOf?_none known found second]
  | some object =>
      obtain ⟨later, foundLater, _, _, nature⟩ := follows.objectOf? known found
      rw [foundLater]
      obtain ⟨parent, body, slots, extensible⟩ := object
      obtain ⟨laterParent, laterBody, laterSlots, laterExtensible⟩ := later
      rcases nature with same | ⟨_, _, _, sameBefore, sameAfter⟩
      · simp only at same
        subst same
        cases laterBody <;> rfl
      · simp only at sameBefore sameAfter
        subst sameBefore sameAfter
        rfl

theorem isCallable {value : Value} (known : first.Knows value) :
    second.isCallable value = first.isCallable value := by
  rw [Graph.isCallable, Graph.isCallable, follows.callee? known]

theorem kind {value : Value} (known : first.Knows value) :
    second.kind value = first.kind value := by
  cases value <;> simp only [Graph.kind]
  rw [follows.isCallable known]

theorem isArray {value : Value} (known : first.Knows value) :
    second.isArray value = first.isArray value := by
  unfold Graph.isArray Graph.arrayLength?
  cases found : first.objectOf? value with
  | none => rw [objectOf?_none known found second]
  | some object =>
      obtain ⟨later, foundLater, _, _, nature⟩ := follows.objectOf? known found
      rw [foundLater]
      obtain ⟨parent, body, slots, extensible⟩ := object
      obtain ⟨laterParent, laterBody, laterSlots, laterExtensible⟩ := later
      rcases nature with same | ⟨_, _, _, sameBefore, sameAfter⟩
      · simp only at same
        subst same
        cases laterBody <;> rfl
      · simp only at sameBefore sameAfter
        subst sameBefore sameAfter
        rfl

theorem isExtensible {value : Value} (known : first.Knows value) :
    second.isExtensible value = first.isExtensible value := by
  unfold Graph.isExtensible
  cases found : first.objectOf? value with
  | none => rw [objectOf?_none known found second]
  | some object =>
      obtain ⟨later, foundLater, _, same, _⟩ := follows.objectOf? known found
      simp [foundLater, same]

theorem isPlainRecord {value : Value} (known : first.Knows value) :
    second.isPlainRecord value = first.isPlainRecord value := by
  unfold Graph.isPlainRecord
  rw [follows.kind known, follows.parentOf known]

theorem descendsFrom (closed : first.Closed) {value : Value} (known : first.Knows value)
    (place : Nat) : second.descendsFrom value place = first.descendsFrom value place := by
  rw [Graph.descendsFrom, Graph.descendsFrom, follows.ancestors closed known]

theorem isArrayType (closed : first.Closed) {value : Value} (known : first.Knows value) :
    second.isArrayType value = first.isArrayType value :=
  follows.descendsFrom closed known _

theorem lineage (closed : first.Closed) {value : Value} (known : first.Knows value) :
    second.lineage value = first.lineage value := by
  unfold Graph.lineage
  rw [follows.ancestors closed known]
  have inside : ∀ place ∈ value.place?.toList ++ first.ancestors value,
      place < first.objects.size := by
    intro place member
    rcases List.mem_append.1 member with itself | above
    · cases value <;> simp [Value.place?] at itself
      subst itself
      exact knows_object.1 known
    · exact closed.ancestors_lt value place above
  generalize value.place?.toList ++ first.ancestors value = places at inside ⊢
  induction places with
  | nil => rfl
  | cons place rest inductionHypothesis =>
      have here := follows.isCallable (knows_object.2 (inside place (by simp)))
      simp only [List.takeWhile_cons, here]
      rw [inductionHypothesis fun other member => inside other (by simp [member])]

theorem fields (closed : first.Closed) {owner : Value} (known : first.Knows owner)
    (scope : Scope) : second.fields owner scope = first.fields owner scope := by
  unfold Graph.fields declarationsAt
  rw [follows.lineage closed known, follows.declared]

end Follows

/-! ## Lookups of the same ancestors -/

namespace Closed

variable {graph : Graph} (closed : graph.Closed)

include closed

theorem findSome?_placesFrom {limit : Nat} {start : Option Nat} {key : Key} {place : Nat}
    (short : limit ≤ graph.objects.size) (ended : graph.Ends limit start)
    (inside : ∀ place, start = some place → place < graph.objects.size)
    (isAsked : place ∈ upTo (fun place => (graph.ownAt? place key).isSome)
      (graph.placesFrom limit start)) :
    (graph.placesFrom limit start).findSome? (graph.ownAt? · key) =
      graph.find? (.object place) key := by
  induction limit generalizing start with
  | zero => simp [placesFrom, upTo] at isAsked
  | succ limit inductionHypothesis =>
      cases start with
      | none => simp [placesFrom, upTo] at isAsked
      | some first =>
          have above : ∀ parent, (graph.object? first).bind (·.parent) = some parent →
              parent < graph.objects.size := by
            intro parent found
            obtain ⟨object, foundObject⟩ := object?_of_lt (inside first rfl)
            simp only [foundObject, Option.bind_some] at found
            exact closed.parents foundObject found
          have complete : graph.ancestors (.object first) =
              graph.placesFrom limit ((graph.object? first).bind (·.parent)) :=
            (Follows.refl graph).placesFrom closed ended (by omega) above
          simp only [placesFrom, upTo] at isAsked
          simp only [placesFrom, List.findSome?]
          cases own : graph.ownAt? first key with
          | some property =>
              simp only [own, Option.isSome_some, if_true, List.mem_singleton] at isAsked
              subst isAsked
              simp [find?, own?, own]
          | none =>
              simp only [own, Option.isSome_none, Bool.false_eq_true, if_false,
                List.mem_cons] at isAsked
              rcases isAsked with rfl | later
              · simp [find?, own?, own, inherited?, complete]
              · exact inductionHypothesis (by omega) ended above later

/-- Every object that a lookup asks would give the same answer itself. -/
theorem find?_of_asked {value : Value} {key : Key} {place : Nat}
    (isAsked : place ∈ graph.asked value key) :
    graph.find? value key = graph.find? (.object place) key := by
  rcases List.mem_append.1 isAsked with itself | above
  · cases value <;> simp [Value.place?] at itself
    subst itself
    rfl
  · split at above
    · simp at above
    · rename_i absent
      simp only [Bool.not_eq_true, Option.isSome_eq_false_iff, Option.isNone_iff_eq_none] at absent
      rw [find?, absent]
      simp only [inherited?, ancestors] at above ⊢
      cases start : graph.parentOf value with
      | none =>
          rw [start] at above
          cases size : graph.objects.size <;> simp [size, placesFrom, upTo] at above
      | some parent =>
          rw [start] at above
          have inside := closed.parentOf start
          refine closed.findSome?_placesFrom (Nat.le_refl _) (closed.ended inside) ?_ above
          rintro _ ⟨⟩
          exact inside

end Closed

/-! ## Stores -/

theorem nature_reaching (body : Body) (key : Key) : Nature body (body.reaching key) := by
  cases body <;> cases key <;>
    first
      | exact Or.inl rfl
      | exact Or.inr ⟨_, _, _, rfl, rfl⟩

theorem follows_store (graph : Graph) (place : Nat) (key : Key) (content : Value) :
    graph.Follows (graph.store (.object place) key content) where
  size := Nat.le_of_eq (size_store graph _ key content).symm
  kept := by
    intro other object found
    by_cases same : other = place
    · subst same
      refine ⟨object.store key content, ?_, ?_⟩
      · simp [object?_store, found]
      · rw [Object.store_eq]
        exact ⟨rfl, rfl, nature_reaching object.body key⟩
    · exact ⟨object, by simp [object?_store, same, found], rfl, rfl, Or.inl rfl⟩
  declared := by
    unfold store modifyTarget
    rfl

theorem ends_store (graph : Graph) (place : Nat) (key : Key) (content : Value) (limit : Nat)
    (start : Option Nat) :
    (graph.store (.object place) key content).Ends limit start ↔ graph.Ends limit start := by
  induction limit generalizing start with
  | zero => cases start <;> rfl
  | succ limit inductionHypothesis =>
      cases start with
      | none => rfl
      | some first =>
          simp only [Ends, parent_store]
          exact inductionHypothesis _

theorem Closed.store {graph : Graph} (closed : graph.Closed) {place : Nat} {key : Key}
    {content : Value} (accepted : graph.placement (.object place) key = .slot)
    (known : graph.Knows content) : (graph.store (.object place) key content).Closed where
  classes := fun owner => by
    rw [size_store]
    exact closed.classes owner
  parents := by
    intro other parent object found isParent
    have same := parent_store graph place other key content
    rw [found, Option.bind_some, isParent] at same
    rw [size_store]
    cases before : graph.object? other with
    | none => simp [before] at same
    | some earlier =>
        simp only [before, Option.bind_some] at same
        exact closed.parents before same.symm
  contents := by
    intro other asked found flags own
    refine (follows_store graph place key content).knows ?_
    by_cases sameKey : asked = key
    · subst sameKey
      by_cases samePlace : other = place
      · subst samePlace
        obtain ⟨_, _, stored⟩ := ownAt?_store_self content accepted
        rw [stored] at own
        cases own
        exact known
      · rw [ownAt?_store_of_ne_place graph asked content asked samePlace] at own
        exact closed.contents own
    · by_cases length : asked = .name "length"
      · subst length
        have like := ownAt?_store_length graph place other content sameKey
        rw [own] at like
        cases before : graph.ownAt? other (.name "length") <;> rw [before] at like
        · cases like
        · cases like with
          | some related =>
              rcases related with same | ⟨_, _, _, _, same⟩
              · rw [← same] at before
                exact closed.contents before
              · cases same
                exact knows_of_isObject_eq_false rfl
      · rw [ownAt?_store_of_ne_key graph place other content sameKey length] at own
        exact closed.contents own
  ended := by
    intro other inside
    rw [size_store] at inside ⊢
    rw [ends_store]
    exact closed.ended inside

end ObjectPath.Graph
