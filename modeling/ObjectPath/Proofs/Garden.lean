import ObjectPath.Proofs.Forest
import ObjectPath.Proofs.Newborn

/-!
# Gardens

A garden is a graph with trees of plain data that paths are written into, by steps that are known
beforehand.  What the trees find outside of themselves never changes: nobody writes to what is
around them.  New objects make new trees, and a value that is put into a slot takes its tree along,
so there are trees after every change.
-/

namespace ObjectPath

open Graph

/-! ## Values that a change is clear of -/

namespace Graph

/-- None of some values is an object that a value is or inherits from. -/
def Clear (graph : Graph) (touched : Value → Prop) (value : Value) : Prop :=
  ∀ place ∈ value.place?.toList ++ graph.ancestors value, ¬ touched (.object place)

theorem findSome?_congr {α β : Type} {find later : α → Option β} {holders : List α}
    (same : ∀ holder ∈ holders, later holder = find holder) :
    holders.findSome? later = holders.findSome? find := by
  induction holders with
  | nil => rfl
  | cons holder rest inductionHypothesis =>
      rw [List.findSome?_cons, List.findSome?_cons, same holder (List.mem_cons_self ..),
        inductionHypothesis fun other member => same other (List.mem_cons_of_mem holder member)]

namespace Undisturbed

variable {start graph : Graph} {touched : Value → Prop}
  (undisturbed : start.Undisturbed touched graph) (closed : start.Closed)
include undisturbed

theorem ownAt? {place : Nat} (inside : place < start.objects.size)
    (clear : ¬ touched (.object place)) (key : Key) :
    graph.ownAt? place key = start.ownAt? place key := by
  rw [Graph.ownAt?, Graph.ownAt?, undisturbed.untouched inside clear]

section Value

variable {value : Value} (known : start.Knows value) (clear : start.Clear touched value)
include known clear

theorem own? (key : Key) : graph.own? value key = start.own? value key := by
  cases value with
  | object place =>
      exact undisturbed.ownAt? (knows_object.1 known)
        (clear place (List.mem_append_left _ (by simp [Value.place?]))) key
  | _ => rfl

include closed

theorem inherited? (key : Key) : graph.inherited? value key = start.inherited? value key := by
  rw [Graph.inherited?, Graph.inherited?, undisturbed.same.ancestors closed known]
  exact findSome?_eq_of_upTo _ fun place above =>
    undisturbed.ownAt? (closed.ancestors_lt _ place (Closed.mem_upTo above))
      (clear place (List.mem_append_right _ (Closed.mem_upTo above))) key

theorem find?_of_clear (key : Key) : graph.find? value key = start.find? value key := by
  rw [Graph.find?, Graph.find?, undisturbed.own? known clear,
    undisturbed.inherited? closed known clear]

theorem look? (key : Key) : graph.look? value key = start.look? value key := by
  rw [Graph.look?, Graph.look?, undisturbed.find?_of_clear closed known clear]

theorem placement (key : Key) : graph.placement value key = start.placement value key := by
  unfold Graph.placement Graph.isLength
  rw [undisturbed.own? known clear, undisturbed.inherited? closed known clear,
    undisturbed.same.isExtensible known, undisturbed.same.isArray known]

/-- What the objects that a holder inherits from have under a name stays what it is. -/
theorem ownAmong? (name : String) (scope : Scope) :
    ObjectPath.ownAmong? graph (holdersFrom graph value scope) name =
      ObjectPath.ownAmong? start (holdersFrom start value scope) name := by
  unfold ObjectPath.ownAmong? holdersFrom
  rw [undisturbed.same.ancestors closed known]
  split
  · refine findSome?_congr fun holder member => ?_
    rcases List.mem_cons.1 ((List.takeWhile_prefix _).subset member) with rfl | above
    · exact undisturbed.own? known clear _
    · obtain ⟨place, isAncestor, rfl⟩ := List.mem_map.1 above
      exact undisturbed.ownAt? (closed.ancestors_lt _ place isAncestor)
        (clear place (List.mem_append_right _ isAncestor)) _
  · rfl

/-- A value has the fields that it had, if nothing was written to what its class shares. -/
theorem field?
    (clearClass : start.Clear touched (start.member (start.classOf value) (.name "prototype")))
    (name : String) : graph.field? value name = start.field? value name := by
  have sameClass : graph.classOf value = start.classOf value :=
    undisturbed.same.classOf closed known
  have shared : graph.shared? (start.classOf value) name = start.shared? (start.classOf value) name := by
    unfold Graph.shared?
    rw [undisturbed.same.member_class closed (closed.classOf_known value) _ (by decide)]
    exact undisturbed.ownAmong? closed (closed.member_known _ _) clearClass name .onInstance
  have callable : ∀ {content : Value}, start.Knows content →
      graph.isCallable content = start.isCallable content := undisturbed.same.isCallable
  have undeclared : graph.hasUndeclared (start.classOf value) value name =
      start.hasUndeclared (start.classOf value) value name := by
    unfold hasUndeclared
    rw [shared]
    cases found : start.shared? (start.classOf value) name with
    | some property =>
        cases property with
        | data content flags =>
            have knownContent : start.Knows content := by
              obtain ⟨holder, _, own⟩ := List.exists_of_findSome?_eq_some found
              exact closed.own_known own
            simp only [holdsFunction, callable knownContent]
        | accessor => rfl
    | none =>
        dsimp only
        rw [undisturbed.look? closed known clear]
        cases looked : start.look? value (.ofText name) with
        | none => rfl
        | some content =>
            simp only [hasOpenField, Graph.has, undisturbed.find?_of_clear closed known clear,
              callable (closed.look?_known looked), undisturbed.same.isPlainRecord known]
  simp only [Graph.field?, sameClass, undisturbed.same.fields closed (closed.classOf_known value),
    undeclared]

/-- A value opens the steps that it opened. -/
theorem opens
    (clearClass : start.Clear touched (start.member (start.classOf value) (.name "prototype")))
    (step : Step) : graph.Opens value step ↔ start.Opens value step := by
  cases step with
  | field name => rw [Opens, Opens, undisturbed.field? closed known clear clearClass]
  | element index => exact Iff.rfl

end Value

include closed in
/-- An object takes what it took. -/
theorem accepts {place : Nat} (known : start.Knows (.object place))
    (clear : start.Clear touched (.object place)) {step : Step} (accepts : graph.Accepts place step) :
    start.Accepts place step where
  slot := (undisturbed.placement closed known clear step.key).symm.trans accepts.slot
  array := fun index isElement =>
    (undisturbed.same.isArray known).symm.trans (accepts.array index isElement)

end Undisturbed

end Graph

/-! ## Gardens -/

/-- Trees of plain data that paths are written into: the graph at the start, the steps of all the
paths, values that new objects inherit from, the values around the trees, and the places of the
objects in them. -/
structure Garden where
  start : Graph
  steps : List Step
  grounds : List Value
  around : Value → Prop
  planted : Nat → Prop

namespace Garden

variable (garden : Garden)

/-- The keys of the slots that the paths name. -/
def keys : List Key :=
  garden.steps.map Step.key

/-- The objects of the trees. -/
def trees (value : Value) : Prop :=
  ∃ place, value = .object place ∧ garden.planted place

/-- A new object is a tree by itself: it inherits from objects that were there from the start, from
none of the trees, and finds nothing but what is around them. -/
structure Sprouts (object : Object) (parent : Nat) : Prop where
  isParent : object.parent = some parent
  known : parent < garden.start.objects.size
  clear : garden.start.Clear garden.trees (.object parent)
  finds : ∀ key ∈ garden.keys, ∃ content, (garden.start.adding object).look?
    (.object garden.start.objects.size) key = some content ∧ garden.around content

/-- The trees hold nothing but one another and what is around them, and what is around them has
nothing to do with them: it inherits from none of their objects, and neither do new records, new
arrays and the types of arrays.  No path can be written into what is around the trees. -/
structure Fenced : Prop where
  sound : garden.start.Sound
  forest : garden.start.Forest garden.keys garden.around garden.planted
  surrounds : garden.start.Surrounds garden.keys garden.around garden.planted
  noLength : Key.name "length" ∉ garden.keys
  classes : ∀ {place : Nat}, garden.around (.object place) → garden.start.Clear garden.trees
    (garden.start.member (garden.start.classOf (.object place)) (.name "prototype"))
  closed : ∀ {place : Nat} {step : Step}, garden.around (.object place) → step ∈ garden.steps →
    garden.start.Opens (.object place) step → ¬ garden.start.Accepts place step
  arrayTypes : garden.start.Clear garden.trees (.object BuiltinClass.arrayType.sharedPlace)
  record : garden.Sprouts (blankObject .object .plain) BuiltinClass.object.sharedPlace
  array : garden.Sprouts (blankObject .array (.items 0 true)) BuiltinClass.array.sharedPlace
  zeros : garden.around (.number (.ofNat 0)) ∧ garden.around (.boolean false) ∧
    garden.around (.string "")
  furnished : sharedValues ⊆ garden.grounds
  grounded : ∀ value ∈ garden.grounds,
    garden.start.Knows value ∧ garden.start.Plain garden.keys 0 value

/-- A graph that the garden has come to, with the places of the objects that are in trees now. -/
structure Stands (graph : Graph) (inside : Nat → Prop) : Prop where
  sound : graph.Sound
  since : garden.start.Undisturbed garden.trees graph
  forest : graph.Forest garden.keys garden.around inside
  planted : ∀ {place : Nat}, garden.planted place → inside place
  old : ∀ {place : Nat}, inside place → place < garden.start.objects.size → garden.planted place
  grounded : ∀ value ∈ garden.grounds, graph.Knows value ∧ graph.Plain garden.keys 0 value

variable {garden}

theorem Fenced.stands (fenced : garden.Fenced) :
    garden.Stands garden.start garden.planted where
  sound := fenced.sound
  since := .refl _ _
  forest := fenced.forest
  planted := id
  old := fun isPlanted _ => isPlanted
  grounded := fenced.grounded

theorem Fenced.clear (fenced : garden.Fenced) {value : Value} (isAround : garden.around value) :
    garden.start.Clear garden.trees value := by
  rintro place which ⟨_, ⟨⟩, isPlanted⟩
  rcases List.mem_append.1 which with itself | above
  · cases value <;> simp only [Value.place?, Option.toList_none, Option.toList_some,
      List.not_mem_nil, List.mem_singleton] at itself
    subst itself
    exact fenced.forest.outer isAround isPlanted
  · exact fenced.surrounds.apart isAround above isPlanted

variable {graph after : Graph} {inside : Nat → Prop}

namespace Stands

variable (stands : garden.Stands graph inside) (fenced : garden.Fenced)
include stands fenced

/-- What was around the trees at the start is around them still. -/
theorem surrounds : graph.Surrounds garden.keys garden.around inside where
  known := fun isAround => stands.since.same.knows (fenced.surrounds.known isAround)
  like := fenced.surrounds.like
  looked := by
    intro value key isAround present named
    rw [stands.since.look? fenced.sound.toClosed (fenced.surrounds.known isAround)
      (fenced.clear isAround)]
    exact fenced.surrounds.looked isAround present named
  missing := fenced.surrounds.missing
  apart := by
    intro value place isAround above isInside
    have closed := fenced.sound.toClosed
    rw [stands.since.same.ancestors closed (fenced.surrounds.known isAround)] at above
    exact fenced.surrounds.apart isAround above
      (stands.old isInside (closed.ancestors_lt _ place above))

/-- What is around the trees takes no value still. -/
theorem not_accepts {place : Nat} {step : Step} (isAround : garden.around (.object place))
    (listed : step ∈ garden.steps) (opens : graph.Opens (.object place) step) :
    ¬ graph.Accepts place step := by
  intro accepts
  have closed := fenced.sound.toClosed
  have known := fenced.surrounds.known isAround
  have clear := fenced.clear isAround
  exact fenced.closed isAround listed
    ((stands.since.opens closed known clear (fenced.classes isAround) step).1 opens)
    (stands.since.accepts closed known clear accepts)

theorem knows {value : Value} (belongs : Belongs garden.around inside value) :
    graph.Knows value :=
  belongs.knows stands.forest (stands.surrounds fenced)

theorem plain {value : Value} (belongs : Belongs garden.around inside value) :
    graph.Plain garden.keys 0 value :=
  belongs.plain stands.forest (stands.surrounds fenced)

/-- An object to which a write comes is one of a tree. -/
theorem holder {place : Nat} (belongs : Belongs garden.around inside (.object place)) {step : Step}
    (listed : step ∈ garden.steps) (opens : graph.Opens (.object place) step)
    (accepts : graph.Accepts place step) : inside place := by
  rcases belongs with isAround | ⟨other, same, isInside⟩
  · exact absurd accepts (stands.not_accepts fenced isAround listed opens)
  · cases same
    exact isInside

/-- The types of arrays inherit from no object of a tree. -/
theorem not_asked {place : Nat} (isInside : inside place) {type : Value} (key : Key)
    (isArrayType : graph.isArrayType type = true ∨
      type = .object BuiltinClass.arrayType.sharedPlace) : place ∉ graph.asked type key := by
  have closed := fenced.sound.toClosed
  have knownShared : garden.start.Knows (.object BuiltinClass.arrayType.sharedPlace) :=
    knows_object.2 (closed.shared _)
  have clear : ∀ other ∈ BuiltinClass.arrayType.sharedPlace ::
      graph.ancestors (.object BuiltinClass.arrayType.sharedPlace), other ≠ place := by
    rintro other which rfl
    rw [stands.since.same.ancestors closed knownShared] at which
    have inStart : other < garden.start.objects.size := by
      rcases List.mem_cons.1 which with rfl | above
      · exact closed.shared _
      · exact closed.ancestors_lt _ other above
    refine fenced.arrayTypes other ?_ ⟨other, rfl, stands.old isInside inStart⟩
    simpa [Value.place?] using which
  intro isAsked
  rcases isArrayType with isArrayType | rfl
  · have noType := (stands.forest.data isInside).2
    rcases mem_asked isAsked with rfl | above
    · rw [isArrayType] at noType
      cases noType
    · simp only [Graph.isArrayType, descendsFrom, Bool.and_eq_true,
        List.contains_iff_mem] at isArrayType
      rcases stands.sound.toClosed.ancestors_linear isArrayType.2 above with same | below | higher
      · exact clear _ (List.mem_cons_self ..) same
      · rw [Graph.isArrayType, descendsFrom, List.contains_iff_mem.2 below] at noType
        cases noType
      · exact clear place (List.mem_cons_of_mem _ higher) rfl
  · rcases mem_asked isAsked with same | above
    · cases same
      exact clear _ (List.mem_cons_self ..) rfl
    · exact clear place (List.mem_cons_of_mem _ above) rfl

/-- New objects leave the trees standing. -/
theorem later (extends_ : graph.Extends after) (sound : after.Sound) :
    garden.Stands after inside where
  sound := sound
  since := ⟨stands.since.same.trans fenced.sound.toClosed (extends_.sameTypes stands.sound),
    fun inStart clear => (extends_.objects (Nat.lt_of_lt_of_le inStart
      stands.since.same.size)).trans (stands.since.untouched inStart clear)⟩
  forest := stands.forest.later stands.sound.toClosed extends_
  planted := stands.planted
  old := stands.old
  grounded := fun value listed =>
    have ⟨known, plain⟩ := stands.grounded value listed
    ⟨extends_.follows.knows known, plain.extends extends_ stands.sound.toClosed known⟩

/-- A value of the trees that no slot holds can be stored in any slot of them. -/
theorem store {place : Nat} {key : Key} {content : Value} (holder : inside place)
    (accepted : graph.placement (.object place) key = .slot) (noClass : key ∉ classKeys)
    (belongs : Belongs garden.around inside content)
    (free : ∀ child, content = .object child → inside child →
      graph.Loose garden.keys inside child) :
    garden.Stands (graph.store (.object place) key content) inside where
  sound := by
    refine stands.sound.store_of_kept accepted (stands.knows fenced belongs) ?_
      fun _ => (stands.forest.data holder).1
    intro value asked isNamingKey isType
    by_cases same : asked = key
    · subst same
      exact find?_store_of_not_asked graph asked content
        (stands.not_asked fenced holder asked (isType.imp_right And.left))
    · refine find?_store_of_ne graph place content value same ?_
      rintro rfl
      revert isNamingKey
      decide
  since := by
    have same := sameTypes_store accepted (stands.knows fenced belongs) noClass
      fun _ type isArrayType => stands.not_asked fenced holder key (Or.inl isArrayType)
    refine ⟨stands.since.same.trans fenced.sound.toClosed same, fun {other} inStart clear => ?_⟩
    have different : other ≠ place := by
      rintro rfl
      exact clear ⟨other, rfl, stands.old holder inStart⟩
    rw [object?_store, if_neg different]
    exact stands.since.untouched inStart clear
  forest := stands.forest.store fenced.noLength accepted holder belongs free
  planted := stands.planted
  old := stands.old
  grounded := fun value listed =>
    have ⟨known, plain⟩ := stands.grounded value listed
    ⟨(follows_store graph place key content).knows known,
      plain.store accepted (stands.plain fenced belongs)⟩

end Stands

/-! ## What becomes of trees -/

/-- The trees have come from one graph to a later one: there may be new objects in them, old ones
stay in them or out of them, and what no slot held is held by none. -/
structure Tends (garden : Garden) (before : Graph) (inside : Nat → Prop) (after : Graph)
    (later : Nat → Prop) : Prop where
  stands : garden.Stands after later
  size : before.objects.size ≤ after.objects.size
  grown : ∀ {place : Nat}, inside place → later place
  old : ∀ {place : Nat}, later place → place < before.objects.size → inside place
  loose : ∀ {place : Nat}, inside place → place < before.objects.size →
    before.Loose garden.keys inside place → after.Loose garden.keys later place

/-- A value is new, and no slot holds it. -/
def Free (garden : Garden) (size : Nat) (graph : Graph) (inside : Nat → Prop) (value : Value) :
    Prop :=
  ∀ child, value = .object child → inside child →
    size ≤ child ∧ graph.Loose garden.keys inside child

namespace Tends

variable {before : Graph} {later final : Nat → Prop} {last : Graph}

theorem refl (stands : garden.Stands graph inside) : garden.Tends graph inside graph inside :=
  ⟨stands, Nat.le_refl _, id, fun isInside _ => isInside, fun _ _ => id⟩

theorem trans (left : garden.Tends before inside after later)
    (right : garden.Tends after later last final) : garden.Tends before inside last final where
  stands := right.stands
  size := Nat.le_trans left.size right.size
  grown := fun isInside => right.grown (left.grown isInside)
  old := fun isFinal below => left.old (right.old isFinal (Nat.lt_of_lt_of_le below left.size)) below
  loose := fun isInside below loose => right.loose (left.grown isInside)
    (Nat.lt_of_lt_of_le below left.size) (left.loose isInside below loose)

theorem of_extends (fenced : garden.Fenced) (stands : garden.Stands before inside)
    (extends_ : before.Extends after) (sound : after.Sound) :
    garden.Tends before inside after inside where
  stands := stands.later fenced extends_ sound
  size := extends_.size
  grown := id
  old := fun isInside _ => isInside
  loose := by
    intro place _ _ loose other key isOther named
    rw [extends_.look? stands.sound.toClosed (knows_object.2 (stands.forest.known isOther))]
    exact loose isOther named

/-- A new value that no slot holds is stored in a slot of the trees. -/
theorem store (fenced : garden.Fenced) (tends : garden.Tends before inside after later) {place : Nat}
    {key : Key} {content : Value} (holder : later place)
    (accepted : after.placement (.object place) key = .slot) (noClass : key ∉ classKeys)
    (belongs : Belongs garden.around later content)
    (free : garden.Free before.objects.size after later content) :
    garden.Tends before inside (after.store (.object place) key content) later where
  stands := tends.stands.store fenced holder accepted noClass belongs fun child same isChild =>
    (free child same isChild).2
  size := by
    rw [size_store]
    exact tends.size
  grown := tends.grown
  old := tends.old
  loose := by
    intro other isInside below loose
    refine tends.stands.forest.loose_store fenced.noLength accepted holder
      (tends.loose isInside below loose) ?_
    rintro rfl
    exact Nat.not_le.2 below (free other rfl (tends.grown isInside)).1

/-- New trees join those that are there. -/
theorem join (fenced : garden.Fenced) (stands : garden.Stands before inside)
    (extends_ : before.Extends after) (sound : after.Sound) {fresh : Nat → Prop}
    (newForest : after.Forest garden.keys garden.around fresh)
    (new : ∀ place, fresh place → before.objects.size ≤ place)
    (outer : ∀ place other, fresh place → other ∈ after.ancestors (.object place) →
      ¬ inside other) :
    garden.Tends before inside after fun place => inside place ∨ fresh place where
  stands := { stands.later fenced extends_ sound with
    forest := stands.forest.join stands.sound.toClosed extends_ newForest new outer
    planted := fun isPlanted => Or.inl (stands.planted isPlanted)
    old := fun isInside inStart => stands.old (isInside.resolve_right fun isFresh =>
      Nat.not_le.2 inStart (Nat.le_trans stands.since.same.size (new _ isFresh))) inStart }
  size := extends_.size
  grown := Or.inl
  old := fun isInside below =>
    isInside.resolve_right fun isFresh => Nat.not_le.2 below (new _ isFresh)
  loose := fun isInside _ loose => stands.forest.loose_join stands.sound.toClosed extends_ newForest
    new isInside loose

end Tends

/-! ## New values -/

/-- A value that was made has joined the trees, and no slot holds it. -/
def Yields (garden : Garden) (before : Graph) (inside : Nat → Prop) (made : Value)
    (after : Graph) : Prop :=
  ∃ later, garden.Tends before inside after later ∧ Belongs garden.around later made ∧
    garden.Free before.objects.size after later made

/-- A new object and all new objects below it form a tree.  They inherit from objects that were
there from the start, and from none of the trees. -/
structure Seedling (garden : Garden) (before : Graph) (made : Value) (after : Graph)
    (fresh : Nat → Prop) : Prop where
  root : ∃ place, made = .object place ∧ fresh place ∧ after.Loose garden.keys fresh place
  forest : after.Forest garden.keys garden.around fresh
  new : ∀ place, fresh place → before.objects.size ≤ place
  outer : ∀ place other, fresh place → other ∈ after.ancestors (.object place) →
    other < before.objects.size →
      other < garden.start.objects.size ∧ ¬ garden.planted other

variable {before : Graph} {made type : Value}

theorem Seedling.yields {fresh : Nat → Prop} (seedling : garden.Seedling before made after fresh)
    (fenced : garden.Fenced) (stands : garden.Stands before inside)
    (extends_ : before.Extends after) (sound : after.Sound) :
    garden.Yields before inside made after := by
  obtain ⟨place, rfl, isFresh, loose⟩ := seedling.root
  refine ⟨_, .join fenced stands extends_ sound seedling.forest seedling.new ?_,
    Or.inr ⟨place, rfl, Or.inr isFresh⟩, ?_⟩
  · intro place other isFresh above isInside
    obtain ⟨inStart, notPlanted⟩ :=
      seedling.outer place other isFresh above (stands.forest.known isInside)
    exact notPlanted (stands.old isInside inStart)
  · rintro _ ⟨⟩ _
    exact ⟨seedling.new place isFresh, stands.forest.loose_fresh stands.sound.toClosed extends_
      seedling.new isFresh loose⟩

/-- A value that is around the trees is at hand. -/
theorem Stands.yields (stands : garden.Stands graph inside) (isAround : garden.around made) :
    garden.Yields graph inside made graph := by
  refine ⟨inside, .refl stands, Or.inl isAround, ?_⟩
  rintro child rfl isChild
  exact absurd isChild (stands.forest.outer isAround)

section Sprouts

variable (stands : garden.Stands graph inside) (fenced : garden.Fenced) {object : Object}
  {parent : Nat} (sprouts : garden.Sprouts object parent)
include stands fenced sprouts

/-- A new object inherits from objects that are in no tree. -/
theorem Stands.above_sprout {other : Nat}
    (above : other ∈ (graph.adding object).ancestors (.object graph.objects.size)) :
    other < garden.start.objects.size ∧ ¬ garden.planted other := by
  have closed := fenced.sound.toClosed
  rw [stands.sound.toClosed.ancestors_adding sprouts.isParent
      (Nat.lt_of_lt_of_le sprouts.known stands.since.same.size),
    stands.since.same.ancestors closed (knows_object.2 sprouts.known)] at above
  refine ⟨?_, fun isPlanted => sprouts.clear other (by simpa [Value.place?] using above)
    ⟨other, rfl, isPlanted⟩⟩
  rcases List.mem_cons.1 above with rfl | higher
  · exact sprouts.known
  · exact closed.ancestors_lt _ other higher

/-- A new object finds nothing but what is around the trees. -/
theorem Stands.look?_sprout {key : Key} (named : key ∈ garden.keys) :
    ∃ content, (graph.adding object).look? (.object graph.objects.size) key = some content ∧
      garden.around content := by
  obtain ⟨content, looked, isAround⟩ := sprouts.finds key named
  refine ⟨content, ?_, isAround⟩
  rw [← looked, Graph.look?, Graph.look?]
  cases isOwn : object.own? key with
  | some property => rw [find?_adding_own graph isOwn, find?_adding_own garden.start isOwn]
  | none =>
      rw [stands.sound.toClosed.find?_adding sprouts.isParent
          (Nat.lt_of_lt_of_le sprouts.known stands.since.same.size) isOwn,
        fenced.sound.toClosed.find?_adding sprouts.isParent sprouts.known isOwn,
        stands.since.find?_of_clear fenced.sound.toClosed (knows_object.2 sprouts.known)
          sprouts.clear]

/-- A new object that is neither a function nor a type of arrays makes a tree by itself. -/
theorem Stands.seedling_sprout (noFunction : ∀ callee, object.body ≠ .function callee)
    (noArrayType : (graph.adding object).isArrayType (.object graph.objects.size) = false) :
    garden.Seedling graph (.object graph.objects.size) (graph.adding object)
      (· = graph.objects.size) := by
  have below := stands.since.same.size
  have notAround : ¬ garden.around (.object graph.objects.size) := fun isAround =>
    Nat.not_le.2 (knows_object.1 (fenced.surrounds.known isAround)) below
  have notHeld : ∀ {key : Key}, key ∈ garden.keys →
      (graph.adding object).look? (.object graph.objects.size) key ≠
        some (.object graph.objects.size) := by
    intro key named looked
    obtain ⟨content, found, isAround⟩ := stands.look?_sprout fenced sprouts named
    rw [looked, Option.some.injEq] at found
    exact notAround (found ▸ isAround)
  refine ⟨⟨_, rfl, rfl, ?_⟩, ⟨?_, ?_, ?_, ?_, ?_, ?_⟩, ?_, ?_⟩
  · rintro _ key rfl named
    exact notHeld named
  · rintro _ rfl
    rw [size_adding]
    omega
  · rintro _ isAround rfl
    exact notAround isAround
  · rintro _ rfl
    refine ⟨?_, noArrayType⟩
    rw [Graph.isCallable, callee?_adding noFunction]
    rfl
  · rintro _ key rfl named
    obtain ⟨content, looked, isAround⟩ := stands.look?_sprout fenced sprouts named
    exact ⟨content, looked, Or.inl isAround⟩
  · rintro _ _ _ key _ rfl rfl rfl named _ looked _
    exact absurd looked (notHeld named)
  · rintro _ _ rfl above rfl
    exact Nat.not_le.2 (stands.above_sprout fenced sprouts above).1 below
  · rintro _ rfl
    exact Nat.le_refl _
  · rintro _ other rfl above _
    exact stands.above_sprout fenced sprouts above

end Sprouts

/-! ## The default factory -/

variable (garden) in
/-- What the writes of a garden rely on and keep from a graph on. -/
def scene (origin : Graph) : Scene :=
  ⟨origin, garden.keys, garden.keys, garden.grounds, True⟩

theorem Stands.holds (stands : garden.Stands graph inside) : (garden.scene graph).Holds graph where
  sound := stands.sound
  grows := (Extends.refl graph).grows stands.sound.toClosed
  known := fun value listed => (stands.grounded value listed).1
  plain := fun value listed => (stands.grounded value listed).2

theorem Fenced.furnished_scene (fenced : garden.Fenced) (origin : Graph) :
    (garden.scene origin).Furnished :=
  fun _ listed => fenced.furnished (List.mem_map_of_mem listed)

variable (garden) in
/-- The constructors of the classes that the default factory has no value of its own for make new
plain data, or fail, whenever the garden stands. -/
def Constructs : Prop :=
  ∀ {graph : Graph} {inside : Nat → Prop}, garden.Stands graph inside →
    (garden.scene graph).Constructs

variable (garden) in
/-- The constructors of the classes that the default factory has no value of its own for make new
trees, or fail, whenever the garden stands. -/
def Bears : Prop :=
  ∀ {graph : Graph} {inside : Nat → Prop} {type : Value}, garden.Stands graph inside →
    graph.Requested type → type ≠ openType → graph.isArrayType type = false →
      Entries.get? (ProducerTable.standard .standard).producers type = none →
        Ensures (Run.newInstance type []) graph
          (fun made after => ∃ fresh, garden.Seedling graph made after fresh) fun _ _ => True

theorem supplies_standard (fenced : garden.Fenced) (constructs : garden.Constructs)
    (stands : garden.Stands graph inside) (arguments : Option ArgumentMap) :
    (garden.scene graph).Supplies 0 standardFactory arguments :=
  Scene.supplies_standard (fenced.furnished_scene graph) (constructs stands) arguments

/-- The values of the default factory join the trees. -/
theorem yields_standard (fenced : garden.Fenced) (bears : garden.Bears)
    (stands : garden.Stands graph inside) (requested : graph.Requested type)
    {origin : Graph} (holds : (garden.scene origin).Holds graph)
    (constructs : (garden.scene origin).Constructs) (arguments : Option ArgumentMap) :
    Ensures (standardFactory type arguments) graph
      (fun made after => garden.Yields graph inside made after) fun _ _ => True := by
  unfold standardFactory ProducerTable.supply
  cases found : Entries.get? (ProducerTable.standard .standard).producers type with
  | some producer =>
      change Ensures (producer.run arguments) graph _ _
      obtain ⟨zero, no, empty⟩ := fenced.zeros
      rcases Scene.producers_standard found with ⟨_, rfl⟩ | ⟨_, rfl⟩ | ⟨_, rfl⟩ <;>
        simp only [Producer.run, Run.build, Template.build]
      · exact stands.yields zero
      · exact stands.yields no
      · exact stands.yields empty
  | none =>
      refine Ensures.get_bind ?_
      cases isArrayType : graph.isArrayType type with
      | true =>
          have sound : (graph.adding (blankObject .array (.items 0 true))).Sound :=
            stands.sound.adding_blank (by decide) (fun _ => by rintro ⟨⟩) Scene.own?_emptyArray
          have yields : garden.Yields graph inside (.object graph.objects.size)
              (graph.adding (blankObject .array (.items 0 true))) :=
            (stands.seedling_sprout fenced fenced.array (fun _ => by rintro ⟨⟩)
              (stands.sound.isArrayType_adding _ (by decide))).yields fenced stands
                (extends_adding graph _) sound
          exact yields
      | false =>
          rw [if_neg Bool.false_ne_true]
          by_cases isOpen : type = openType
          · subst isOpen
            have sound : (graph.adding (blankObject .object .plain)).Sound :=
              stands.sound.adding_blank (by decide) (fun _ => by rintro ⟨⟩) fun _ _ => by rintro ⟨⟩
            exact Ensures.of_ok (Scene.newInstance_openType stands.sound.openClass)
              ((stands.seedling_sprout fenced fenced.record (fun _ => by rintro ⟨⟩)
                (stands.sound.isArrayType_adding _ (by decide))).yields fenced stands
                  (extends_adding graph _) sound)
          · refine (Ensures.and (constructs holds requested isOpen isArrayType found)
              (bears stands requested isOpen isArrayType found)).mono ?_ fun _ _ _ => trivial
            rintro made after ⟨made_, fresh, seedling⟩
            exact seedling.yields fenced stands made_.extends_ made_.sound

end Garden

end ObjectPath
