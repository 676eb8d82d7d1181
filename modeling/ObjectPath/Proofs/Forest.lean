import Mathlib.Data.List.Induction
import ObjectPath.Proofs.Allocation
import ObjectPath.Proofs.Footprint
import ObjectPath.Proofs.Storing

/-!
# Trees of plain data

Objects form trees for some keys if whatever they find under those keys is one of them or a value
around them, and no two slots hold one of them.  Then each of them is reached in one way only, so
what is written at one place is not read at another.  New trees can be added, and a tree that no
slot holds can be put into any slot; what was in the slot becomes a tree that no slot holds.
-/

namespace ObjectPath.Graph

/-! ## Chains of ancestors -/

namespace Closed

variable {graph : Graph} (closed : graph.Closed)
include closed

theorem ancestors_of_parentOf {value : Value} {parent : Nat}
    (isParent : graph.parentOf value = some parent) :
    graph.ancestors value = parent :: graph.ancestors (.object parent) := by
  rw [ancestors, isParent]
  exact closed.placesFrom_parent (closed.parentOf isParent)

/-- Above an ancestor are the ancestors that it has itself. -/
theorem ancestors_append {value : Value} {below rest : List Nat} {place : Nat}
    (chain : graph.ancestors value = below ++ place :: rest) :
    rest = graph.ancestors (.object place) := by
  induction below generalizing value with
  | nil =>
      cases isParent : graph.parentOf value with
      | none =>
          rw [ancestors, isParent] at chain
          cases size : graph.objects.size <;> simp [size, placesFrom] at chain
      | some parent =>
          rw [closed.ancestors_of_parentOf isParent, List.nil_append, List.cons.injEq] at chain
          rw [← chain.1, chain.2]
  | cons lowest others inductionHypothesis =>
      cases isParent : graph.parentOf value with
      | none =>
          rw [ancestors, isParent] at chain
          cases size : graph.objects.size <;> simp [size, placesFrom] at chain
      | some parent =>
          rw [closed.ancestors_of_parentOf isParent, List.cons_append, List.cons.injEq] at chain
          exact inductionHypothesis chain.2

/-- Of two ancestors of a value, one is above the other. -/
theorem ancestors_linear {value : Value} {place other : Nat}
    (above : place ∈ graph.ancestors value) (aboveToo : other ∈ graph.ancestors value) :
    place = other ∨ place ∈ graph.ancestors (.object other) ∨
      other ∈ graph.ancestors (.object place) := by
  obtain ⟨below, rest, chain⟩ := List.append_of_mem above
  rw [chain, List.mem_append, List.mem_cons, closed.ancestors_append chain] at aboveToo
  rcases aboveToo with lower | rfl | higher
  · obtain ⟨lowest, between, rfl⟩ := List.append_of_mem lower
    rw [List.append_assoc, List.cons_append] at chain
    rw [← closed.ancestors_append chain]
    exact Or.inr (Or.inl (by simp))
  · exact Or.inl rfl
  · exact Or.inr (Or.inr higher)

end Closed

/-! ## Trees -/

/-- A value belongs to some objects: it is one of them or a value around them. -/
def Belongs (around : Value → Prop) (inside : Nat → Prop) (value : Value) : Prop :=
  around value ∨ ∃ place, value = .object place ∧ inside place

/-- Objects that form trees for some keys: what they find belongs to them, and no two slots hold
one of them.  They are neither functions nor types of arrays, and inherit from none of them. -/
structure Forest (graph : Graph) (keys : List Key) (around : Value → Prop)
    (inside : Nat → Prop) : Prop where
  known : ∀ {place : Nat}, inside place → place < graph.objects.size
  outer : ∀ {place : Nat}, around (.object place) → ¬ inside place
  data : ∀ {place : Nat}, inside place →
    graph.isCallable (.object place) = false ∧ graph.isArrayType (.object place) = false
  looked : ∀ {place : Nat} {key : Key}, inside place → key ∈ keys →
    ∃ content, graph.look? (.object place) key = some content ∧ Belongs around inside content
  alone : ∀ {place other child : Nat} {key otherKey : Key}, inside place → inside other →
    inside child → key ∈ keys → otherKey ∈ keys →
      graph.look? (.object place) key = some (.object child) →
        graph.look? (.object other) otherKey = some (.object child) →
          place = other ∧ key = otherKey
  apart : ∀ {place other : Nat}, inside place → other ∈ graph.ancestors (.object place) →
    ¬ inside other

/-- No slot of some objects holds the object at a place. -/
def Loose (graph : Graph) (keys : List Key) (inside : Nat → Prop) (child : Nat) : Prop :=
  ∀ {place : Nat} {key : Key}, inside place → key ∈ keys →
    graph.look? (.object place) key ≠ some (.object child)

variable {graph before after : Graph} {keys : List Key} {around : Value → Prop}
  {inside fresh : Nat → Prop}

theorem Belongs.mono {later : Nat → Prop} {value : Value} (belongs : Belongs around inside value)
    (weaker : ∀ place, inside place → later place) : Belongs around later value :=
  belongs.imp_right fun ⟨place, same, isInside⟩ => ⟨place, same, weaker place isInside⟩

namespace Forest

/-- What an object of a tree inherits from is in no tree. -/
theorem not_asked (forest : graph.Forest keys around inside) {place other : Nat}
    (isInside : inside place) (isOther : inside other) (different : place ≠ other) (key : Key) :
    place ∉ graph.asked (.object other) key := by
  intro isAsked
  rcases mem_asked isAsked with same | above
  · cases same
    exact different rfl
  · exact forest.apart isOther above isInside

/-! ## New trees -/

/-- New objects leave trees as they are. -/
theorem later (forest : before.Forest keys around inside) (closed : before.Closed)
    (extends_ : before.Extends after) : after.Forest keys around inside where
  known := fun isInside => Nat.lt_of_lt_of_le (forest.known isInside) extends_.size
  outer := forest.outer
  data := by
    intro place isInside
    have known := knows_object.2 (forest.known isInside)
    rw [extends_.follows.isCallable known, extends_.follows.isArrayType closed known]
    exact forest.data isInside
  looked := by
    intro place key isInside named
    rw [extends_.look? closed (knows_object.2 (forest.known isInside))]
    exact forest.looked isInside named
  alone := by
    intro place other child key otherKey isInside isOther isChild named otherNamed
    rw [extends_.look? closed (knows_object.2 (forest.known isInside)),
      extends_.look? closed (knows_object.2 (forest.known isOther))]
    exact forest.alone isInside isOther isChild named otherNamed
  apart := by
    intro place other isInside above
    rw [extends_.follows.ancestors closed (knows_object.2 (forest.known isInside))] at above
    exact forest.apart isInside above

/-- What an old object finds is old. -/
theorem child_lt (forest : before.Forest keys around inside) (closed : before.Closed)
    (extends_ : before.Extends after) {place child : Nat} {key : Key} (isInside : inside place)
    (looked : after.look? (.object place) key = some (.object child)) :
    child < before.objects.size := by
  rw [extends_.look? closed (knows_object.2 (forest.known isInside))] at looked
  exact knows_object.1 (closed.look?_known looked)

section Join

variable (forest : before.Forest keys around inside) (closed : before.Closed)
  (extends_ : before.Extends after) (newForest : after.Forest keys around fresh)
  (new : ∀ place, fresh place → before.objects.size ≤ place)
include forest newForest new

/-- No new object holds an old one of the trees. -/
theorem not_held_by_fresh {place child : Nat} {key : Key} (isFresh : fresh place)
    (named : key ∈ keys) (isChild : inside child) :
    after.look? (.object place) key ≠ some (.object child) := by
  intro looked
  obtain ⟨content, found, isAround | ⟨other, rfl, isOther⟩⟩ := newForest.looked isFresh named
  · rw [looked, Option.some.injEq] at found
    exact forest.outer (found ▸ isAround) isChild
  · rw [looked, Option.some.injEq] at found
    cases found
    exact Nat.not_le.2 (forest.known isChild) (new _ isOther)

include closed extends_

omit newForest in
/-- No old object of the trees holds a new one. -/
theorem not_held_by_old {place child : Nat} {key : Key} (isInside : inside place)
    (isChild : fresh child) : after.look? (.object place) key ≠ some (.object child) :=
  fun looked => Nat.not_le.2 (forest.child_lt closed extends_ isInside looked) (new _ isChild)

/-- Trees can be joined by new trees that inherit from no old ones. -/
theorem join (outer : ∀ place other, fresh place → other ∈ after.ancestors (.object place) →
      ¬ inside other) :
    after.Forest keys around fun place => inside place ∨ fresh place := by
  have old := forest.later closed extends_
  have apartBelow : ∀ {place other : Nat}, inside place → other ∈ after.ancestors (.object place) →
      ¬ fresh other := by
    intro place other isInside above isFresh
    rw [extends_.follows.ancestors closed (knows_object.2 (forest.known isInside))] at above
    exact Nat.not_le.2 (closed.ancestors_lt _ other above) (new _ isFresh)
  refine ⟨?_, ?_, ?_, ?_, ?_, ?_⟩
  · rintro place (isInside | isFresh)
    · exact old.known isInside
    · exact newForest.known isFresh
  · rintro place isAround (isInside | isFresh)
    · exact old.outer isAround isInside
    · exact newForest.outer isAround isFresh
  · rintro place (isInside | isFresh)
    · exact old.data isInside
    · exact newForest.data isFresh
  · rintro place key (isInside | isFresh) named
    · obtain ⟨content, looked, belongs⟩ := old.looked isInside named
      exact ⟨content, looked, belongs.mono fun _ => Or.inl⟩
    · obtain ⟨content, looked, belongs⟩ := newForest.looked isFresh named
      exact ⟨content, looked, belongs.mono fun _ => Or.inr⟩
  · rintro place other child key otherKey isPlace isOther isChild named otherNamed looked lookedToo
    rcases isChild with isOld | isNew
    · have older : ∀ {place key}, inside place ∨ fresh place → key ∈ keys →
          after.look? (.object place) key = some (.object child) → inside place :=
        fun isPlace named looked => isPlace.resolve_right fun isFresh =>
          not_held_by_fresh forest newForest new isFresh named isOld looked
      exact old.alone (older isPlace named looked) (older isOther otherNamed lookedToo) isOld named
        otherNamed looked lookedToo
    · have newer : ∀ {place key}, inside place ∨ fresh place →
          after.look? (.object place) key = some (.object child) → fresh place :=
        fun isPlace looked => isPlace.resolve_left fun isInside =>
          not_held_by_old forest closed extends_ new isInside isNew looked
      exact newForest.alone (newer isPlace looked) (newer isOther lookedToo) isNew named otherNamed
        looked lookedToo
  · rintro place other (isInside | isFresh) above (isOld | isNew)
    · exact old.apart isInside above isOld
    · exact apartBelow isInside above isNew
    · exact outer place other isFresh above isOld
    · exact newForest.apart isFresh above isNew

/-- An old object that no slot holds is held by no new object either. -/
theorem loose_join {child : Nat} (isChild : inside child) (loose : before.Loose keys inside child) :
    after.Loose keys (fun place => inside place ∨ fresh place) child := by
  rintro place key (isInside | isFresh) named
  · rw [extends_.look? closed (knows_object.2 (forest.known isInside))]
    exact loose isInside named
  · exact not_held_by_fresh forest newForest new isFresh named isChild

omit newForest in
/-- A new object that no new one holds is held by no old one either. -/
theorem loose_fresh {child : Nat} (isChild : fresh child) (loose : after.Loose keys fresh child) :
    after.Loose keys (fun place => inside place ∨ fresh place) child := by
  rintro place key (isInside | isFresh) named
  · exact not_held_by_old forest closed extends_ new isInside isChild
  · exact loose isFresh named

end Join

/-! ## Stores -/

section Store

variable (forest : graph.Forest keys around inside) (noLength : Key.name "length" ∉ keys)
  {place : Nat} {key : Key} {content : Value}
  (accepted : graph.placement (.object place) key = .slot) (holder : inside place)
include forest noLength accepted holder

/-- A store changes what its object finds in the slot, and nothing else that is found in the
trees. -/
theorem look?_store {other : Nat} {asked : Key} (isInside : inside other) (named : asked ∈ keys) :
    (graph.store (.object place) key content).look? (.object other) asked =
      if other = place ∧ asked = key then some content
      else graph.look? (.object other) asked := by
  have notLength : asked ≠ .name "length" := by
    rintro rfl
    exact noLength named
  split
  case isTrue same =>
    obtain ⟨rfl, rfl⟩ := same
    obtain ⟨flags, found⟩ := find?_store_of_asked content accepted
      (show other ∈ graph.asked (.object other) asked from List.mem_append_left _ (by simp [Value.place?]))
    rw [look?, found]
  case isFalse different =>
    unfold look?
    by_cases sameKey : asked = key
    · subst sameKey
      rw [find?_store_of_not_asked graph asked content
        (forest.not_asked holder isInside (fun same => different ⟨same.symm, rfl⟩) asked)]
    · rw [find?_store_of_ne graph place content _ sameKey notLength]

/-- A value that belongs to the trees, if it is an object of theirs one that no slot holds, can be
stored in any slot. -/
theorem store (belongs : Belongs around inside content)
    (free : ∀ child, content = .object child → inside child → graph.Loose keys inside child) :
    (graph.store (.object place) key content).Forest keys around inside := by
  have follows := follows_store graph place key content
  have look?_eq : ∀ {other : Nat} {asked : Key}, inside other → asked ∈ keys →
      (graph.store (.object place) key content).look? (.object other) asked =
        if other = place ∧ asked = key then some content
        else graph.look? (.object other) asked :=
    forest.look?_store noLength accepted holder
  refine ⟨?_, forest.outer, ?_, ?_, ?_, ?_⟩
  · intro other isInside
    rw [size_store]
    exact forest.known isInside
  · intro other isInside
    rw [follows.isCallable (knows_object.2 (forest.known isInside)), isArrayType, descendsFrom,
      ancestors_store]
    exact forest.data isInside
  · intro other asked isInside named
    rw [look?_eq isInside named]
    split
    · exact ⟨content, rfl, belongs⟩
    · exact forest.looked isInside named
  · intro first second child firstKey secondKey isFirst isSecond isChild firstNamed secondNamed
      looked lookedToo
    rw [look?_eq isFirst firstNamed] at looked
    rw [look?_eq isSecond secondNamed] at lookedToo
    split at looked
    · rename_i isSlot
      have loose : graph.Loose keys inside child := free child (Option.some.inj looked) isChild
      split at lookedToo
      · rename_i isSlotToo
        exact ⟨isSlot.1.trans isSlotToo.1.symm, isSlot.2.trans isSlotToo.2.symm⟩
      · exact absurd lookedToo (loose isSecond secondNamed)
    · split at lookedToo
      · exact absurd looked (free child (Option.some.inj lookedToo) isChild isFirst firstNamed)
      · exact forest.alone isFirst isSecond isChild firstNamed secondNamed looked lookedToo
  · intro other above isInside
    rw [ancestors_store]
    exact forest.apart isInside

/-- What no slot holds is held by none after something else was stored. -/
theorem loose_store {child : Nat} (loose : graph.Loose keys inside child)
    (different : content ≠ .object child) :
    (graph.store (.object place) key content).Loose keys inside child := by
  intro other asked isInside named
  rw [forest.look?_store noLength accepted holder isInside named]
  split
  · rw [ne_eq, Option.some.injEq]
    exact different
  · exact loose isInside named

end Store

end Forest

/-! ## What is around trees -/

/-- Values around some objects: what they find under some keys is among them again, they inherit
from none of the objects, and missing values are among them. -/
structure Surrounds (graph : Graph) (keys : List Key) (around : Value → Prop)
    (inside : Nat → Prop) : Prop where
  known : ∀ {value : Value}, around value → graph.Knows value
  like : ∀ {value other : Value}, around value → Value.Like value other → around other
  looked : ∀ {value : Value} {key : Key}, around value → value.isMissing = false → key ∈ keys →
    ∃ content, graph.look? value key = some content ∧ around content
  missing : ∀ {value : Value}, value.isMissing = true → around value
  apart : ∀ {value : Value} {place : Nat}, around value → place ∈ graph.ancestors value →
    ¬ inside place

section Ways

variable (forest : graph.Forest keys around inside)
  (surrounds : graph.Surrounds keys around inside)

include forest surrounds

theorem Belongs.knows {value : Value} (belongs : Belongs around inside value) :
    graph.Knows value := by
  rcases belongs with isAround | ⟨place, rfl, isInside⟩
  · exact surrounds.known isAround
  · exact knows_object.2 (forest.known isInside)

theorem Belongs.looked {value : Value} (belongs : Belongs around inside value)
    (present : value.isMissing = false) {key : Key} (named : key ∈ keys) :
    ∃ content, graph.look? value key = some content ∧ Belongs around inside content := by
  rcases belongs with isAround | ⟨place, rfl, isInside⟩
  · obtain ⟨content, looked, isAround⟩ := surrounds.looked isAround present named
    exact ⟨content, looked, Or.inl isAround⟩
  · exact forest.looked isInside named

omit forest in
theorem Belongs.of_like {value other : Value} (belongs : Belongs around inside value)
    (like : Value.Like value other) : Belongs around inside other := by
  rcases belongs with isAround | ⟨place, rfl, isInside⟩
  · exact Or.inl (surrounds.like isAround like)
  · rw [like.eq_of_object rfl]
    exact Or.inr ⟨place, rfl, isInside⟩

/-- What belongs to trees is plain data. -/
theorem Belongs.plain {value : Value} (belongs : Belongs around inside value) :
    graph.Plain keys 0 value :=
  ⟨Belongs around inside,
    ⟨fun belongs present named => belongs.looked forest surrounds present named,
      fun belongs like => belongs.of_like surrounds like, fun _ => Nat.zero_le _⟩, belongs⟩

/-- An object of a tree is asked only by itself. -/
theorem Belongs.of_asked {value : Value} (belongs : Belongs around inside value) {place : Nat}
    {key : Key} (isInside : inside place) (isAsked : place ∈ graph.asked value key) :
    value = .object place := by
  rcases mem_asked isAsked with same | above
  · exact same
  · rcases belongs with isAround | ⟨other, rfl, isOther⟩
    · exact absurd isInside (surrounds.apart isAround above)
    · exact absurd isInside (forest.apart isOther above)

/-- Only an object of a tree holds one. -/
theorem Belongs.holder {value : Value} (belongs : Belongs around inside value)
    (present : value.isMissing = false) {key : Key} (named : key ∈ keys) {child : Nat}
    (isChild : inside child) (looked : graph.look? value key = some (.object child)) :
    ∃ place, value = .object place ∧ inside place := by
  rcases belongs with isAround | isObject
  · obtain ⟨content, found, isAroundContent⟩ := surrounds.looked isAround present named
    rw [looked, Option.some.injEq] at found
    exact absurd isChild (forest.outer (found ▸ isAroundContent))
  · exact isObject

/-! ## Ways through trees -/

/-- What is come to from a value that belongs to trees belongs to them. -/
theorem Belongs.travel {root content : Value} {steps : List Step}
    (belongs : Belongs around inside root) (named : steps.map Step.key ⊆ keys)
    (travelled : graph.travel? root steps = some content) : Belongs around inside content := by
  induction steps generalizing root with
  | nil =>
      cases travelled
      exact belongs
  | cons step rest inductionHypothesis =>
      rw [List.map_cons, List.cons_subset] at named
      rw [travel?] at travelled
      split at travelled
      · cases travelled
        exact Or.inl (surrounds.missing rfl)
      · rename_i present
        obtain ⟨next, taken, onward⟩ := Option.bind_eq_some_iff.1 travelled
        obtain ⟨found, looked, belongsNext⟩ :=
          belongs.looked forest surrounds (by simpa using present) named.1
        rw [take?_look? taken, Option.some.injEq] at looked
        subst looked
        exact inductionHypothesis belongsNext named.2 onward

/-- A value from which a tree grows: no slot holds it. -/
structure Stem (graph : Graph) (keys : List Key) (around : Value → Prop) (inside : Nat → Prop)
    (root : Value) : Prop where
  belongs : Belongs around inside root
  loose : ∀ place, root = .object place → inside place → graph.Loose keys inside place

/-- The last step of a way to an object of a tree is taken from such an object. -/
theorem Stem.last {root : Value} (stem : graph.Stem keys around inside root) {lead : List Step}
    {step : Step} {child : Nat} (named : (lead ++ [step]).map Step.key ⊆ keys)
    (isChild : inside child) (travelled : graph.travel? root (lead ++ [step]) = some (.object child)) :
    ∃ place, inside place ∧ graph.travel? root lead = some (.object place) ∧
      graph.look? (.object place) step.key = some (.object child) := by
  rw [List.map_append, List.append_subset] at named
  rw [travel?_append] at travelled
  obtain ⟨holder, toHolder, onward⟩ := Option.bind_eq_some_iff.1 travelled
  obtain ⟨present, next, taken, _, same⟩ := travel?_cons onward rfl
  cases same
  have isNamed : step.key ∈ keys := named.2 (List.mem_singleton_self _)
  obtain ⟨place, rfl, isInside⟩ := (stem.belongs.travel forest surrounds named.1 toHolder).holder
    forest surrounds present isNamed isChild (take?_look? taken)
  exact ⟨place, isInside, toHolder, take?_look? taken⟩

/-- No way leads back to the root. -/
theorem Stem.not_returned {root : Value} (stem : graph.Stem keys around inside root)
    {lead : List Step} {step : Step} {child : Nat} (isChild : inside child)
    (named : (lead ++ [step]).map Step.key ⊆ keys) (isRoot : root = .object child) :
    graph.travel? root (lead ++ [step]) ≠ some (.object child) := by
  intro travelled
  obtain ⟨place, isInside, _, looked⟩ := stem.last forest surrounds named isChild travelled
  exact stem.loose child isRoot isChild isInside (named (by simp)) looked

/-- An object of a tree is come to from the root in one way only. -/
theorem Stem.unique {root : Value} (stem : graph.Stem keys around inside root)
    {first second : List Step} {child : Nat} (isChild : inside child)
    (named : first.map Step.key ⊆ keys) (namedToo : second.map Step.key ⊆ keys)
    (travelled : graph.travel? root first = some (.object child))
    (travelledToo : graph.travel? root second = some (.object child)) :
    first.map Step.key = second.map Step.key := by
  induction first using List.reverseRecOn generalizing second child with
  | nil =>
      cases second using List.reverseRecOn with
      | nil => rfl
      | append_singleton lead step =>
          exact absurd travelledToo (stem.not_returned forest surrounds isChild namedToo
            (Option.some.inj travelled))
  | append_singleton lead step inductionHypothesis =>
      cases second using List.reverseRecOn with
      | nil =>
          exact absurd travelled (stem.not_returned forest surrounds isChild named
            (Option.some.inj travelledToo))
      | append_singleton otherLead otherStep =>
          obtain ⟨place, isInside, toPlace, looked⟩ :=
            stem.last forest surrounds named isChild travelled
          obtain ⟨other, isOther, toOther, lookedToo⟩ :=
            stem.last forest surrounds namedToo isChild travelledToo
          obtain ⟨rfl, sameKey⟩ := forest.alone isInside isOther isChild (named (by simp))
            (namedToo (by simp)) looked lookedToo
          rw [List.map_append, List.append_subset] at named namedToo
          rw [List.map_append, List.map_append,
            inductionHypothesis isInside named.1 namedToo.1 toPlace toOther, List.map_singleton,
            List.map_singleton, sameKey]

/-- A way asks an object of a tree only for a slot that it passes. -/
theorem Belongs.passes {value : Value} (belongs : Belongs around inside value) {steps : List Step}
    (named : steps.map Step.key ⊆ keys) {content : Value}
    (travelled : graph.travel? value steps = some content) (present : content.isMissing = false)
    {place : Nat} {key : Key} (isInside : inside place) (asks : graph.Asks value steps place key) :
    graph.Passes value steps place key := by
  induction steps generalizing value with
  | nil => exact asks.elim
  | cons step rest inductionHypothesis =>
      rw [List.map_cons, List.cons_subset] at named
      obtain ⟨there, next, taken, _, onward⟩ := travel?_cons travelled present
      rcases asks with ⟨sameKey, isAsked⟩ | later
      · have same := belongs.of_asked forest surrounds isInside isAsked
        exact ⟨[], step, rest, rfl, congrArg some same, sameKey⟩
      · rw [member_of_look? (take?_look? taken)] at later
        obtain ⟨found, looked, belongsNext⟩ := belongs.looked forest surrounds there named.1
        rw [take?_look? taken, Option.some.injEq] at looked
        subst looked
        obtain ⟨first, other, onwards, rfl, toPlace, sameKey⟩ :=
          inductionHypothesis belongsNext named.2 onward later
        refine ⟨step :: first, other, onwards, rfl, ?_, sameKey⟩
        rw [travel?, if_neg (by simpa using there), taken, Option.bind_some, toPlace]

end Ways

end ObjectPath.Graph
