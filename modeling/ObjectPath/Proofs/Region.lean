import ObjectPath.Proofs.Growth

/-!
# Plain data

A value is plain for some keys if whatever is reached from it under those keys is found in
slots, so that nothing has to be computed.  Sharing and cycles are allowed: what is reached
is described by any set of values that is closed under the lookups.
-/

namespace ObjectPath.Graph

/-- A set of values that lookups of some keys do not leave and in which they meet no
accessor.  Its objects are at places from a floor on. -/
structure Region (graph : Graph) (keys : List Key) (floor : Nat) (inside : Value → Prop) :
    Prop where
  looked : ∀ {value : Value} {key : Key}, inside value → value.isMissing = false → key ∈ keys →
    ∃ content, graph.look? value key = some content ∧ inside content
  like : ∀ {value other : Value}, inside value → Value.Like value other → inside other
  above : ∀ {place : Nat}, inside (.object place) → floor ≤ place

/-- Whether what is reached from a value under some keys is plain data, at places from a
floor on. -/
def Plain (graph : Graph) (keys : List Key) (floor : Nat) (value : Value) : Prop :=
  ∃ inside, graph.Region keys floor inside ∧ inside value

namespace Plain

variable {graph : Graph} {keys : List Key} {floor : Nat} {value content : Value} {key : Key}

theorem look? (plain : graph.Plain keys floor value) (present : value.isMissing = false)
    (named : key ∈ keys) :
    ∃ content, graph.look? value key = some content ∧ graph.Plain keys floor content := by
  obtain ⟨inside, region, member⟩ := plain
  obtain ⟨content, looked, reached⟩ := region.looked member present named
  exact ⟨content, looked, inside, region, reached⟩

theorem of_look? (plain : graph.Plain keys floor value) (present : value.isMissing = false)
    (named : key ∈ keys) (looked : graph.look? value key = some content) :
    graph.Plain keys floor content := by
  obtain ⟨other, lookedOther, reached⟩ := plain.look? present named
  rw [looked, Option.some.injEq] at lookedOther
  exact lookedOther ▸ reached

theorem of_like {other : Value} (plain : graph.Plain keys floor value)
    (like : Value.Like value other) : graph.Plain keys floor other := by
  obtain ⟨inside, region, member⟩ := plain
  exact ⟨inside, region, region.like member like⟩

theorem floor_le {place : Nat} (plain : graph.Plain keys floor (.object place)) :
    floor ≤ place := by
  obtain ⟨inside, region, member⟩ := plain
  exact region.above member

/-- Plain data at places from a floor on is also at places from any lower one on. -/
theorem lower {other : Nat} (plain : graph.Plain keys floor value) (le : other ≤ floor) :
    graph.Plain keys other value := by
  obtain ⟨inside, region, member⟩ := plain
  exact ⟨inside, ⟨region.looked, region.like, fun reached => Nat.le_trans le (region.above reached)⟩,
    member⟩

theorem of_isMissing (missing : value.isMissing = true) : graph.Plain keys floor value := by
  refine ⟨fun other => other.isMissing = true, ⟨?_, ?_, ?_⟩, missing⟩
  · intro other key isMissing present
    rw [isMissing] at present
    cases present
  · intro other later isMissing like
    rw [like.isMissing]
    exact isMissing
  · intro place isMissing
    cases isMissing

/-- A value is plain data if what is looked up on it is. -/
theorem of_lookups
    (looks : ∀ key ∈ keys, ∃ content,
      graph.look? value key = some content ∧ graph.Plain keys floor content)
    (above : ∀ place, value = .object place → floor ≤ place) : graph.Plain keys floor value := by
  refine ⟨fun other => Value.Like value other ∨ graph.Plain keys floor other, ⟨?_, ?_, ?_⟩,
    Or.inl (Value.Like.refl value)⟩
  · rintro other key (like | plain) present named
    · obtain ⟨content, looked, plain⟩ := looks key named
      exact ⟨content, by rw [Graph.look?, find?_of_like graph like]; exact looked, Or.inr plain⟩
    · obtain ⟨content, looked, plainContent⟩ := plain.look? present named
      exact ⟨content, looked, Or.inr plainContent⟩
  · rintro other later (first | plain) like
    · exact Or.inl (first.trans like)
    · exact Or.inr (plain.of_like like)
  · rintro place (like | plain)
    · rcases like with same | ⟨_, _, _, impossible⟩
      · exact above place same.symm
      · cases impossible
    · exact plain.floor_le

end Plain

/-! ## Lookups that meet no accessor -/

theorem Closed.look?_known {graph : Graph} (closed : graph.Closed) {value content : Value}
    {key : Key} (looked : graph.look? value key = some content) : graph.Knows content :=
  member_of_look? looked ▸ closed.member_known value key

theorem look?_of_rel {before after : Graph} {value content : Value} {key : Key}
    (like : Option.Rel Property.Like (before.find? value key) (after.find? value key))
    (looked : before.look? value key = some content) :
    ∃ later, after.look? value key = some later ∧ Value.Like content later := by
  unfold look? at looked ⊢
  revert looked
  generalize before.find? value key = earlier at like
  generalize after.find? value key = found at like
  rcases like with ⟨rfl | ⟨old, new, flags, rfl, rfl⟩⟩ | _
  · intro looked
    exact ⟨content, looked, Value.Like.refl content⟩
  · rintro ⟨⟩
    exact ⟨.number new, rfl, Or.inr ⟨old, new, rfl, rfl⟩⟩
  · intro looked
    exact ⟨content, looked, Value.Like.refl content⟩

/-- After a store a lookup finds what it found before, or what was stored. -/
theorem look?_store {graph : Graph} {place : Nat} {key : Key} (stored : Value)
    (accepted : graph.placement (.object place) key = .slot) {value content : Value}
    {asked : Key} (looked : graph.look? value asked = some content) :
    ∃ later, (graph.store (.object place) key stored).look? value asked = some later ∧
      (Value.Like content later ∨ later = stored) := by
  by_cases disturbed : asked = key ∧ place ∈ graph.asked value asked
  · obtain ⟨rfl, isAsked⟩ := disturbed
    obtain ⟨flags, found⟩ := find?_store_of_asked stored accepted isAsked
    exact ⟨stored, by rw [look?, found], Or.inr rfl⟩
  · have like : Option.Rel Property.Like (graph.find? value asked)
        ((graph.store (.object place) key stored).find? value asked) :=
      find?_store_like graph stored fun same isAsked => disturbed ⟨same, isAsked⟩
    obtain ⟨later, lookedLater, related⟩ := look?_of_rel like looked
    exact ⟨later, lookedLater, Or.inl related⟩

/-! ## Plain data in later graphs -/

/-- New objects leave plain data plain. -/
theorem Plain.extends {before after : Graph} {keys : List Key} {floor : Nat} {value : Value}
    (plain : before.Plain keys floor value) (extends_ : before.Extends after)
    (closed : before.Closed) (known : before.Knows value) :
    after.Plain keys floor value := by
  obtain ⟨inside, region, member⟩ := plain
  refine ⟨fun other => inside other ∧ before.Knows other, ⟨?_, ?_, ?_⟩, member, known⟩
  · rintro other key ⟨reached, knownOther⟩ present named
    obtain ⟨content, looked, contentInside⟩ := region.looked reached present named
    refine ⟨content, ?_, contentInside, closed.look?_known looked⟩
    unfold Graph.look? at looked ⊢
    rwa [extends_.find? closed knownOther]
  · rintro other later ⟨reached, knownOther⟩ like
    refine ⟨region.like reached like, ?_⟩
    rcases like with rfl | ⟨_, _, _, rfl⟩
    · exact knownOther
    · exact knows_of_isObject_eq_false rfl
  · rintro place ⟨reached, _⟩
    exact region.above reached

/-- A store of plain data leaves plain data plain. -/
theorem Plain.store {graph : Graph} {keys : List Key} {floor : Nat} {value content : Value}
    {place : Nat} {key : Key} (plain : graph.Plain keys floor value)
    (accepted : graph.placement (.object place) key = .slot)
    (stored : graph.Plain keys floor content) :
    (graph.store (.object place) key content).Plain keys floor value := by
  obtain ⟨inside, region, member⟩ := plain
  obtain ⟨other, otherRegion, otherMember⟩ := stored
  refine ⟨fun reached => inside reached ∨ other reached, ⟨?_, ?_, ?_⟩, Or.inl member⟩
  · intro reached asked isReached present named
    have looked : ∃ found, graph.look? reached asked = some found ∧ (inside found ∨ other found) := by
      rcases isReached with left | right
      · obtain ⟨found, looked, foundInside⟩ := region.looked left present named
        exact ⟨found, looked, Or.inl foundInside⟩
      · obtain ⟨found, looked, foundInside⟩ := otherRegion.looked right present named
        exact ⟨found, looked, Or.inr foundInside⟩
    obtain ⟨found, lookedFound, isInside⟩ := looked
    obtain ⟨later, lookedLater, like | same⟩ := look?_store content accepted lookedFound
    · exact ⟨later, lookedLater, isInside.imp (region.like · like) (otherRegion.like · like)⟩
    · exact ⟨later, lookedLater, Or.inr (same ▸ otherMember)⟩
  · rintro reached later isReached like
    exact isReached.imp (region.like · like) (otherRegion.like · like)
  · rintro other (left | right)
    · exact region.above left
    · exact otherRegion.above right

end ObjectPath.Graph
