import ObjectPath.Proofs.Steps

/-!
# Ways that survive

A way that steps lead along in one graph leads along the same values in a later one: if the
later graph has grown from the first, or if one slot was written that the way does not ask.
-/

namespace ObjectPath.Graph

/-! ## Numbers -/

theorem ancestors_of_like (graph : Graph) {value other : Value} (like : Value.Like value other) :
    graph.ancestors other = graph.ancestors value := by
  rcases like with rfl | ⟨_, _, rfl, rfl⟩ <;> rfl

theorem look?_of_like (graph : Graph) {value other : Value} (like : Value.Like value other)
    (key : Key) : graph.look? other key = graph.look? value key := by
  rw [look?, look?, find?_of_like graph like]

theorem member_of_like (graph : Graph) {value other : Value} (like : Value.Like value other)
    (key : Key) : graph.member other key = graph.member value key := by
  rw [member, member, find?_of_like graph like]

theorem asked_of_like (graph : Graph) {value other : Value} (like : Value.Like value other)
    (key : Key) : graph.asked other key = graph.asked value key := by
  rcases like with rfl | ⟨_, _, rfl, rfl⟩ <;> rfl

theorem classOf_of_like (graph : Graph) {value other : Value} (like : Value.Like value other) :
    graph.classOf other = graph.classOf value := by
  unfold classOf
  rw [member_of_like graph like]
  rcases like with rfl | ⟨_, _, rfl, rfl⟩ <;> rfl

/-- Numbers have the same fields. -/
theorem field?_of_like (graph : Graph) {value other : Value} (like : Value.Like value other)
    (name : String) : graph.field? other name = graph.field? value name := by
  unfold field? hasUndeclared hasOpenField has
  rw [classOf_of_like graph like, look?_of_like graph like, find?_of_like graph like]
  rcases like with rfl | ⟨_, _, rfl, rfl⟩ <;> rfl

theorem take?_of_like (graph : Graph) {value other : Value} (like : Value.Like value other)
    (step : Step) : graph.take? other step = graph.take? value step := by
  cases step with
  | field name =>
      simp only [take?]
      rw [field?_of_like graph like, look?_of_like graph like]
  | element index =>
      simp only [take?]
      rw [look?_of_like graph like]
      rcases like with rfl | ⟨_, _, rfl, rfl⟩ <;> rfl

/-- Steps lead from numbers to the same values. -/
theorem travel?_of_like (graph : Graph) {value other content : Value} {steps : List Step}
    (like : Value.Like value other) (travelled : graph.travel? value steps = some content) :
    ∃ found, graph.travel? other steps = some found ∧ Value.Like content found := by
  cases steps with
  | nil =>
      cases travelled
      exact ⟨other, rfl, like⟩
  | cons step rest =>
      refine ⟨content, ?_, Value.Like.refl content⟩
      rw [travel?] at travelled ⊢
      rw [like.isMissing, take?_of_like graph like]
      exact travelled

/-! ## Fields of later graphs -/

theorem Closed.classOf_known {graph : Graph} (closed : graph.Closed) (value : Value) :
    graph.Knows (graph.classOf value) := by
  dsimp only [classOf]
  split
  · exact knows_object.2 (closed.classes .array)
  · split
    · exact closed.member_known value _
    · exact knows_object.2 (closed.classes .object)

namespace Steady

variable {guarded : List Key} {before after : Graph} (steady : before.Steady guarded after)
  (closed : before.Closed)

include steady closed

theorem member_class {value : Value} (known : before.Knows value) (key : Key)
    (isClassKey : key ∈ classKeys) : after.member value key = before.member value key := by
  rw [member, member, steady.find?_class closed known isClassKey]

/-- A value keeps its class. -/
theorem classOf {value : Value} (known : before.Knows value) :
    after.classOf value = before.classOf value := by
  have owner := closed.member_known value (.name "constructor")
  simp only [Graph.classOf, steady.isArray known,
    steady.member_class closed known (.name "constructor") (by decide),
    steady.isCallable owner,
    steady.member_class closed owner (.name "prototype") (by decide)]

theorem shared? {owner : Value} {name : String} (known : before.Knows owner)
    (isGuarded : .ofText name ∈ guarded) :
    after.Calm (before.shared? owner name) (after.shared? owner name) := by
  have holder := closed.member_known owner (.name "prototype")
  unfold Graph.shared? ownAmong? holdersFrom
  rw [steady.member_class closed known _ (by decide), steady.ancestors closed holder]
  split
  · refine Calm.findSome? fun value member => ?_
    refine steady.own?_calm ?_ isGuarded
    rcases List.mem_cons.1 ((List.takeWhile_prefix _).subset member) with rfl | above
    · exact holder
    · obtain ⟨place, isAncestor, rfl⟩ := List.mem_map.1 above
      exact knows_object.2 (closed.ancestors_lt _ place isAncestor)
  · exact Or.inl rfl

/-- An open field stays one: what is found under its name is the same, or no function. -/
theorem hasOpenField {value earlier content : Value} {name : String} (known : before.Knows value)
    (isGuarded : .ofText name ∈ guarded)
    (lookedEarlier : before.look? value (.ofText name) = some earlier)
    (looked : after.look? value (.ofText name) = some content)
    (isOpen : before.hasOpenField value name earlier = true) :
    after.hasOpenField value name content = true := by
  unfold Graph.hasOpenField has at isOpen ⊢
  rw [steady.isPlainRecord known]
  rcases steady.find?_calm closed known isGuarded with same | ⟨_, flags, found, _, calm⟩
  · have sameContent : earlier = content := by
      unfold Graph.look? at looked lookedEarlier
      rw [same, lookedEarlier, Option.some.injEq] at looked
      exact looked
    subst sameContent
    rw [same, steady.isCallable (closed.look?_known lookedEarlier)]
    exact isOpen
  · unfold Graph.look? at looked
    rw [found, Option.some.injEq] at looked
    subst looked
    simp [found, calm]

theorem hasUndeclared {owner value content : Value} {name : String}
    (knownOwner : before.Knows owner) (known : before.Knows value)
    (isGuarded : .ofText name ∈ guarded)
    (looked : after.look? value (.ofText name) = some content)
    (isField : before.hasUndeclared owner value name = true) :
    after.hasUndeclared owner value name = true := by
  unfold Graph.hasUndeclared at isField ⊢
  rcases steady.shared? closed knownOwner isGuarded with same | ⟨found, flags, own, _, calm⟩
  · rw [same]
    split at isField
    · rename_i property shared
      cases property with
      | accessor getter setter enumerable configurable => rfl
      | data found flags =>
          obtain ⟨holder, _, own⟩ := List.exists_of_findSome?_eq_some shared
          simp only [holdsFunction, steady.isCallable (closed.own_known own)] at isField ⊢
          exact isField
    · rw [looked]
      split at isField
      · rename_i earlier lookedEarlier
        exact steady.hasOpenField closed known isGuarded lookedEarlier looked isField
      · cases isField
  · simp [own, holdsFunction, calm]

/-- A field of a value stays one, as long as it is found without computing anything. -/
theorem field? {value content : Value} {name : String} (known : before.Knows value)
    (isGuarded : .ofText name ∈ guarded) (isField : (before.field? value name).isSome = true)
    (looked : after.look? value (.ofText name) = some content) :
    (after.field? value name).isSome = true := by
  have owner := closed.classOf_known value
  unfold Graph.field? at isField ⊢
  rw [steady.classOf closed known, steady.fields closed owner]
  split at isField
  · cases isField
  · rename_i allowed
    rw [if_neg allowed]
    split at isField
    · rfl
    · split at isField
      · rename_i isUndeclared
        rw [if_pos (steady.hasUndeclared closed owner known isGuarded looked isUndeclared)]
        rfl
      · cases isField

end Steady

/-! ## Ways in grown graphs -/

theorem Grows.look? {guarded : List Key} {before after : Graph}
    (grows : before.Grows guarded after) {value content : Value} {key : Key}
    (known : before.Knows value) (looked : before.look? value key = some content)
    (present : content.isMissing = false) :
    ∃ later, after.look? value key = some later ∧ Value.Like content later := by
  unfold Graph.look? at looked ⊢
  split at looked <;> rename_i found <;> cases looked
  · cases present
  · obtain ⟨later, foundLater, rfl | ⟨old, new, flags, same, rfl⟩⟩ :=
      grows.found known found present
    · exact ⟨content, by rw [foundLater], Value.Like.refl content⟩
    · cases same
      exact ⟨.number new, by rw [foundLater], Or.inr ⟨old, new, rfl, rfl⟩⟩

/-- The names of fields among steps are guarded. -/
def Guards (guarded : List Key) (steps : List Step) : Prop :=
  ∀ name, Step.field name ∈ steps → Key.ofText name ∈ guarded

theorem Guards.refl (steps : List Step) : Guards (steps.map Step.key) steps :=
  fun _ member => List.mem_map.2 ⟨_, member, rfl⟩

theorem Guards.append {guarded : List Key} {first second : List Step} :
    Guards guarded (first ++ second) ↔ Guards guarded first ∧ Guards guarded second := by
  simp only [Guards, List.mem_append, or_imp, forall_and]

theorem Steady.take? {guarded : List Key} {before after : Graph}
    (steady : before.Steady guarded after) (closed : before.Closed) {value content later : Value}
    {step : Step} (known : before.Knows value) (guards : Guards guarded [step])
    (taken : before.take? value step = some content)
    (looked : after.look? value step.key = some later) :
    after.take? value step = some later := by
  cases step with
  | field name =>
      obtain ⟨field, isField, _⟩ := Option.bind_eq_some_iff.1 taken
      have stays := steady.field? closed known (guards name (by simp)) (by rw [isField]; rfl) looked
      obtain ⟨fieldLater, isFieldLater⟩ := Option.isSome_iff_exists.1 stays
      rw [Graph.take?, isFieldLater]
      exact looked
  | element index =>
      simp only [Graph.take?] at taken ⊢
      rw [steady.isArray known]
      split at taken
      · rename_i isArray
        rw [if_pos isArray]
        exact looked
      · cases taken

/-- A way that leads somewhere leads there in a grown graph as well. -/
theorem Grows.travel? {guarded : List Key} {before after : Graph}
    (grows : before.Grows guarded after) (closed : before.Closed) {value later content : Value}
    {steps : List Step} (known : before.Knows value) (guards : Guards guarded steps)
    (like : Value.Like value later) (travelled : before.travel? value steps = some content)
    (present : content.isMissing = false) :
    ∃ found, after.travel? later steps = some found ∧ Value.Like content found := by
  induction steps generalizing value later with
  | nil =>
      cases travelled
      exact ⟨later, rfl, like⟩
  | cons step rest inductionHypothesis =>
      obtain ⟨there, next, taken, thereNext, onward⟩ := travel?_cons travelled present
      obtain ⟨nextLater, looked, likeNext⟩ := grows.look? known (take?_look? taken) thereNext
      have takenLater := grows.toSteady.take? closed known
        (fun name member => guards name (by simp_all)) taken looked
      have knownNext := closed.look?_known (take?_look? taken)
      obtain ⟨found, travelledLater, likeFound⟩ := inductionHypothesis knownNext
        (fun name member => guards name (List.mem_cons_of_mem step member)) likeNext onward
      refine ⟨found, ?_, likeFound⟩
      rw [Graph.travel?, like.isMissing, there, take?_of_like after like, takenLater]
      exact travelledLater

/-- New objects do not touch a way. -/
theorem Extends.travel?_of_some {before after : Graph} (extends_ : before.Extends after)
    (closed : before.Closed) {value content : Value} {steps : List Step}
    (known : before.Knows value) (travelled : before.travel? value steps = some content) :
    after.travel? value steps = some content := by
  induction steps generalizing value with
  | nil => exact travelled
  | cons step rest inductionHypothesis =>
      rw [Graph.travel?] at travelled ⊢
      split at travelled
      · rename_i missing
        rwa [if_pos missing]
      · rename_i there
        obtain ⟨next, taken, onward⟩ := Option.bind_eq_some_iff.1 travelled
        have looked := take?_look? taken
        have lookedLater : after.look? value step.key = some next := by
          rw [Graph.look?, extends_.find? closed known]
          exact looked
        have takenLater := extends_.steady.take? closed known (Guards.refl [step]) taken lookedLater
        rw [if_neg there, takenLater]
        exact inductionHypothesis (closed.look?_known looked) onward

/-! ## Ways past one store -/

theorem ownAt?_store_isSome (graph : Graph) (place other : Nat) {key asked : Key}
    (stored : Value) (untouched : asked = key → other ≠ place) :
    ((graph.store (.object place) key stored).ownAt? other asked).isSome =
      (graph.ownAt? other asked).isSome := by
  by_cases samePlace : other = place
  · have different : asked ≠ key := fun same => untouched same samePlace
    by_cases length : asked = .name "length"
    · subst length
      have like := ownAt?_store_length graph place other stored different
      revert like
      generalize (graph.store (.object place) key stored).ownAt? other (.name "length") = later
      generalize graph.ownAt? other (.name "length") = earlier
      rintro (_ | _) <;> rfl
    · rw [ownAt?_store_of_ne_key graph place other stored different length]
  · rw [ownAt?_store_of_ne_place graph key stored asked samePlace]

theorem upTo_congr {has later : Nat → Bool} {places : List Nat}
    (same : ∀ place ∈ upTo has places, later place = has place) :
    upTo later places = upTo has places := by
  induction places with
  | nil => rfl
  | cons place rest inductionHypothesis =>
      have first : later place = has place := by
        apply same
        unfold upTo
        split <;> simp
      unfold upTo
      rw [first]
      cases here : has place with
      | true => rfl
      | false =>
          simp only [Bool.false_eq_true, if_false]
          rw [inductionHypothesis]
          intro other member
          apply same
          simp [upTo, here, member]

/-- A lookup that a store does not disturb asks the same objects afterwards. -/
theorem asked_store (graph : Graph) {place : Nat} {key : Key} (stored : Value) {value : Value}
    {other : Key} (untouched : other = key → place ∉ graph.asked value other) :
    (graph.store (.object place) key stored).asked value other = graph.asked value other := by
  have has : ∀ asked ∈ graph.asked value other,
      ((graph.store (.object place) key stored).ownAt? asked other).isSome =
        (graph.ownAt? asked other).isSome := by
    intro asked member
    refine ownAt?_store_isSome graph place asked stored fun same => ?_
    rintro rfl
    exact untouched same member
  have own : ((graph.store (.object place) key stored).own? value other).isSome =
      (graph.own? value other).isSome := by
    cases value <;> simp only [own?]
    exact has _ (by simp [asked, Value.place?])
  unfold asked at has ⊢
  rw [own, ancestors_store]
  congr 1
  split
  · rfl
  · rename_i absent
    refine upTo_congr fun asked member => has asked ?_
    rw [if_neg absent]
    exact List.mem_append_right _ member

/-- A way that a store does not disturb asks no object afterwards that it did not ask before. -/
theorem asks_store (graph : Graph) {place : Nat} {key : Key} (stored : Value)
    {value later : Value} {steps : List Step} (like : Value.Like value later)
    (untouched : ¬ graph.Asks value steps place key) {asked : Nat} {other : Key}
    (asks : (graph.store (.object place) key stored).Asks later steps asked other) :
    graph.Asks value steps asked other := by
  induction steps generalizing value later with
  | nil => exact asks
  | cons step rest inductionHypothesis =>
      have first : step.key = key → place ∉ graph.asked value step.key :=
        fun same isAsked => untouched (Or.inl ⟨same, same ▸ isAsked⟩)
      rcases asks with ⟨same, isAsked⟩ | onward
      · rw [asked_of_like _ like, ← same, asked_store graph stored first] at isAsked
        exact Or.inl ⟨same, same ▸ isAsked⟩
      · refine Or.inr (inductionHypothesis ?_ (fun asks => untouched (Or.inr asks)) onward)
        rw [member_of_like _ like]
        exact member_like_of_rel (find?_store_like graph stored first)

/-- A way that a store does not disturb leads to the same value afterwards. -/
theorem travel?_store {guarded : List Key} {graph : Graph} {place : Nat} {key : Key}
    {stored : Value} (steady : graph.Steady guarded (graph.store (.object place) key stored))
    (closed : graph.Closed) {value later content : Value} {steps : List Step}
    (known : graph.Knows value) (guards : Guards guarded steps) (like : Value.Like value later)
    (travelled : graph.travel? value steps = some content)
    (untouched : ¬ graph.Asks value steps place key) :
    ∃ found, (graph.store (.object place) key stored).travel? later steps = some found ∧
      Value.Like content found := by
  induction steps generalizing value later with
  | nil =>
      cases travelled
      exact ⟨later, rfl, like⟩
  | cons step rest inductionHypothesis =>
      cases missing : value.isMissing with
      | true =>
          rw [travel?, if_pos missing] at travelled
          exact ⟨content, by rw [travel?, like.isMissing, if_pos missing, travelled],
            Value.Like.refl content⟩
      | false =>
          rw [travel?, missing, if_neg Bool.false_ne_true] at travelled
          obtain ⟨next, taken, onward⟩ := Option.bind_eq_some_iff.1 travelled
          have first : step.key = key → place ∉ graph.asked value step.key :=
            fun same isAsked => untouched (Or.inl ⟨same, same ▸ isAsked⟩)
          have looked := take?_look? taken
          obtain ⟨nextLater, lookedLater, likeNext⟩ :=
            look?_of_rel (find?_store_like graph stored first) looked
          have takenLater := steady.take? closed known
            (fun name member => guards name (by simp_all)) taken lookedLater
          have onwards := fun asks => untouched (Or.inr (member_of_look? looked ▸ asks))
          obtain ⟨found, travelledLater, likeFound⟩ :=
            inductionHypothesis (closed.look?_known looked)
              (fun name member => guards name (List.mem_cons_of_mem step member)) likeNext onward
              onwards
          refine ⟨found, ?_, likeFound⟩
          rw [travel?, like.isMissing, missing, take?_of_like _ like, takenLater]
          exact travelledLater

/-- If such a way still leads somewhere, it is to the same value. -/
theorem travel?_store_eq {graph : Graph} {place : Nat} {key : Key} {stored : Value}
    {value later content found : Value} {steps : List Step} (like : Value.Like value later)
    (travelled : graph.travel? value steps = some content)
    (untouched : ¬ graph.Asks value steps place key)
    (travelledLater : (graph.store (.object place) key stored).travel? later steps = some found) :
    Value.Like content found := by
  induction steps generalizing value later with
  | nil =>
      cases travelled
      cases travelledLater
      exact like
  | cons step rest inductionHypothesis =>
      cases missing : value.isMissing with
      | true =>
          rw [travel?, if_pos missing] at travelled
          rw [travel?, like.isMissing, if_pos missing, travelled, Option.some.injEq]
            at travelledLater
          exact travelledLater ▸ Value.Like.refl content
      | false =>
          rw [travel?, missing, if_neg Bool.false_ne_true] at travelled
          obtain ⟨next, taken, onward⟩ := Option.bind_eq_some_iff.1 travelled
          have first : step.key = key → place ∉ graph.asked value step.key :=
            fun same isAsked => untouched (Or.inl ⟨same, same ▸ isAsked⟩)
          have looked := take?_look? taken
          obtain ⟨nextLater, lookedLater, likeNext⟩ :=
            look?_of_rel (find?_store_like graph stored first) looked
          rw [travel?, like.isMissing, missing, if_neg Bool.false_ne_true, take?_of_like _ like]
            at travelledLater
          obtain ⟨other, takenLater, onwardLater⟩ := Option.bind_eq_some_iff.1 travelledLater
          have same := take?_look? takenLater
          rw [lookedLater, Option.some.injEq] at same
          subst same
          exact inductionHypothesis likeNext onward
            (fun asks => untouched (Or.inr (member_of_look? looked ▸ asks))) onwardLater

/-! ## Ways among old objects -/

namespace Extends

variable {before after : Graph} (extends_ : before.Extends after) (closed : before.Closed)

include extends_ closed

theorem look? {value : Value} (known : before.Knows value) (key : Key) :
    after.look? value key = before.look? value key := by
  rw [Graph.look?, Graph.look?, extends_.find? closed known]

/-- A way from a value that was there before asks only objects that were there before. -/
theorem asks_lt {value : Value} {steps : List Step} (known : before.Knows value) {place : Nat}
    {key : Key} (asks : after.Asks value steps place key) : place < before.objects.size := by
  induction steps generalizing value with
  | nil => exact asks.elim
  | cons step rest inductionHypothesis =>
      rcases asks with ⟨_, isAsked⟩ | onward
      · refine closed.asked_lt known (show place ∈ before.asked value key from ?_)
        have own : after.own? value key = before.own? value key := by
          cases value <;> simp only [own?]
          exact extends_.ownAt? (knows_object.1 known) key
        unfold asked at isAsked ⊢
        rw [own, extends_.follows.ancestors closed known] at isAsked
        rcases List.mem_append.1 isAsked with itself | above
        · exact List.mem_append_left _ itself
        · refine List.mem_append_right _ ?_
          split at above
          · simp at above
          · rename_i absent
            rw [if_neg absent]
            rwa [upTo_congr] at above
            intro other member
            rw [extends_.ownAt? (closed.ancestors_lt value other (Closed.mem_upTo member))]
      · rw [extends_.member closed known] at onward
        exact inductionHypothesis (closed.member_known value step.key) onward

/-- What a way from an old value leads to is old. -/
theorem travel?_known {value content : Value} {steps : List Step} (known : before.Knows value)
    (travelled : after.travel? value steps = some content) : before.Knows content := by
  induction steps generalizing value with
  | nil =>
      cases travelled
      exact known
  | cons step rest inductionHypothesis =>
      rw [travel?] at travelled
      split at travelled
      · cases travelled
        exact knows_of_isObject_eq_false rfl
      · obtain ⟨next, taken, onward⟩ := Option.bind_eq_some_iff.1 travelled
        have looked := take?_look? taken
        rw [extends_.look? closed known] at looked
        exact inductionHypothesis (closed.look?_known looked) onward

end Extends

end ObjectPath.Graph
