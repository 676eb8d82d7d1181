import ObjectPath.Proofs.Supply

/-!
# What evaluations keep

Every step that an evaluation takes keeps what it relies on: the graph stays sound and grows,
and plain data stays plain.  Two kinds of stores do: one that fills in a value where nothing
is found, and one into an object that is new.
-/

namespace ObjectPath

open Graph

/-! ## Keys of steps -/

theorem Key.eq_of_ofText {text name : String} (same : Key.ofText text = .name name) :
    text = name := by
  simp only [Key.ofText] at same
  split at same
  · cases same
  · cases same
    rfl

/-- An element number is no name with a character that is no digit. -/
theorem Key.ofIndex_ne_name (position : Nat) {text : String} {character : Char}
    (member : character ∈ text.toList) (noDigit : character.isDigit = false) :
    Key.ofIndex position ≠ .name text := by
  unfold Key.ofIndex
  split
  · simp
  · intro same
    have digits : Nat.repr position = text := by
      injection same
    rw [← digits, Nat.toList_repr] at member
    have isDigit := Nat.isDigit_of_mem_toDigits (by decide) (by decide) member
    rw [noDigit] at isDigit
    cases isDigit

theorem Key.ofIndex_not_mem_classKeys (position : Nat) : Key.ofIndex position ∉ classKeys := by
  intro member
  simp only [classKeys, List.mem_cons, List.not_mem_nil, or_false] at member
  rcases member with same | same
  · exact Key.ofIndex_ne_name position (show 'c' ∈ "constructor".toList by decide) (by decide) same
  · exact Key.ofIndex_ne_name position (show 'p' ∈ "prototype".toList by decide) (by decide) same

theorem Key.ofIndex_not_mem_namingKeys (position : Nat) : Key.ofIndex position ∉ namingKeys := by
  intro member
  simp only [namingKeys, List.mem_cons, List.not_mem_nil, or_false] at member
  rcases member with same | same
  · exact Key.ofIndex_ne_name position (show 'n' ∈ "name".toList by decide) (by decide) same
  · exact Key.ofIndex_ne_name position (show 'c' ∈ "componentType".toList by decide) (by decide)
      same

/-- The class of a value is never found under the name of a field. -/
theorem Graph.field?_not_mem_classKeys {graph : Graph} {value : Value} {name : String}
    (isField : (graph.field? value name).isSome = true) : Key.ofText name ∉ classKeys := by
  intro member
  unfold Graph.field? at isField
  split at isField
  · cases isField
  · rename_i allowed
    simp only [classKeys, List.mem_cons, List.not_mem_nil, or_false] at member
    rcases member with same | same <;> rw [Key.eq_of_ofText same] at allowed <;>
      exact allowed (by decide)

/-- A value has what the last step of a write asks for, apart from the slot: a field of that
name. -/
def Graph.Opens (graph : Graph) (value : Value) : Step → Prop
  | .field name => (graph.field? value name).isSome = true
  | .element _ => True

theorem Graph.Opens.not_mem_classKeys {graph : Graph} {value : Value} {step : Step}
    (opens : graph.Opens value step) : step.key ∉ classKeys := by
  cases step with
  | field name => exact field?_not_mem_classKeys opens
  | element index => exact Key.ofIndex_not_mem_classKeys index

/-! ## Keeping -/

namespace Scene

variable {scene : Scene} {floor : Nat}

/-- What an evaluation keeps from one graph to a later one. -/
structure Kept (scene : Scene) (floor : Nat) (before after : Graph) : Prop where
  holds : scene.Holds after
  grows : before.Grows scene.guarded after
  plain : ∀ {value : Value} {bound : Nat}, bound ≤ floor → before.Knows value →
    before.Plain scene.keys bound value → after.Plain scene.keys bound value
  above : ∀ {earlier : Graph}, earlier.Extends before → earlier.objects.size ≤ floor →
    earlier.Extends after

namespace Kept

theorem of_extends {before after : Graph} (holds : scene.Holds before)
    (extends_ : before.Extends after) (sound : after.Sound) : scene.Kept floor before after where
  holds := holds.extends extends_ sound
  grows := extends_.grows holds.sound.toClosed
  plain := fun _ known plain => plain.extends extends_ holds.sound.toClosed known
  above := fun earlier _ => earlier.trans extends_

theorem refl {graph : Graph} (holds : scene.Holds graph) : scene.Kept floor graph graph :=
  of_extends holds (Extends.refl graph) holds.sound

theorem trans {first second third : Graph} (left : scene.Kept floor first second)
    (right : scene.Kept floor second third) : scene.Kept floor first third where
  holds := right.holds
  grows := left.grows.trans right.grows
  plain := fun below known plain =>
    right.plain below (left.grows.knows known) (left.plain below known plain)
  above := fun earlier below => right.above (left.above earlier below) below

/-- A store keeps everything if it fills in a value where nothing is found, or if it goes into
an object that is new since the earlier graph. -/
theorem store {before after : Graph} {place : Nat} {key : Key} {content : Value}
    (kept : scene.Kept floor before after) (holds : scene.Holds before)
    (accepted : after.placement (.object place) key = .slot)
    (empty : after.Lacks (.object place) key ∨
      before.objects.size ≤ place ∧ key ∉ namingKeys)
    (known : after.Knows content) (plain : after.Plain scene.keys floor content)
    (noClass : key ∉ classKeys) (calm : key ∈ scene.guarded → after.isCallable content = false)
    (above : floor ≤ place) :
    scene.Kept floor before (after.store (.object place) key content) := by
  have sound : (after.store (.object place) key content).Sound := by
    refine kept.holds.sound.store accepted known fun isNamingKey => ?_
    rcases empty with lacks | ⟨_, noName⟩
    · exact lacks
    · exact absurd isNamingKey noName
  have grows : before.Grows scene.guarded (after.store (.object place) key content) := by
    rcases empty with lacks | ⟨new, _⟩
    · exact kept.grows.trans
        (kept.holds.sound.toClosed.grows_store accepted lacks known noClass calm)
    · exact kept.grows.store_new holds.sound.toClosed new key content
  have follows := follows_store after place key content
  refine ⟨⟨sound, holds.grows.trans grows, ?known, ?grounds⟩, grows, ?plain, ?above⟩
  case known =>
    intro value member
    exact follows.knows (kept.holds.known value member)
  case grounds =>
    intro value member
    exact (kept.holds.plain value member).store accepted (plain.lower (Nat.zero_le floor))
  case plain =>
    intro value bound below knownValue plainValue
    exact (kept.plain below knownValue plainValue).store accepted (plain.lower below)
  case above =>
    intro earlier extends_ below
    exact (kept.above extends_ below).store (Nat.le_trans below above) key content

end Kept

end Scene

end ObjectPath
