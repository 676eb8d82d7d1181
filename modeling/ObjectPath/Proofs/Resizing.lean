import ObjectPath.Proofs.Approach
import ObjectPath.Proofs.Storing

/-!
# Arrays that get another length

A length that is assigned to an array drops the elements past it and changes nothing else.  What
conforms before does so afterwards, as long as no other value inherits from the array, and the
array no elements.
-/

namespace ObjectPath

open Graph

namespace Entries

variable {κ α : Type} [DecidableEq κ]

/-- A filter of keys drops them and nothing else. -/
theorem get?_filter (entries : List (κ × α)) (keep : κ → Bool) (key : κ) :
    get? (entries.filter fun entry => keep entry.1) key =
      if keep key then get? entries key else none := by
  induction entries with
  | nil => simp [get?]
  | cons head rest hypothesis =>
      by_cases same : head.1 = key
      · subst same
        cases kept : keep head.1 <;> simp [kept, get?, hypothesis]
      · cases kept : keep head.1 <;> simp [kept, get?, hypothesis, same]

end Entries

/-- A step with an element number as its key is one to an element. -/
theorem Step.exists_ofIndex {step : Step} {position : Nat} (isIndex : step.key = .index position) :
    ∃ index, step.key = .ofIndex index := by
  cases step with
  | element index => exact ⟨index, rfl⟩
  | field name =>
      change Key.ofText name = .index position at isIndex
      change ∃ index, Key.ofText name = .ofIndex index
      rw [isIndex]
      unfold Key.ofText at isIndex
      dsimp only at isIndex
      split at isIndex
      · rename_i small
        cases isIndex
        simp only [Bool.and_eq_true, decide_eq_true_eq] at small
        exact ⟨_, (if_pos small.1).symm⟩
      · cases isIndex

/-- Whether an array that is cut to a length keeps what it has under a key. -/
def Key.isWithin (length : Nat) : Key → Bool
  | .index position => decide (position < length)
  | .name _ => true

namespace Object

/-- An object that gets another length keeps its members, but for the length itself and elements
that are dropped. -/
theorem own?_resize (object : Object) (length : Nat) (key : Key) :
    (object.resize length).own? key = object.own? key ∨
      (key = .name "length" ∧ ∃ old new flags,
        object.own? key = some (.data (.number old) flags) ∧
          (object.resize length).own? key = some (.data (.number new) flags)) ∨
      (∃ position, key = .index position) ∧ (object.resize length).own? key = none := by
  obtain ⟨parent, body, slots, extensible⟩ := object
  cases body with
  | items old resizable =>
      by_cases isLength : key = .name "length"
      · subst isLength
        exact Or.inr (Or.inl ⟨rfl, _, _, _, rfl, rfl⟩)
      · have kept := Entries.get?_filter slots (Key.isWithin length) key
        simp only [own?, resize, intrinsic?, if_neg isLength]
        cases key with
        | index position =>
            by_cases inside : position < length
            · exact Or.inl (kept.trans (if_pos (decide_eq_true inside)))
            · exact Or.inr (Or.inr ⟨⟨position, rfl⟩,
                kept.trans (if_neg (by simpa [Key.isWithin] using inside))⟩)
        | name text => exact Or.inl (kept.trans (if_pos rfl))
  | _ => exact Or.inl rfl

theorem resize_nature (object : Object) (length : Nat) :
    (object.resize length).parent = object.parent ∧
      (object.resize length).extensible = object.extensible ∧
      Graph.Nature object.body (object.resize length).body := by
  obtain ⟨parent, body, slots, extensible⟩ := object
  cases body with
  | items old resizable => exact ⟨rfl, rfl, Or.inr ⟨old, length, resizable, rfl, rfl⟩⟩
  | _ => exact ⟨rfl, rfl, Or.inl rfl⟩

end Object

namespace Graph

/-- The graph in which an array has another length. -/
def resized (graph : Graph) (place length : Nat) : Graph :=
  graph.modifyTarget (.object place) (·.resize length)

variable (graph : Graph) {place : Nat} (length : Nat)

theorem object?_resized (place other : Nat) :
    (graph.resized place length).object? other =
      if other = place then (graph.object? place).map (·.resize length)
      else graph.object? other := by
  unfold resized modifyTarget modifyObject object?
  by_cases same : other = place
  · subst same
    simp [Array.getElem?_modify]
  · simp [Array.getElem?_modify, same, Ne.symm same]

theorem ownAt?_resized_of_ne {other : Nat} (key : Key) (different : other ≠ place) :
    (graph.resized place length).ownAt? other key = graph.ownAt? other key := by
  rw [ownAt?, object?_resized, if_neg different, ownAt?]

theorem ownAt?_resized (place : Nat) (key : Key) :
    (graph.resized place length).ownAt? place key = graph.ownAt? place key ∨
      (key = .name "length" ∧ ∃ old new flags,
        graph.ownAt? place key = some (.data (.number old) flags) ∧
          (graph.resized place length).ownAt? place key = some (.data (.number new) flags)) ∨
      (∃ position, key = .index position) ∧
        (graph.resized place length).ownAt? place key = none := by
  unfold ownAt?
  rw [object?_resized, if_pos rfl]
  cases graph.object? place with
  | none => exact Or.inl rfl
  | some object => exact object.own?_resize length key

/-- Names but that of the length find what they found. -/
theorem ownAt?_resized_of_name (place other : Nat) {text : String} (notLength : text ≠ "length") :
    (graph.resized place length).ownAt? other (.name text) = graph.ownAt? other (.name text) := by
  by_cases same : other = place
  · subst same
    rcases graph.ownAt?_resized length other (.name text) with
      unchanged | ⟨isLength, _⟩ | ⟨⟨_, impossible⟩, _⟩
    · exact unchanged
    · cases isLength
      exact absurd rfl notLength
    · cases impossible
  · exact graph.ownAt?_resized_of_ne length _ same

theorem follows_resized (place : Nat) : graph.Follows (graph.resized place length) where
  size := by
    unfold resized modifyTarget modifyObject
    simp
  kept := by
    intro other object found
    rw [object?_resized]
    by_cases same : other = place
    · subst same
      rw [if_pos rfl, found]
      exact ⟨_, rfl, object.resize_nature length⟩
    · rw [if_neg same]
      exact ⟨object, found, rfl, rfl, Or.inl rfl⟩
  declared := by
    unfold resized modifyTarget modifyObject
    rfl

/-! ## Lookups -/

variable {graph}

theorem Closed.ancestors_resized (closed : graph.Closed) (place : Nat) {value : Value}
    (known : graph.Knows value) :
    (graph.resized place length).ancestors value = graph.ancestors value :=
  (graph.follows_resized length place).ancestors closed known

theorem Closed.find?_resized_of_not_asked (closed : graph.Closed) {value : Value}
    (known : graph.Knows value) {key : Key} (notAsked : place ∉ graph.asked value key) :
    (graph.resized place length).find? value key = graph.find? value key :=
  find?_eq_of_asked (closed.ancestors_resized length place known) fun _ isAsked =>
    graph.ownAt?_resized_of_ne length key fun same => notAsked (same ▸ isAsked)

theorem Closed.sameTypes_resized (closed : graph.Closed) (place : Nat) :
    graph.SameTypes (graph.resized place length) where
  toFollows := graph.follows_resized length place
  classes := by
    intro other key isClassKey _
    simp only [classKeys, List.mem_cons, List.not_mem_nil, or_false] at isClassKey
    rcases isClassKey with rfl | rfl
    · exact graph.ownAt?_resized_of_name length place other (by decide)
    · exact graph.ownAt?_resized_of_name length place other (by decide)
  calm := fun impossible => absurd impossible List.not_mem_nil
  component := by
    intro type isArrayType
    have ancestors := closed.ancestors_resized length place (knows_of_isArrayType isArrayType)
    rw [member, find?_eq_of_asked ancestors fun other _ =>
      graph.ownAt?_resized_of_name length place other (by decide), member]

/-- An array that gets another length, and inherits no elements, has what it had, or another
length, or nothing.  Values that do not inherit from it have what they had. -/
theorem Closed.look?_resized (closed : graph.Closed) {value content : Value}
    (known : graph.Knows value) (sole : place ∉ graph.ancestors value)
    (elements : value = .object place → ∀ other ∈ graph.ancestors value, ∀ index,
      graph.ownAt? other (.ofIndex index) = none)
    {step : Step} (looked : graph.look? value step.key = some content) :
    ∃ onward, (graph.resized place length).look? value step.key = some onward ∧
      (Value.Like content onward ∨ onward = .undefined) := by
  have ancestors := closed.ancestors_resized length place known
  have unchanged : (graph.resized place length).find? value step.key =
      graph.find? value step.key → ∃ onward,
        (graph.resized place length).look? value step.key = some onward ∧
          (Value.Like content onward ∨ onward = .undefined) :=
    fun same => ⟨content, by rw [look?, same]; exact looked, Or.inl (.refl content)⟩
  by_cases isPlace : value = .object place
  · subst isPlace
    rcases graph.ownAt?_resized length place step.key with
      same | ⟨_, old, new, flags, before, after⟩ | ⟨⟨position, isIndex⟩, gone⟩
    · refine unchanged (find?_eq_of_asked ancestors fun other _ => ?_)
      by_cases isHolder : other = place
      · rw [isHolder, same]
      · exact graph.ownAt?_resized_of_ne length _ isHolder
    · rw [look?, find?, own?, before] at looked
      cases looked
      exact ⟨.number new, by rw [look?, find?, own?, after], Or.inl (Or.inr ⟨old, new, rfl, rfl⟩)⟩
    · have isElement : ∃ index, step.key = .ofIndex index := step.exists_ofIndex isIndex
      obtain ⟨index, isElement⟩ := isElement
      have none_ : (graph.resized place length).find? (.object place) step.key = none := by
        rw [find?, own?, gone]
        refine List.findSome?_eq_none_iff.2 fun other above => ?_
        rw [ancestors] at above
        have different : other ≠ place := fun same => sole (same ▸ above)
        rw [graph.ownAt?_resized_of_ne length step.key different, isElement]
        exact elements rfl other above index
      exact ⟨.undefined, by rw [look?, none_], Or.inr rfl⟩
  · refine unchanged (closed.find?_resized_of_not_asked length known fun isAsked => ?_)
    exact (mem_asked isAsked).elim isPlace sole

/-! ## Conformity -/

variable {steps : List Step} {inside : Value → Prop}

/-- What conforms does so after an array got another length. -/
theorem Conforming.resized (sound : graph.Sound)
    (conforming : graph.Conforming steps (fun _ => False) inside)
    (sole : ∀ {value : Value}, inside value → place ∉ graph.ancestors value)
    (elements : ∀ other ∈ graph.ancestors (.object place), ∀ index,
      graph.ownAt? other (.ofIndex index) = none)
    (nothing : inside .undefined) :
    (graph.resized place length).Conforming steps (fun _ => False) inside := by
  have closed := sound.toClosed
  have same := closed.sameTypes_resized length place
  -- A slot holds what conforms wherever its content did.
  have looks : ∀ {value : Value} {step : Step}, inside value → value.isMissing = false →
      graph.Reads steps value step.key → ∃ onward,
        (graph.resized place length).look? value step.key = some onward ∧ inside onward ∧
          ∀ {type : Value}, graph.Conforms type (graph.member value step.key) →
            graph.Conforms type onward := by
    intro value step isInside present reads
    obtain ⟨content, looked, isContent | ⟨⟨⟩, _⟩⟩ := conforming.looked isInside present reads
    obtain ⟨onward, lookedOnward, like | rfl⟩ := closed.look?_resized length
      (conforming.known isInside) (sole isInside)
      (fun isPlace other above => elements other (isPlace ▸ above)) looked
    · rw [member_of_look? looked]
      exact ⟨onward, lookedOnward, conforming.like isContent like, fun conforms =>
        conforms.of_like like⟩
    · exact ⟨.undefined, lookedOnward, nothing, fun _ => .of_isMissing rfl⟩
  have conforms : ∀ {type value : Value}, inside value → graph.Knows type →
      graph.Conforms type value → (graph.resized place length).Conforms type value := by
    intro type value isInside knownType conforms depth
    induction depth generalizing type value with
    | zero => trivial
    | succ depth inductionHypothesis =>
        have known := conforming.known isInside
        rcases conforms 1 with missing | ⟨takes, _⟩
        · exact Or.inl missing
        · refine Or.inr ⟨(same.takes closed knownType known).trans takes, fun isArray index => ?_⟩
          rw [same.isArray known] at isArray
          have names : graph.Names steps value (.element index) := isArray
          obtain ⟨onward, looked, isOnward, goesOn⟩ :=
            looks isInside (isMissing_of_isArray isArray) (reads_of_names names)
          have isElement : (graph.resized place length).member value (.ofIndex index) = onward :=
            member_of_look? looked
          rw [isElement, same.componentType closed knownType]
          exact inductionHypothesis isOnward (sound.componentType_known type)
            (goesOn (conforms.component isArray index))
  refine ⟨fun isInside => same.knows (conforming.known isInside), conforming.like, ?_, ?_⟩
  · intro value key isInside present reads
    rw [same.reads closed (conforming.known isInside)] at reads
    obtain ⟨step, rfl⟩ : ∃ step : Step, step.key = key := by
      rcases reads with listed | ⟨step, _, isKey⟩
      · obtain ⟨step, _, isKey⟩ := List.mem_map.1 listed
        exact ⟨step, isKey⟩
      · exact ⟨step, isKey⟩
    obtain ⟨onward, looked, isOnward, _⟩ := looks isInside present reads
    exact ⟨onward, looked, Or.inl isOnward⟩
  · intro value name declaration isInside present declared
    rw [same.declaration? closed (conforming.known isInside)] at declared
    have names : graph.Names steps value (.field name) := Or.inr (by rw [declared]; rfl)
    obtain ⟨onward, looked, isOnward, goesOn⟩ := looks isInside present (reads_of_names names)
    have isMember : (graph.resized place length).member value (.ofText name) = onward :=
      member_of_look? looked
    have knownType := sound.fieldType_known value name
    rw [fieldType_of_declaration? declared] at knownType
    rw [isMember]
    exact conforms isOnward knownType (goesOn (conforming.fields isInside present declared))

end Graph

/-! ## Assignments of lengths -/

section Assignment

variable {graph : Graph} {value holder : Value}

/-- No script is run for the number of a simple value. -/
theorem Run.numberOf_peeks (simple : value.isObject = false) :
    Peeks (Run.numberOf perform value) graph fun _ => True := by
  unfold Run.numberOf
  have simplified : Run.simplify perform .number value graph = .ok value graph := by
    unfold Run.simplify
    rw [simple, if_neg Bool.false_ne_true]
    rfl
  refine Ensures.ok_bind simplified ?_
  split
  · exact Peeks.pure trivial
  · exact Peeks.throw

theorem Run.lengthOf_peeks (simple : value.isObject = false) :
    Peeks (Run.lengthOf perform value) graph fun _ => True := by
  unfold Run.lengthOf
  refine (Run.numberOf_peeks simple).bind fun _ _ => ?_
  refine (Run.numberOf_peeks simple).bind fun number _ => ?_
  split
  · split
    · exact Peeks.pure trivial
    · exact Peeks.throw
  · exact Peeks.throw

/-- The length of an array is given anew by an assignment, or cannot be written. -/
theorem exists_place_of_isLength {key : Key} (isLength : graph.isLength holder key = true) :
    key = .name "length" ∧ ∃ place, holder = .object place ∧
      (graph.placement holder key = .length ∨ graph.placement holder key = .readOnly) := by
  obtain ⟨isArray, isKey⟩ := Bool.and_eq_true_iff.1 isLength
  cases beq_iff_eq.1 isKey
  refine ⟨rfl, ?_⟩
  unfold Graph.isArray arrayLength? at isArray
  split at isArray
  · rename_i found
    cases holder with
    | object place =>
        have own : graph.own? (.object place) (.name "length") = some (.data (.ofNat _) _) :=
          own?_of_object? found _
        refine ⟨place, rfl, ?_⟩
        unfold placement
        rw [own]
        dsimp only
        split
        · exact Or.inl rfl
        · exact Or.inr rfl
    | _ => cases found
  · cases isArray

theorem Run.assignWith_length_ensures {place : Nat} {key : Key}
    (placed : graph.placement (.object place) key = .length ∨
      graph.placement (.object place) key = .readOnly) (simple : value.isObject = false) :
    Ensures (Run.assignWith perform (.object place) key value) graph
      (fun taken later => taken = true ∧ (∃ length, later = graph.resized place length) ∨
        taken = false ∧ later = graph)
      fun _ later => later = graph := by
  unfold Run.assignWith
  refine Ensures.get_bind ?_
  rcases placed with isLength | readOnly
  · rw [isLength]
    refine (Run.lengthOf_peeks simple).ensures_bind (fun length _ => ?_) fun _ => rfl
    exact Or.inl ⟨rfl, length, rfl⟩
  · rw [readOnly]
    exact Or.inr ⟨rfl, rfl⟩

/-- A simple value that is assigned to the length of an array gives it another length, or is
refused. -/
theorem Node.settle_length_ensures {resolver : Resolver} {node : Node}
    (plainNode : node.isPlain = true)
    (isLength : graph.isLength holder (node.final resolver).key = true)
    (simple : value.isObject = false) :
    Ensures (node.settle resolver holder value) graph
      (fun _ later => ∃ place length, holder = .object place ∧ later = graph.resized place length)
      fun _ later => later = graph := by
  obtain ⟨isLengthKey, place, rfl, placed⟩ := exists_place_of_isLength isLength
  cases node with
  | method => cases plainNode
  | array serial text index inner =>
      exact absurd isLengthKey (Key.ofIndex_ne_name index
        (show 'l' ∈ "length".toList by decide) (by decide))
  | field serial name =>
      unfold Node.settle FieldMember.set
      refine Ensures.bind (Run.assignWith_length_ensures placed simple) ?_
      rintro taken later (⟨rfl, length, rfl⟩ | ⟨rfl, rfl⟩)
      · exact ⟨place, length, rfl, rfl⟩
      · rfl

end Assignment

end ObjectPath
