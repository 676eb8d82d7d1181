import ObjectPath.Proofs.Travel

/-!
# What nodes read

Reading a node that calls no method leaves the graph as it is and gives what its steps lead
to.  Where they lead nowhere, the read fails; that the graph is left alone then as well needs
a sound graph, since the fault names the class of a value.
-/

namespace ObjectPath

open Graph

variable {graph : Graph}

/-! ## Classes of values -/

namespace Graph

/-- Nothing is computed where a value is looked up under a key. -/
def Shows (graph : Graph) (value : Value) (key : Key) : Prop :=
  graph.look? value key = some (graph.member value key)

instance (graph : Graph) (value : Value) (key : Key) : Decidable (graph.Shows value key) :=
  inferInstanceAs (Decidable (_ = _))

/-- Nothing is computed where the class of a value and what it shares are looked up. -/
structure ShowsClass (graph : Graph) (value : Value) : Prop where
  owner : graph.Shows value (.name "constructor")
  ownerShares : graph.Shows (graph.member value (.name "constructor")) (.name "prototype")
  classShares : graph.Shows (graph.classOf value) (.name "prototype")

theorem Classed.showsClass (classed : graph.Classed) (value : Value) : graph.ShowsClass value where
  owner := classed.look? value _ (by decide)
  ownerShares := classed.look? _ _ (by decide)
  classShares := classed.look? _ _ (by decide)

theorem classOf_isMissing (graph : Graph) (value : Value) :
    (graph.classOf value).isMissing = false := by
  dsimp only [classOf]
  split
  · rfl
  · split
    · rename_i isClass
      simp only [Bool.and_eq_true] at isClass
      cases owner : graph.member value (.name "constructor") with
      | undefined => simp [owner, isCallable, callee?, objectOf?, Value.place?] at isClass
      | null => simp [owner, isCallable, callee?, objectOf?, Value.place?] at isClass
      | _ => rfl
    · rfl

/-- The class of a value is a class. -/
theorem Sound.classOf_isCallable (sound : graph.Sound) (value : Value) :
    graph.isCallable (graph.classOf value) = true := by
  dsimp only [classOf]
  split
  · exact sound.arrayClass
  · split
    · rename_i isClass
      simp only [Bool.and_eq_true] at isClass
      exact isClass.1
    · exact sound.openType

end Graph

namespace Run

theorem isConstructor_eq {owner : Value} (shows_ : graph.Shows owner (.name "prototype")) :
    isConstructor owner graph =
      .ok (graph.isCallable owner && graph.member owner (.name "prototype") ≠ .undefined) graph := by
  change (if graph.isCallable owner = true then
    (read owner "prototype" >>= fun shared => pure (decide (shared ≠ .undefined)))
      else pure false) graph = _
  cases callable : graph.isCallable owner with
  | false => rfl
  | true =>
      have looked : graph.look? owner (.name "prototype") = _ := shows_
      rw [← Key.ofText_prototype] at looked
      have shared : read owner "prototype" graph = _ := readWith_of_look? perform looked
      rw [if_pos rfl, bind_of_ok shared, Key.ofText_prototype]
      simp only [Bool.true_and]
      rfl

/-- The type of a value is its class. -/
theorem typeOf_of_showsClass {value : Value} (shown : graph.ShowsClass value) :
    typeOf value graph = .ok (graph.classOf value) graph := by
  dsimp only [Graph.classOf]
  change (if graph.isArray value = true then pure (.object BuiltinClass.array.place) else
    (readAsObject value "constructor" >>= fun owner => isConstructor owner >>= fun isClass =>
      if isClass = true then pure owner else pure ObjectPath.openType)) graph = _
  cases isArray : graph.isArray value with
  | true => rfl
  | false =>
      have looked : graph.look? value (.name "constructor") = _ := shown.owner
      rw [← Key.ofText_constructor] at looked
      have owner := readAsObject_of_look? looked
      rw [Key.ofText_constructor] at owner
      simp only [Bool.false_eq_true, if_false]
      rw [bind_of_ok owner, bind_of_ok (isConstructor_eq shown.ownerShares)]
      split <;> rfl

theorem typeOf_eq (classed : graph.Classed) (value : Value) :
    typeOf value graph = .ok (graph.classOf value) graph :=
  typeOf_of_showsClass (classed.showsClass value)

end Run

/-! ## Fields -/

theorem Graph.field?_name {target : Value} {name : String} {field : FieldMember}
    (isField : graph.field? target name = some field) : field.name = name := by
  unfold Graph.field? at isField
  repeat' split at isField
  all_goals cases isField <;> rfl

theorem holderOf_of_shows {owner : Value} (present : owner.isMissing = false)
    (shows_ : graph.Shows owner (.name "prototype")) :
    holderOf owner .onInstance graph = .ok (graph.member owner (.name "prototype")) graph := by
  have looked : graph.look? owner (.name "prototype") = _ := shows_
  rw [← Key.ofText_prototype] at looked ⊢
  exact Run.stepWith_of_look? perform present looked

theorem holderOf_eq (classed : graph.Classed) {owner : Value} (present : owner.isMissing = false) :
    holderOf owner .onInstance graph = .ok (graph.member owner (.name "prototype")) graph :=
  holderOf_of_shows present (classed.look? _ _ (by decide))

theorem fieldOnValue_answers {firm : Prop} {owner value : Value} {name : String}
    (present : value.isMissing = false) (sound : firm → graph.Sound)
    (looks : firm → (graph.look? value (.ofText name)).isSome = true)
    (isType : firm → graph.IsType owner) :
    Answers (fieldOnValue owner name value) graph firm
      ((graph.look? value (.ofText name)).bind fun content =>
        if graph.hasOpenField value name content then some (openField owner name .onInstance)
        else none) := by
  cases looked : graph.look? value (.ofText name) with
  | none =>
      intro isFirm
      have impossible := looks isFirm
      rw [looked] at impossible
      cases impossible
  | some content =>
      refine Answers.ok_bind (Run.readAsObject_of_look? looked) ?_
      apply Answers.get_bind
      unfold hasOpenField
      rw [Option.bind_some]
      by_cases isOwn : (graph.has value (.ofText name) && !graph.isCallable content) = true
      · rw [if_pos isOwn, isOwn]
        exact rfl
      · rw [if_neg isOwn, Bool.eq_false_iff.2 isOwn, Bool.false_or]
        have notNull : value ≠ .null := by
          rintro rfl
          cases present
        rw [if_neg notNull]
        split
        · exact rfl
        · exact Answers.throw_bind fun isFirm =>
            notFound_peeks (sound isFirm) .field (isType isFirm) name none

theorem findField_answers {firm : Prop} {target : Value} {name : String}
    (shown : graph.ShowsClass target) (present : target.isMissing = false) (sound : firm → graph.Sound)
    (looks : firm → (graph.look? target (.ofText name)).isSome = true) :
    Answers (findField (graph.classOf target) name .onInstance (some target)) graph firm
      (graph.field? target name) := by
  have isType : firm → graph.IsType (graph.classOf target) := fun isFirm =>
    Or.inl ((sound isFirm).classOf_isCallable target)
  unfold findField Graph.field?
  by_cases blocked : blockedNames.contains name = true
  · rw [if_pos blocked, if_pos blocked]
    exact Answers.throw_bind fun isFirm =>
      notFound_peeks (sound isFirm) .field (isType isFirm) name none
  · rw [if_neg blocked, if_neg blocked]
    apply Answers.get_bind
    cases Entries.get? (graph.fields (graph.classOf target) .onInstance) name with
    | some declaration => exact rfl
    | none =>
        refine Answers.ok_bind
          (holderOf_of_shows (graph.classOf_isMissing target) shown.classShares) ?_
        apply Answers.get_bind
        unfold hasUndeclared Graph.shared?
        cases ownAmong? graph (holdersFrom graph
            (graph.member (graph.classOf target) (.name "prototype")) .onInstance) name with
        | some property =>
            by_cases isFunction : holdsFunction graph property = true
            · simp only [isFunction, if_true, Bool.not_true, Bool.false_eq_true, if_false]
              exact Answers.throw_bind fun isFirm =>
                notFound_peeks (sound isFirm) .field (isType isFirm) name _
            · simp only [isFunction, Bool.not_false, if_true]
              exact rfl
        | none =>
            have known : knownValue (some target) = some target := by
              cases target <;> first | rfl | cases present
            simp only [known]
            have answers := fieldOnValue_answers present sound looks isType
            cases looked : graph.look? target (.ofText name) <;> rw [looked] at answers <;>
              exact answers

/-! ## Elements -/

theorem notAnArray_peeks (sound : graph.Sound) (text : String) (value : Value) :
    Peeks (Node.notAnArray text value) graph fun _ => True := by
  refine Peeks.bind (?_ : Peeks _ graph fun _ => True) fun _ _ => Peeks.pure trivial
  apply Peeks.get_bind
  dsimp only
  split
  · have type := Run.typeOf_eq sound.toClassed value
    unfold Peeks Ensures
    rw [bind_of_ok type]
    exact Run.typeText_peeks sound (Or.inl (sound.classOf_isCallable value))
  · exact Peeks.pure trivial

theorem loadElement_answers {firm : Prop} (text : String) (index : Nat) {array : Value}
    (sound : firm → graph.Sound)
    (looks : firm → array.isMissing = false → (graph.look? array (.ofIndex index)).isSome = true) :
    Answers (Node.loadElement text index array) graph firm
      (graph.travel? array [.element index]) := by
  unfold Node.loadElement
  rw [travel?]
  cases missing : array.isMissing with
  | true => exact rfl
  | false =>
      apply Answers.get_bind
      simp only [take?, Bool.false_eq_true, if_false]
      cases isArray : graph.isArray array with
      | false =>
          exact Answers.throw_bind fun isFirm => notAnArray_peeks (sound isFirm) text array
      | true =>
          cases looked : graph.look? array (.ofIndex index) with
          | none =>
              intro isFirm
              have impossible := looks isFirm missing
              rw [looked] at impossible
              cases impossible
          | some content => exact Run.readWith_of_look? perform looked

/-! ## Nodes -/

/-- The keys of steps are among some keys. -/
def Within (keys : List Key) (steps : List Step) : Prop :=
  ∀ step ∈ steps, step.key ∈ keys

theorem Within.append {keys : List Key} {first second : List Step} :
    Within keys (first ++ second) ↔ Within keys first ∧ Within keys second := by
  simp only [Within, List.mem_append, or_imp, forall_and]

theorem Graph.Plain.travel? {keys : List Key} {floor : Nat} {value content : Value}
    {steps : List Step} (plain : graph.Plain keys floor value) (within : Within keys steps)
    (travelled : graph.travel? value steps = some content) : graph.Plain keys floor content := by
  induction steps generalizing value with
  | nil =>
      cases travelled
      exact plain
  | cons step rest inductionHypothesis =>
      rw [Graph.travel?] at travelled
      split at travelled
      · cases travelled
        exact Plain.of_isMissing rfl
      · rename_i present
        obtain ⟨next, taken, onward⟩ := Option.bind_eq_some_iff.1 travelled
        refine inductionHypothesis ?_ (fun other member => within other (by simp [member])) onward
        exact plain.of_look? (by simpa using present) (within step (by simp)) (take?_look? taken)

namespace Node

variable {resolver : Resolver}

theorem fieldAt_answers_of_showsClass {firm : Prop} {target : Value} {name : String}
    (shown : graph.ShowsClass target) (present : target.isMissing = false) (sound : firm → graph.Sound)
    (looks : firm → (graph.look? target (.ofText (resolver.actualName name))).isSome = true) :
    Answers (fieldAt resolver name (.onValue target)) graph firm
      (graph.field? target (resolver.actualName name)) :=
  Answers.ok_bind (Run.typeOf_of_showsClass shown) (findField_answers shown present sound looks)

theorem fieldAt_answers {firm : Prop} (classed : graph.Classed) {target : Value} {name : String}
    (present : target.isMissing = false) (sound : firm → graph.Sound)
    (looks : firm → (graph.look? target (.ofText (resolver.actualName name))).isSome = true) :
    Answers (fieldAt resolver name (.onValue target)) graph firm
      (graph.field? target (resolver.actualName name)) :=
  fieldAt_answers_of_showsClass (classed.showsClass target) present sound looks

/-- A node that calls no method reads what its steps lead to. -/
theorem read_answers_of_showsClass {firm : Prop} {keys : List Key} {floor : Nat} {target : Value}
    (shown : graph.ShowsClass target) (present : target.isMissing = false)
    (plain : firm → graph.Sound ∧ graph.Plain keys floor target) (arguments : Option ArgumentMap)
    {node : Node} (plainNode : node.isPlain = true) (within : Within keys (node.steps resolver)) :
    Answers (node.read resolver arguments (.onValue target)) graph firm
      (graph.travel? target (node.steps resolver)) := by
  have looks : ∀ {value : Value} {key : Key}, key ∈ keys → value.isMissing = false →
      graph.Plain keys floor value → (graph.look? value key).isSome = true := by
    intro value key named there plain
    obtain ⟨content, looked, _⟩ := plain.look? there named
    rw [looked]
    rfl
  induction node, plainNode using plainInduction with
  | field serial name =>
      have named := within (.field (resolver.actualName name)) (by simp [steps, final, leading])
      have single : graph.travel? target ((Node.field serial name).steps resolver) =
          graph.take? target (.field (resolver.actualName name)) := by
        simp [steps, leading, final, travel?, present]
      rw [single]
      refine Answers.bind (fieldAt_answers_of_showsClass shown present (fun isFirm => (plain isFirm).1)
        fun isFirm => looks named present (plain isFirm).2) ?_
      intro field isField
      unfold FieldMember.get
      rw [field?_name isField]
      cases looked : graph.look? target (.ofText (resolver.actualName name)) with
      | some content => exact Run.readAsObject_of_look? looked
      | none =>
          intro isFirm
          have impossible := looks named present (plain isFirm).2
          rw [Step.key, looked] at impossible
          cases impossible
  | element serial text index =>
      have named := within (.element index) (by simp [steps, final, leading])
      exact loadElement_answers text index (fun isFirm => (plain isFirm).1)
        fun isFirm there => looks named there (plain isFirm).2
  | nested serial text index inner plainInner inductionHypothesis =>
      have parts : (Node.array serial text index (some inner)).steps resolver =
          inner.steps resolver ++ [.element index] := rfl
      rw [parts] at within ⊢
      obtain ⟨withinInner, withinLast⟩ := Within.append.1 within
      have named := withinLast (.element index) (by simp)
      rw [travel?_append]
      refine Answers.bind (inductionHypothesis withinInner) ?_
      intro array travelled
      exact loadElement_answers text index (fun isFirm => (plain isFirm).1) fun isFirm there =>
        looks named there ((plain isFirm).2.travel? withinInner travelled)

theorem read_answers (classed : graph.Classed) {keys : List Key} {floor : Nat} {target : Value}
    (present : target.isMissing = false) (arguments : Option ArgumentMap) {node : Node}
    (plainNode : node.isPlain = true) (within : Within keys (node.steps resolver)) :
    Answers (node.read resolver arguments (.onValue target)) graph
      (graph.Sound ∧ graph.Plain keys floor target)
      (graph.travel? target (node.steps resolver)) :=
  read_answers_of_showsClass (classed.showsClass target) present id arguments plainNode within

end Node

end ObjectPath
