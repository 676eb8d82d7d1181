import ObjectPath.Proofs.Newborn
import ObjectPath.Proofs.Filling

/-!
# Types of nodes

The type of a node is that of the slot which its last step names, as long as every array node
says where its array comes from.  What such a node reads suits its type, and a value that suits
its type is stored where it suits the slot.
-/

namespace ObjectPath

open Graph

namespace Node

/-- Whether every array node says where its array comes from. -/
def isRooted : Node → Bool
  | .field _ _ => true
  | .method _ _ _ _ => true
  | .array _ _ _ none => false
  | .array _ _ _ (some inner) => inner.isRooted

variable (graph : Graph) (resolver : Resolver)

/-- The type of a node on a value that is there, if it has what the node asks for first. -/
def typeOn? (target : Value) : Node → Option Value
  | .field _ name => (graph.field? target (resolver.actualName name)).map (·.type)
  | .method _ _ _ _ => none
  | .array _ _ _ none => some openType
  | .array _ _ _ (some inner) => (inner.typeOn? target).map graph.componentType

end Node

variable {graph : Graph} {resolver : Resolver} {target : Value}

theorem Graph.field?_type {name : String} {field : FieldMember}
    (isField : graph.field? target name = some field) :
    field.type = graph.fieldType target name := by
  unfold Graph.field? at isField
  split at isField
  · cases isField
  · split at isField
    · rename_i found
      cases isField
      exact (fieldType_of_declaration? found).symm
    · rename_i notFound
      have undeclared : graph.declaration? target name = none := notFound
      split at isField
      · cases isField
        rw [fieldType, undeclared]
        rfl
      · cases isField

theorem Run.componentOf_of_shows {type : Value}
    (shows_ : graph.isArrayType type = true → graph.Shows type (.name "componentType")) :
    Run.componentOf type graph = .ok (graph.componentType type) graph := by
  unfold Run.componentOf Graph.componentType
  refine bind_get.trans ?_
  split
  · rename_i isArrayType
    have looked : graph.look? type (.name "componentType") = _ := shows_ isArrayType
    rw [← Key.ofText_componentType] at looked
    have component : Run.read type "componentType" graph = _ :=
      Run.readWith_of_look? perform looked
    rw [Key.ofText_componentType] at component
    exact component
  · rfl

theorem Run.componentOf_answers (sound : graph.Sound) (type : Value) (firm : Prop) :
    Answers (Run.componentOf type) graph firm (some (graph.componentType type)) :=
  componentOf_of_shows fun _ => sound.look? type _ (by decide)

namespace Node

/-- The type of a node that calls no method is what the program finds. -/
theorem typeAt_answers (sound : graph.Sound) {keys : List Key} {floor : Nat}
    (present : target.isMissing = false) (arguments : Option ArgumentMap)
    {node : Node} (plainNode : node.isPlain = true) (within : Within keys (node.steps resolver)) :
    Answers (node.typeAt resolver arguments (.onValue target)) graph
      (graph.Plain keys floor target) (node.typeOn? graph resolver target) := by
  induction node, plainNode using plainInduction with
  | field serial name =>
      have named := within (.field (resolver.actualName name))
        (by simp [Node.steps, Node.final, Node.leading])
      have looks : graph.Plain keys floor target →
          (graph.look? target (.ofText (resolver.actualName name))).isSome = true := by
        intro plain
        obtain ⟨content, looked, _⟩ := plain.look? present named
        rw [show graph.look? target (.ofText (resolver.actualName name)) = some content from looked]
        rfl
      have answers : Answers (fieldAt resolver name (.onValue target) >>= fun member =>
          pure member.type) graph (graph.Plain keys floor target)
          ((graph.field? target (resolver.actualName name)).bind fun member => some member.type) :=
        (fieldAt_answers sound.toClassed present (fun _ => sound) looks).bind fun _ _ => Answers.pure
      rw [typeOn?, Option.map_eq_bind]
      exact answers
  | element serial text index => exact Answers.pure
  | nested serial text index inner plainInner inductionHypothesis =>
      have parts : (Node.array serial text index (some inner)).steps resolver =
          inner.steps resolver ++ [.element index] := rfl
      rw [parts] at within
      rw [typeOn?, Option.map_eq_bind]
      exact (inductionHypothesis (Within.append.1 within).1).bind fun type _ =>
        Run.componentOf_answers sound type _

/-- A node that can be read has a type. -/
theorem typeOn?_isSome {content : Value} {node : Node} (plainNode : node.isPlain = true)
    (present : target.isMissing = false)
    (travelled : graph.travel? target (node.steps resolver) = some content) :
    (node.typeOn? graph resolver target).isSome = true := by
  induction node, plainNode using plainInduction generalizing content with
  | field serial name =>
      rw [Node.steps, Node.leading, List.nil_append, travel?, present, if_neg Bool.false_ne_true]
        at travelled
      obtain ⟨_, taken, _⟩ := Option.bind_eq_some_iff.1 travelled
      obtain ⟨field, isField, _⟩ := Option.bind_eq_some_iff.1 taken
      rw [typeOn?, isField]
      rfl
  | element serial text index => rfl
  | nested serial text index inner plainInner inductionHypothesis =>
      rw [show (Node.array serial text index (some inner)).steps resolver =
        inner.steps resolver ++ [.element index] from rfl, travel?_append] at travelled
      obtain ⟨array, travelledInner, _⟩ := Option.bind_eq_some_iff.1 travelled
      rw [typeOn?, Option.isSome_map]
      exact inductionHypothesis travelledInner

end Node

namespace Node

theorem typeOn?_known (sound : graph.Sound) {type : Value} {node : Node}
    (plainNode : node.isPlain = true) (hasType : node.typeOn? graph resolver target = some type) :
    graph.Knows type := by
  cases node with
  | field serial name =>
      obtain ⟨field, isField, rfl⟩ := Option.map_eq_some_iff.1 hasType
      rw [field?_type isField]
      exact sound.fieldType_known target _
  | method => cases plainNode
  | array serial text index inner =>
      cases inner with
      | none =>
          cases hasType
          exact knows_of_isCallable sound.openType
      | some inner =>
          obtain ⟨innerType, _, rfl⟩ := Option.map_eq_some_iff.1 hasType
          exact sound.componentType_known innerType

/-- A node keeps its type. -/
theorem typeOn?_later {before after : Graph} (same : before.SameTypes after) (sound : before.Sound)
    (known : before.Knows target) {type later : Value} {node : Node}
    (plainNode : node.isPlain = true) (hasType : node.typeOn? before resolver target = some type)
    (hasLater : node.typeOn? after resolver target = some later) : later = type := by
  induction node, plainNode using plainInduction generalizing type later with
  | field serial name =>
      obtain ⟨field, isField, rfl⟩ := Option.map_eq_some_iff.1 hasType
      obtain ⟨fieldLater, isFieldLater, rfl⟩ := Option.map_eq_some_iff.1 hasLater
      rw [field?_type isField, field?_type isFieldLater, same.fieldType sound.toClosed known]
  | element serial text index =>
      cases hasType
      cases hasLater
      rfl
  | nested serial text index inner plainInner inductionHypothesis =>
      obtain ⟨innerType, hasInner, rfl⟩ := Option.map_eq_some_iff.1 hasType
      obtain ⟨innerLater, hasInnerLater, rfl⟩ := Option.map_eq_some_iff.1 hasLater
      rw [inductionHypothesis hasInner hasInnerLater,
        same.componentType sound.toClosed (typeOn?_known sound plainInner hasInner)]

end Node

/-- What the program finds as the type of a node is asked of factories as well. -/
theorem Node.typeAt_gives (sound : graph.Sound) {keys : List Key} {floor : Nat}
    (present : target.isMissing = false) (plain : graph.Plain keys floor target)
    (arguments : Option ArgumentMap) {node : Node} (plainNode : node.isPlain = true)
    (within : Within keys (node.steps resolver)) :
    Peeks (node.typeAt resolver arguments (.onValue target)) graph fun type =>
      graph.Requested type ∧ node.typeOn? graph resolver target = some type := by
  have asked := typeAt_peeks sound present plain arguments plainNode within
  have found := (typeAt_answers sound present arguments plainNode within).peeks plain
  exact (Ensures.and asked found).mono
    (fun _ _ both => ⟨both.1.1, both.1.2, both.2.2⟩) fun _ _ both => both.1

/-! ## Reading -/

namespace Graph

variable {steps : List Step} {typing : Typing}

/-- What a step gives suits the type that is asked for there. -/
theorem Typed.take_suits (typed : graph.Typed steps (fun _ => False) typing) {value content : Value}
    {step : Step} (isInside : typing.inside value) (present : value.isMissing = false)
    (names : graph.Names steps value step) (taken : graph.take? value step = some content) :
    typing.inside content ∧ typing.Suits graph (typing.stepType graph value step) content := by
  have looked := take?_look? taken
  obtain ⟨found, lookedFound, isInsideFound | ⟨⟨⟩, _⟩⟩ :=
    typed.looked isInside present (reads_of_names names)
  cases looked.symm.trans lookedFound
  exact ⟨isInsideFound, member_of_look? looked ▸ typed.suits isInside present names⟩

/-- What a node reads suits the type of the node. -/
theorem Typed.travel_suits (typed : graph.Typed steps (fun _ => False) typing)
    (isInside : typing.inside target) (present : target.isMissing = false) {node : Node}
    (plainNode : node.isPlain = true) (rooted : node.isRooted = true)
    (listed : node.steps resolver ⊆ steps) {content type : Value}
    (travelled : graph.travel? target (node.steps resolver) = some content)
    (hasType : node.typeOn? graph resolver target = some type) :
    typing.Suits graph type content ∧ (content.isMissing = false → typing.inside content) := by
  induction node, plainNode using Node.plainInduction generalizing content type with
  | field serial name =>
      rw [Node.steps, Node.leading, List.nil_append, travel?, present, if_neg Bool.false_ne_true]
        at travelled
      obtain ⟨found, taken, same⟩ := Option.bind_eq_some_iff.1 travelled
      cases same
      have names : graph.Names steps target (.field (resolver.actualName name)) :=
        Or.inl (listed (by simp [Node.steps, Node.final, Node.leading]))
      obtain ⟨isInsideFound, suits⟩ := typed.take_suits isInside present names taken
      obtain ⟨field, isField, rfl⟩ := Option.map_eq_some_iff.1 hasType
      rw [field?_type isField]
      exact ⟨suits, fun _ => isInsideFound⟩
  | element serial text index => cases rooted
  | nested serial text index inner plainInner inductionHypothesis =>
      have parts : (Node.array serial text index (some inner)).steps resolver =
          inner.steps resolver ++ [.element index] := rfl
      rw [parts] at travelled listed
      rw [travel?_append] at travelled
      obtain ⟨array, travelledInner, onward⟩ := Option.bind_eq_some_iff.1 travelled
      obtain ⟨innerType, hasInner, rfl⟩ := Option.map_eq_some_iff.1 hasType
      obtain ⟨suits, isInsideArray⟩ := inductionHypothesis rooted
        (fun step member => listed (List.mem_append_left _ member)) travelledInner hasInner
      rw [travel?] at onward
      cases missing : array.isMissing with
      | true =>
          rw [missing, if_pos rfl] at onward
          cases onward
          exact ⟨.of_isMissing rfl, fun there => by cases there⟩
      | false =>
          rw [missing, if_neg Bool.false_ne_true] at onward
          obtain ⟨found, taken, same⟩ := Option.bind_eq_some_iff.1 onward
          cases same
          have isArray : graph.isArray array = true := by
            by_contra noArray
            rw [take?, if_neg noArray] at taken
            cases taken
          have names : graph.Names steps array (.element index) := isArray
          obtain ⟨isInsideFound, suitsFound⟩ :=
            typed.take_suits (isInsideArray missing) missing names taken
          refine ⟨?_, fun _ => isInsideFound⟩
          rw [suits.stepType_element missing isArray index] at suitsFound
          exact suitsFound

end Graph

end ObjectPath
