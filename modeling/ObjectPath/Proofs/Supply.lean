import ObjectPath.Proofs.Allocation
import ObjectPath.Proofs.Reading

/-!
# What factories are asked for, and what they give

A node that finds nothing asks a factory for a value of its type.  The factories considered
here give missing values, simple values or new objects that are plain data, and leave every
object that is there as it is.
-/

namespace ObjectPath

open Graph

/-! ## Requested types -/

/-- The types that a factory may be asked for: the open type, the declared types of fields,
the components of such types, and the type of the arrays over the open type. -/
inductive Graph.Requested (graph : Graph) : Value → Prop
  | openType : Graph.Requested graph ObjectPath.openType
  | declared {place : Nat} {name : String} {field : FieldDeclaration} :
      Entries.get? ((graph.declarationsAt place).fields .onInstance) name = some field →
        Graph.Requested graph field.type
  | component {type : Value} : Graph.Requested graph type → graph.isArrayType type = true →
      Graph.Requested graph (graph.member type (.name "componentType"))
  | openArrays {place : Nat} :
      Entries.get? graph.arrayTypes ObjectPath.openType = some place →
        Graph.Requested graph (.object place)

theorem Graph.Sound.isType {graph : Graph} (sound : graph.Sound) {type : Value}
    (requested : graph.Requested type) : graph.IsType type := by
  cases requested with
  | openType => exact Or.inl sound.openType
  | declared found => exact sound.declaredType found
  | component _ isArrayType => exact sound.component isArrayType
  | openArrays found => exact Or.inr (sound.arrayTypes found).1

theorem Graph.field?_requested {graph : Graph} {target : Value} {name : String}
    {field : FieldMember} (isField : graph.field? target name = some field) :
    graph.Requested field.type := by
  unfold Graph.field? at isField
  split at isField
  · cases isField
  · split at isField
    · rename_i declaration found
      cases isField
      obtain ⟨place, declared⟩ := exists_declaration found
      exact .declared declared
    · split at isField
      · cases isField
        exact .openType
      · cases isField

theorem Run.componentOf_peeks {graph : Graph} (sound : graph.Sound) {type : Value}
    (requested : graph.Requested type) :
    Peeks (Run.componentOf type) graph fun component => graph.Requested component := by
  apply Peeks.get_bind
  cases isArrayType : graph.isArrayType type with
  | false => exact Peeks.pure .openType
  | true =>
      have looked := sound.look? type (.name "componentType") (by decide)
      rw [← Key.ofText_componentType] at looked
      have component : Run.read type "componentType" graph = _ :=
        Run.readWith_of_look? perform looked
      unfold Peeks Ensures
      rw [if_pos rfl, component, Key.ofText_componentType]
      exact ⟨rfl, .component requested isArrayType⟩

/-- The type of a node that calls no method is found by looking. -/
theorem Node.typeAt_peeks {graph : Graph} (sound : graph.Sound) {resolver : Resolver}
    {keys : List Key} {floor : Nat} {target : Value} (present : target.isMissing = false)
    (plain : graph.Plain keys floor target) (arguments : Option ArgumentMap) {node : Node}
    (plainNode : node.isPlain = true) (within : Within keys (node.steps resolver)) :
    Peeks (node.typeAt resolver arguments (.onValue target)) graph
      fun type => graph.Requested type := by
  induction node, plainNode using Node.plainInduction with
  | field serial name =>
      have named := within (.field (resolver.actualName name))
        (by simp [Node.steps, Node.final, Node.leading])
      have looks : graph.Sound →
          (graph.look? target (.ofText (resolver.actualName name))).isSome = true := by
        intro _
        obtain ⟨content, looked, _⟩ := plain.look? present named
        rw [show graph.look? target (.ofText (resolver.actualName name)) = some content from looked]
        rfl
      refine ((Node.fieldAt_answers sound.toClassed present id looks).peeks sound).bind ?_
      intro field isField
      exact Peeks.pure (field?_requested isField)
  | element serial text index => exact Peeks.pure .openType
  | nested serial text index inner plainInner inductionHypothesis =>
      have withinInner : Within keys (inner.steps resolver) :=
        (Within.append.1 (show Within keys (inner.steps resolver ++ [.element index]) from
          within)).1
      refine (inductionHypothesis withinInner).bind ?_
      intro type requested
      exact Run.componentOf_peeks sound requested

/-! ## Types of arrays -/

/-- The object of the type of the arrays over a component. -/
def arrayTypeObject (component : Value) : Object :=
  ⟨some BuiltinClass.arrayType.sharedPlace, .plain,
    Run.dataSlots [(.name "componentType", component)], true⟩

theorem own?_arrayTypeObject (component : Value) (key : Key) :
    (arrayTypeObject component).own? key =
      if key = .name "componentType" then some (.data component .plain) else none := by
  by_cases same : key = .name "componentType"
  · subst same
    rfl
  · rw [if_neg same]
    simp [Object.own?, Object.intrinsic?, arrayTypeObject, Run.dataSlots, Entries.get?,
      Ne.symm same]

namespace Graph

/-- The graph with an object entered as the type of the arrays over a component. -/
def enteringArrayType (graph : Graph) (component : Value) (place : Nat) : Graph :=
  { graph with arrayTypes := Entries.put graph.arrayTypes component place }

theorem extends_enteringArrayType (graph : Graph) (component : Value) (place : Nat) :
    graph.Extends (graph.enteringArrayType component place) :=
  ⟨Nat.le_refl _, fun _ => rfl, rfl⟩

/-- Entering the type of the arrays over a component keeps a graph sound. -/
theorem Sound.enteringArrayType {graph : Graph} (sound : graph.Sound) {component : Value}
    {place : Nat} (isArrayType : graph.isArrayType (.object place) = true)
    (same : graph.member (.object place) (.name "componentType") = component) :
    (graph.enteringArrayType component place).Sound := by
  have extends_ := extends_enteringArrayType graph component place
  have none_new : ∀ {other : Nat}, graph.objects.size ≤ other →
      ¬ other < graph.objects.size := fun new inside => by omega
  have closed := sound.toClosed.of_size_eq extends_ rfl
  refine sound.extends extends_ closed ⟨?plain, ?named, ?arrays, ?arrayTypes⟩
  case plain =>
    intro other key property new _ own
    obtain ⟨_, isObject, _⟩ := Option.bind_eq_some_iff.1 own
    exact absurd (lt_of_object? isObject) (none_new new)
  case named =>
    intro other new callable
    exact absurd (knows_object.1 (knows_of_isCallable callable)) (none_new new)
  case arrays =>
    intro other new isType
    exact absurd (knows_object.1 (knows_of_isArrayType isType)) (none_new new)
  case arrayTypes =>
    intro other found entered
    simp only [Graph.enteringArrayType, Entries.get?_put] at entered
    split at entered
    · rename_i sameComponent
      cases entered
      subst sameComponent
      have known := knows_of_isArrayType isArrayType
      rw [extends_.follows.isArrayType sound.toClosed known, extends_.member sound.toClosed known]
      exact Or.inr ⟨isArrayType, same⟩
    · exact Or.inl entered

theorem Sound.adding_arrayType {graph : Graph} (sound : graph.Sound) {component : Value}
    (isType : graph.IsType component) :
    (graph.adding (arrayTypeObject component)).Sound ∧
      (graph.adding (arrayTypeObject component)).isArrayType (.object graph.objects.size) = true ∧
      (graph.adding (arrayTypeObject component)).member (.object graph.objects.size)
        (.name "componentType") = component := by
  have inside := sound.shared .arrayType
  have extends_ := extends_adding graph (arrayTypeObject component)
  have ancestors := sound.ancestors_adding
    (show (arrayTypeObject component).parent = some _ from rfl) inside
  have isArrayType :
      (graph.adding (arrayTypeObject component)).isArrayType (.object graph.objects.size) = true := by
    rw [Graph.isArrayType, descendsFrom, ancestors]
    simp [Value.isObject, Value.place?]
  have same : (graph.adding (arrayTypeObject component)).member (.object graph.objects.size)
      (.name "componentType") = component :=
    member_of_find? (find?_adding_own graph (own?_arrayTypeObject component _))
  refine ⟨sound.adding ⟨?_, ?_⟩ ?_ ?_ ?_, isArrayType, same⟩
  · rintro _ ⟨⟩
    exact inside
  · intro key content flags own
    rw [own?_arrayTypeObject] at own
    split at own
    · cases own
      exact isType.knows
    · cases own
  · intro key _ property own
    rw [own?_arrayTypeObject] at own
    split at own
    · cases own
      exact ⟨component, _, rfl⟩
    · cases own
  · intro callee impossible
    cases impossible
  · intro _
    refine ⟨?_, ?_⟩
    · obtain ⟨getter, enumerable, configurable, found, callee⟩ := sound.sharedName
      refine ⟨getter, enumerable, configurable, ?_, ?_⟩
      · rw [sound.find?_adding (show (arrayTypeObject component).parent = some _ from rfl) inside
          (by rw [own?_arrayTypeObject]; rfl), found]
      · rw [extends_.follows.callee? (knows_of_callee? callee), callee]
    · rw [same]
      exact extends_.follows.isType sound.toClosed isType

end Graph

/-- The type of the arrays over a type is there or is added. -/
theorem Run.arrayOf_ensures {graph : Graph} (sound : graph.Sound) {component : Value}
    (isType : graph.IsType component) :
    Ensures (Run.arrayOf component) graph
      (fun type later => graph.Extends later ∧ later.Sound ∧ later.isArrayType type = true ∧
        ∃ place, type = .object place ∧ Entries.get? later.arrayTypes component = some place)
      fun _ _ => False := by
  refine Ensures.get_bind ?_
  cases entered : Entries.get? graph.arrayTypes component with
  | some place =>
      exact ⟨Extends.refl graph, sound, (sound.arrayTypes entered).1, place, rfl, entered⟩
  | none =>
      obtain ⟨soundLater, isArrayType, same⟩ := sound.adding_arrayType isType
      have adds := extends_adding graph (arrayTypeObject component)
      have enters := extends_enteringArrayType (graph.adding (arrayTypeObject component)) component
        graph.objects.size
      have isArrayTypeLater := isArrayType
      rw [← enters.follows.isArrayType soundLater.toClosed (knows_of_isArrayType isArrayType)]
        at isArrayTypeLater
      exact ⟨adds.trans enters, soundLater.enteringArrayType isArrayType same, isArrayTypeLater, _,
        rfl, Entries.get?_put_self _ _ _⟩

/-- What a factory is asked for in place of an array. -/
theorem Run.requestedArray_ensures {graph : Graph} (sound : graph.Sound) {type : Value}
    (requested : graph.Requested type) :
    Ensures (Run.requestedArray type) graph
      (fun asked later => graph.Extends later ∧ later.Sound ∧ later.Requested asked)
      fun _ _ => False := by
  unfold Run.requestedArray
  split
  · refine (Run.arrayOf_ensures sound (Or.inl sound.openType)).mono ?_ fun _ _ => id
    rintro asked later ⟨extends_, soundLater, _, place, rfl, entered⟩
    exact ⟨extends_, soundLater, .openArrays entered⟩
  · exact ⟨Graph.Extends.refl graph, sound, requested⟩

/-! ## Factories -/

/-- What an evaluation starts from and what stays true while it goes on: the graph at the
start, the keys that the path names, those of them under which no function is filled in, and
values that stay plain data.  A generous factory always has a value to give. -/
structure Scene where
  start : Graph
  keys : List Key
  guarded : List Key
  grounds : List Value
  generous : Prop

/-- A graph that an evaluation may have come to. -/
structure Scene.Holds (scene : Scene) (graph : Graph) : Prop where
  sound : graph.Sound
  grows : scene.start.Grows scene.guarded graph
  known : ∀ value ∈ scene.grounds, graph.Knows value
  plain : ∀ value ∈ scene.grounds, graph.Plain scene.keys 0 value

/-- A value that a factory made: no object, or a new one, and plain data.  All other objects
are as before. -/
structure Scene.Made (scene : Scene) (floor : Nat) (before : Graph) (made : Value)
    (after : Graph) : Prop where
  extends_ : before.Extends after
  sound : after.Sound
  known : after.Knows made
  new : ∀ place, made = .object place → before.objects.size ≤ place
  plain : after.Plain scene.keys floor made
  calm : ∀ key ∈ scene.guarded, after.isCallable made = false
  given : scene.generous → made.isMissing = false

/-- A factory that fails has left all objects as they were.  If it raised a value, asking
that for its text changes nothing. -/
structure Scene.Failed (before : Graph) (fault : Fault) (after : Graph) : Prop where
  extends_ : before.Extends after
  sound : after.Sound
  raised : ∀ value, fault = .raisedValue value →
    Peeks (Run.textOf perform value) after fun _ => True

/-- A factory that gives missing values, simple values or new objects that are plain data.
What can be reached from them is at places from the floor on. -/
def Scene.Supplies (scene : Scene) (floor : Nat) (factory : Factory)
    (arguments : Option ArgumentMap) : Prop :=
  ∀ {graph : Graph} {type : Value}, scene.Holds graph → floor ≤ graph.objects.size →
    graph.Requested type →
      Ensures (factory type arguments) graph (scene.Made floor graph) (Scene.Failed graph)

theorem Scene.Holds.extends {scene : Scene} {before after : Graph} (holds : scene.Holds before)
    (extends_ : before.Extends after) (sound : after.Sound) : scene.Holds after where
  sound := sound
  grows := holds.grows.trans (extends_.grows holds.sound.toClosed)
  known := fun value member => extends_.follows.knows (holds.known value member)
  plain := fun value member =>
    (holds.plain value member).extends extends_ holds.sound.toClosed (holds.known value member)

/-- What asking a factory comes to, once its faults are reported as failures to make an
instance. -/
theorem produce_ensures {scene : Scene} {floor : Nat} {factory : Factory}
    {arguments : Option ArgumentMap} (supplies : scene.Supplies floor factory arguments)
    {graph : Graph} (holds : scene.Holds graph) (above : floor ≤ graph.objects.size) {type : Value}
    (requested : graph.Requested type) :
    Ensures (produce factory type arguments) graph (scene.Made floor graph)
      fun _ later => graph.Extends later ∧ later.Sound := by
  refine (supplies holds above requested).tryCatch ?_
  intro cause later failed
  have settled : graph.Extends later ∧ later.Sound := ⟨failed.extends_, failed.sound⟩
  have isType := failed.extends_.follows.isType holds.sound.toClosed
    (holds.sound.isType requested)
  split
  · exact settled
  · suffices reported : Peeks (Run.typeName type >>= fun name =>
        Run.instantiationFault name cause >>= fun fault =>
          (throw fault : Run Value)) later fun _ => False from
      reported.ensures (fun _ => False.elim) fun _ => settled
    refine (Run.typeName_peeks failed.sound isType).bind ?_
    intro name simple
    exact (Run.instantiationFault_peeks simple failed.raised).bind fun _ _ => Peeks.throw

end ObjectPath
