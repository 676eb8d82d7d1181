import ObjectPath.Proofs.Chaining
import ObjectPath.Proofs.Lines
import ObjectPath.Proofs.Nodes

/-!
# Levels of arrays

A node of a field and indices goes down through arrays within arrays.  Each level has its type: the
component of the type one level above.  What a node reads at a level and which type it has there does
not change while new objects are made, as long as nothing is computed where the class of the target
and the components of its types are looked up.
-/

namespace ObjectPath

open Graph

/-! ## Lookups beside new objects -/

namespace Graph

variable {before after : Graph}

theorem Extends.undisturbed (extends_ : before.Extends after) (closed : before.Closed) :
    before.Undisturbed (fun _ => False) after where
  same := ⟨extends_.steady, fun isArrayType =>
    extends_.member closed (knows_of_isArrayType isArrayType) _⟩
  untouched := fun inside _ => extends_.objects inside

theorem clear_of_nothing (graph : Graph) (value : Value) : graph.Clear (fun _ => False) value :=
  fun _ _ => id

theorem Extends.placement (extends_ : before.Extends after) (closed : before.Closed) {value : Value}
    (known : before.Knows value) (key : Key) :
    after.placement value key = before.placement value key :=
  (extends_.undisturbed closed).placement closed known (clear_of_nothing _ _) key

theorem Extends.shows (extends_ : before.Extends after) (closed : before.Closed) {value : Value}
    (known : before.Knows value) {key : Key} (shows_ : before.Shows value key) :
    after.Shows value key := by
  unfold Shows
  rw [extends_.look? closed known, extends_.member closed known]
  exact shows_

theorem Extends.openType_noArrays (extends_ : before.Extends after) (closed : before.Closed)
    (openClass : before.isArrayType openType = false) : after.isArrayType openType = false := by
  have known : before.Knows openType := knows_object.2 (closed.classes .object)
  rw [extends_.follows.isArrayType closed known]
  exact openClass

/-- A field is found on a value that is there, and nothing is computed for that. -/
structure FindsField (graph : Graph) (target : Value) (name : String) (field : FieldMember) :
    Prop extends ShowsClass graph target where
  known : graph.Knows target
  present : target.isMissing = false
  isField : graph.field? target name = some field

theorem FindsField.later {target : Value} {name : String} {field : FieldMember}
    (finds : before.FindsField target name field) (extends_ : before.Extends after)
    (closed : before.Closed) : after.FindsField target name field where
  owner := extends_.shows closed finds.known finds.owner
  ownerShares := by
    rw [extends_.member closed finds.known]
    exact extends_.shows closed (closed.member_known _ _) finds.ownerShares
  classShares := by
    have sameClass : after.classOf target = before.classOf target :=
      (extends_.undisturbed closed).same.classOf closed finds.known
    rw [sameClass]
    exact extends_.shows closed (closed.classOf_known target) finds.classShares
  known := extends_.follows.knows finds.known
  present := finds.present
  isField := by
    rw [(extends_.undisturbed closed).field? closed finds.known (clear_of_nothing _ _)
      (clear_of_nothing _ _)]
    exact finds.isField

theorem field?_undeclared {graph : Graph} {target : Value} {name : String} {field : FieldMember}
    (isField : graph.field? target name = some field) (undeclared : field.declared = false) :
    field.type = openType := by
  unfold Graph.field? at isField
  repeat' split at isField
  all_goals cases isField
  · cases undeclared
  · rfl

end Graph

/-! ## Types of levels -/

/-- The elements of what is of the open type are of the open type. -/
theorem Run.componentOf_openType {graph later : Graph} (closed : graph.Closed)
    (openClass : graph.isArrayType openType = false) (extends_ : graph.Extends later) :
    Run.componentOf openType later = .ok openType later := by
  unfold Run.componentOf
  refine bind_get.trans ?_
  rw [extends_.openType_noArrays closed openClass]
  rfl

theorem Run.arrayOf_of_entered {graph : Graph} {component : Value} {place : Nat}
    (entered : Entries.get? graph.arrayTypes component = some place) :
    Run.arrayOf component graph = .ok (.object place) graph := by
  unfold Run.arrayOf
  refine bind_get.trans ?_
  rw [entered]
  rfl

/-- The type of the arrays over the open type is there or is added; nothing else happens. -/
theorem Run.arrayOf_openType {graph : Graph} (closed : graph.Closed) :
    ∃ place later, Run.arrayOf openType graph = .ok (.object place) later ∧
      graph.Extends later ∧ later.Closed ∧ later.valueNames = graph.valueNames ∧
      Entries.get? later.arrayTypes openType = some place := by
  cases entered : Entries.get? graph.arrayTypes openType with
  | some place =>
      exact ⟨place, graph, arrayOf_of_entered entered, .refl graph, closed, rfl, entered⟩
  | none =>
      have adds := extends_adding graph (arrayTypeObject openType)
      have enters := extends_enteringArrayType (graph.adding (arrayTypeObject openType)) openType
        graph.objects.size
      have closedAdded : (graph.adding (arrayTypeObject openType)).Closed := by
        refine closed.adding ⟨?_, ?_⟩
        · rintro _ ⟨⟩
          exact closed.shared .arrayType
        · intro key content flags own
          rw [own?_arrayTypeObject] at own
          split at own
          · cases own
            exact knows_object.2 (closed.classes .object)
          · cases own
      refine ⟨graph.objects.size, _, ?_, adds.trans enters, closedAdded.of_size_eq enters rfl, rfl,
        Entries.get?_put_self _ _ _⟩
      unfold Run.arrayOf
      refine bind_get.trans ?_
      rw [entered]
      rfl

namespace Graph

/-- A type is that of the arrays over a base type, so many levels deep: what `Run.arrayOf` gives for
the type one level below, which it finds as its component. -/
inductive IsNest (graph : Graph) (base : Value) : Nat → Value → Prop
  | base : IsNest graph base 0 base
  | array {depth : Nat} {inner type : Value} : IsNest graph base depth inner →
      Run.arrayOf inner graph = .ok type graph → graph.isArrayType type = true →
        graph.look? type (.name "componentType") = some inner →
          IsNest graph base (depth + 1) type

/-- The type of the elements at a level below a type. -/
def levelType (graph : Graph) (type : Value) : Nat → Value
  | 0 => type
  | level + 1 => graph.componentType (graph.levelType type level)

/-- The types of so many levels are found without computing anything, and it is settled what a
factory is asked for in place of an array of each.  New objects do not matter. -/
structure Settles (graph : Graph) (depth : Nat) (types requests : Nat → Value) : Prop where
  component : ∀ {level : Nat} {later : Graph}, level < depth → graph.Extends later →
    Run.componentOf (types level) later = .ok (types (level + 1)) later
  request : ∀ {level : Nat} {later : Graph}, level < depth → graph.Extends later →
    later.arrayTypes = graph.arrayTypes →
      Run.requestedArray (types level) later = .ok (requests level) later

variable {graph : Graph} {base type : Value} {depth : Nat}

theorem IsNest.shows (nest : graph.IsNest base (depth + 1) type) :
    graph.isArrayType type = true ∧ graph.Shows type (.name "componentType") := by
  cases nest with
  | array _ _ isArrayType looked =>
      exact ⟨isArrayType, by rw [Shows, looked, member_of_look? looked]⟩

theorem IsNest.component (nest : graph.IsNest base (depth + 1) type) :
    graph.IsNest base depth (graph.componentType type) := by
  cases nest with
  | array inner _ isArrayType looked =>
      rw [componentType, if_pos isArrayType, member_of_look? looked]
      exact inner

/-- Each level of nested arrays has a type with one level less. -/
theorem IsNest.levelType (nest : graph.IsNest base depth type) {level : Nat}
    (within : level ≤ depth) : graph.IsNest base (depth - level) (graph.levelType type level) := by
  induction level with
  | zero => exact nest
  | succ level inductionHypothesis =>
      have above := inductionHypothesis (Nat.le_of_succ_le within)
      rw [show depth - level = depth - (level + 1) + 1 by omega] at above
      exact above.component

theorem IsNest.settles (nest : graph.IsNest base depth type) (closed : graph.Closed)
    (openClass : graph.isArrayType openType = false) {levels : Nat} (within : levels ≤ depth) :
    graph.Settles levels (graph.levelType type) (graph.levelType type) := by
  have inner : ∀ {level : Nat}, level < levels →
      graph.isArrayType (graph.levelType type level) = true ∧
        graph.Shows (graph.levelType type level) (.name "componentType") := by
    intro level below
    have above := nest.levelType (show level ≤ depth by omega)
    rw [show depth - level = depth - (level + 1) + 1 by omega] at above
    exact above.shows
  constructor
  · intro level later below extends_
    obtain ⟨isArrayType, shows_⟩ := inner below
    have known := knows_of_isArrayType isArrayType
    rw [Run.componentOf_of_shows fun _ => extends_.shows closed known shows_,
      (extends_.undisturbed closed).same.componentType closed known]
    rfl
  · intro level later below _ _
    have notOpen : graph.levelType type level ≠ ObjectPath.openType := by
      intro same
      rw [← same, (inner below).1] at openClass
      cases openClass
    rw [Run.requestedArray, if_neg notOpen]
    rfl

theorem settles_openType (closed : graph.Closed) (openClass : graph.isArrayType openType = false)
    {place : Nat} (entered : Entries.get? graph.arrayTypes openType = some place) (levels : Nat) :
    graph.Settles levels (fun _ => openType) (fun _ => .object place) where
  component := fun _ extends_ => Run.componentOf_openType closed openClass extends_
  request := by
    intro level later _ _ sameTypes
    rw [Run.requestedArray, if_pos rfl]
    exact Run.arrayOf_of_entered (by rw [sameTypes, entered])

end Graph

/-! ## Nodes that make levels -/

namespace Graph

/-- The slot that the value of a node goes into: the field itself, or an element of an array that is
there. -/
inductive Arrives (graph : Graph) (target : Value) (name : String) :
    List Nat → Value → Key → Prop
  | field : Arrives graph target name [] target (.ofText name)
  | element {indices : List Nat} {index : Nat} {array : Value} :
      graph.travel? target (.field name :: indices.map .element) = some array →
        graph.isArray array = true →
          Arrives graph target name (indices ++ [index]) array (.ofIndex index)

/-- From some level on arrays are missing.  The slot that is to hold the first of them takes a value,
and new arrays can be given elements under the indices that are left. -/
structure Gap (graph : Graph) (target : Value) (name : String) (before after : List Nat)
    (holder : Value) (key : Key) : Prop where
  arrives : graph.Arrives target name before holder key
  slot : graph.placement holder key = .slot
  missing : after ≠ [] → ∃ content,
    graph.travel? target (.field name :: before.map .element) = some content ∧
      content.isMissing = true
  small : ∀ index ∈ after, index < Key.indexLimit
  free : ∀ index ∈ after, ∀ property,
    graph.find? (.object BuiltinClass.array.sharedPlace) (.ofIndex index) = some property →
      property.isWritable = true

theorem object_of_slot {graph : Graph} {holder : Value} {key : Key}
    (slot : graph.placement holder key = .slot) :
    ∃ place, holder = .object place ∧ place < graph.objects.size := by
  cases holder with
  | object place =>
      obtain ⟨object, found, _⟩ := slot_of_placement slot
      exact ⟨place, rfl, lt_of_object? found⟩
  | string text =>
      rcases placement_eq_slot slot with ⟨content, flags, own, writable, _⟩ | ⟨_, extensible⟩
      · have unit : textOwn? text key = some (.data content flags) := own
        unfold textOwn? at unit
        split at unit
        · cases unit
          cases writable
        · obtain ⟨_, _, same⟩ := Option.map_eq_some_iff.1 unit
          cases same
          cases writable
        · cases unit
      · cases extensible
  | _ =>
      rcases placement_eq_slot slot with ⟨_, _, own, _⟩ | ⟨_, extensible⟩
      · cases own
      · cases extensible

theorem Arrives.later {before after : Graph} {target holder : Value} {name : String}
    {indices : List Nat} {key : Key} (arrives : before.Arrives target name indices holder key)
    (extends_ : before.Extends after) (closed : before.Closed) (known : before.Knows target)
    (knownHolder : before.Knows holder) : after.Arrives target name indices holder key := by
  cases arrives with
  | field => exact .field
  | element travelled isArray =>
      refine .element (extends_.travel?_of_some closed known travelled) ?_
      rw [extends_.follows.isArray knownHolder]
      exact isArray

theorem Gap.init {graph : Graph} {target holder : Value} {name : String} {before after : List Nat}
    {key : Key} {index : Nat} (gap : graph.Gap target name before (after ++ [index]) holder key) :
    graph.Gap target name before after holder key where
  arrives := gap.arrives
  slot := gap.slot
  missing := fun _ => gap.missing (by simp)
  small := fun other member => gap.small other (List.mem_append_left _ member)
  free := fun other member => gap.free other (List.mem_append_left _ member)

theorem Gap.later {earlier graph : Graph} {target holder : Value} {name : String}
    {before after : List Nat} {key : Key} (gap : earlier.Gap target name before after holder key)
    (extends_ : earlier.Extends graph) (closed : earlier.Closed) (known : earlier.Knows target) :
    graph.Gap target name before after holder key := by
  obtain ⟨place, rfl, inside⟩ := object_of_slot gap.slot
  have knownHolder : earlier.Knows (.object place) := knows_object.2 inside
  refine ⟨gap.arrives.later extends_ closed known knownHolder,
    (extends_.placement closed knownHolder key).trans gap.slot, fun more => ?_, gap.small,
    fun index member property found => gap.free index member property ?_⟩
  · obtain ⟨content, travelled, missing⟩ := gap.missing more
    exact ⟨content, extends_.travel?_of_some closed known travelled, missing⟩
  · rw [← extends_.find? closed (knows_object.2 (closed.shared .array))]
    exact found

end Graph

namespace Node

variable {graph start later : Graph} {resolver : Resolver} {arguments : Option ArgumentMap}
  {position : Position} {target holder value : Value} {name : String} {key : Key}
  {field : FieldMember} {node : Node}

theorem field_of_form (form : node.form = ⟨.field name, []⟩) :
    ∃ serial, node = .field serial name := by
  rcases node with ⟨serial, other⟩ | _ | ⟨serial, text, index, _ | inner⟩
  · cases form
    exact ⟨serial, rfl⟩
  · cases form
  · cases form
  · simp [Node.form] at form

theorem array_of_form {base : Base} {indices : List Nat} {index : Nat} (start : base ≠ .nothing)
    (form : node.form = ⟨base, indices ++ [index]⟩) :
    ∃ serial text inner, node = .array serial text index (some inner) ∧
      inner.form = ⟨base, indices⟩ := by
  rcases node with ⟨serial, other⟩ | _ | ⟨serial, text, last, _ | inner⟩
  · simp [Node.form] at form
  · simp [Node.form] at form
  · simp only [Node.form, Form.mk.injEq] at form
    exact absurd form.1.symm start
  · simp only [Node.form, Form.mk.injEq] at form
    obtain ⟨sameBase, sameIndices⟩ := form
    obtain ⟨same, last⟩ := List.append_inj' sameIndices rfl
    cases last
    refine ⟨serial, text, inner, rfl, ?_⟩
    rw [← sameBase, ← same]

theorem fieldAt_of_findsField (finds : graph.FindsField target (resolver.actualName name) field) :
    fieldAt resolver name (.onValue target) graph = .ok field graph := by
  have answers : Answers (fieldAt resolver name (.onValue target)) graph False
      (graph.field? target (resolver.actualName name)) :=
    fieldAt_answers_of_showsClass finds.toShowsClass finds.present False.elim False.elim
  rw [finds.isField] at answers
  exact answers

/-- A node of a field and indices reads what its steps lead to. -/
theorem read_of_travel? (finds : graph.FindsField target (resolver.actualName name) field)
    {indices : List Nat} (form : node.form = ⟨.field name, indices⟩) {content : Value}
    (travelled : graph.travel? target
      (.field (resolver.actualName name) :: indices.map .element) = some content) :
    node.read resolver arguments (.onValue target) graph = .ok content graph := by
  obtain ⟨plainNode, steps⟩ := steps_of_form resolver
    (show node.form.isPlain = true by rw [form]; rfl)
  have within : Within ((node.steps resolver).map Step.key) (node.steps resolver) :=
    fun step member => List.mem_map_of_mem member
  have answers := read_answers_of_showsClass finds.toShowsClass finds.present
    (fun impossible : False => (impossible.elim : graph.Sound ∧ graph.Plain _ 0 target)) arguments
    plainNode within
  rw [steps, form, show Form.steps resolver ⟨.field name, indices⟩ =
    .field (resolver.actualName name) :: indices.map .element from rfl, travelled] at answers
  exact answers

/-- A node of a field and indices has the type of its level. -/
theorem typeAt_of_components (finds : graph.FindsField target (resolver.actualName name) field)
    {types : Nat → Value} (first : types 0 = field.type) {indices : List Nat}
    (components : ∀ level < indices.length,
      Run.componentOf (types level) graph = .ok (types (level + 1)) graph)
    (form : node.form = ⟨.field name, indices⟩) (arguments : Option ArgumentMap) :
    node.typeAt resolver arguments (.onValue target) graph = .ok (types indices.length) graph := by
  induction indices using List.reverseRecOn generalizing node with
  | nil =>
      obtain ⟨serial, rfl⟩ := field_of_form form
      refine (bind_of_ok (fieldAt_of_findsField finds)).trans ?_
      rw [List.length_nil, first]
      rfl
  | append_singleton indices index inductionHypothesis =>
      obtain ⟨serial, text, inner, rfl, innerForm⟩ := array_of_form (by simp) form
      rw [List.length_append, List.length_singleton] at components ⊢
      have typed := inductionHypothesis (fun level below => components level (by omega)) innerForm
      exact (bind_of_ok typed).trans (components indices.length (by omega))

theorem storeElement_of_slot {place index : Nat} (text : String) (value : Value)
    (isArray : graph.isArray (.object place) = true)
    (slot : graph.placement (.object place) (.ofIndex index) = .slot) :
    storeElement text index (.object place) value graph =
      .ok () (graph.store (.object place) (.ofIndex index) value) := by
  unfold storeElement
  refine bind_get.trans ?_
  rw [if_pos isArray]
  exact Run.assignStrictly_of_slot value slot

/-- A write into a slot that is there goes into that slot. -/
theorem write_of_arrives (finds : graph.FindsField target (resolver.actualName name) field)
    {indices : List Nat} (form : node.form = ⟨.field name, indices⟩)
    (arrives : graph.Arrives target (resolver.actualName name) indices holder key)
    (slot : graph.placement holder key = .slot) {factory : Option Factory} :
    node.write resolver arguments factory (.onValue target) value graph =
      .ok true (graph.store holder key value) := by
  obtain ⟨place, rfl, _⟩ := object_of_slot slot
  cases arrives with
  | field =>
      obtain ⟨serial, rfl⟩ := field_of_form form
      rw [← field?_name finds.isField] at slot ⊢
      refine (bind_of_ok (fieldAt_of_findsField finds)).trans ?_
      exact (bind_of_ok (FieldMember.set_of_slot value field slot)).trans rfl
  | @element indices index _ travelled isArray =>
      obtain ⟨serial, text, inner, rfl, innerForm⟩ := array_of_form (by simp) form
      have stored := storeElement_of_slot text value isArray slot
      refine (bind_of_ok (read_of_travel? finds innerForm travelled)).trans ?_
      exact (bind_of_ok stored).trans rfl

/-- A write to an array that is missing asks for one, writes it in its place and gives it the
element. -/
theorem write_of_missing {supply : Factory} {serial index : Nat} {text : String} {inner : Node}
    {content type request : Value} (isRead : inner.read resolver arguments position graph =
      .ok content graph) (missing : content.isMissing = true)
    (typed : inner.typeAt resolver arguments position graph = .ok type graph)
    (asked : Run.requestedArray type graph = .ok request later) :
    (Node.array serial text index (some inner)).write resolver arguments (some supply) position value
        graph =
      (produce supply request arguments >>= fun made =>
        if made.isMissing then pure false
        else inner.write resolver arguments (some supply) position made >>= fun _ =>
          storeElement text index made value >>= fun _ => pure true) later := by
  refine (bind_of_ok isRead).trans ?_
  rw [if_pos missing]
  exact (bind_of_ok typed).trans (bind_of_ok asked)

end Node

end ObjectPath
