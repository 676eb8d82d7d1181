import Mathlib.Data.List.Perm.Subperm
import ObjectPath.Proofs.Cutting
import ObjectPath.Proofs.Lines
import ObjectPath.Proofs.ReadBack
import ObjectPath.Proofs.StaticStarts
import ObjectPath.Proofs.Surveying

/-!
# Well-typed paths do not go wrong

A walk along declared types takes all array dimensions off the type of each field; a read goes
through the values that are there and looks every field up on the class of its holder.  If the
declared fields of some values hold what they are declared to hold, and the indices of a path go
through the arrays that its fields declare, then reading the path never fails and gives a value of
the type that is left of the last field.
-/

namespace ObjectPath

open Graph

namespace Graph

variable {graph : Graph}

/-! ## Types of arrays over a class -/

/-- A type nests arrays, down to a depth, over a class that is no type of arrays. -/
inductive Nests (graph : Graph) : Nat → Value → Value → Prop
  | base {owner : Value} : graph.isArrayType owner = false → Nests graph 0 owner owner
  | array {depth : Nat} {owner type : Value} : graph.isArrayType type = true →
      Nests graph depth owner (graph.member type (.name "componentType")) →
      Nests graph (depth + 1) owner type

theorem Nests.unique {depth other : Nat} {owner otherOwner type : Value}
    (nests : graph.Nests depth owner type) (nestsOther : graph.Nests other otherOwner type) :
    depth = other ∧ owner = otherOwner := by
  induction nests generalizing other with
  | base isClass =>
      cases nestsOther with
      | base => exact ⟨rfl, rfl⟩
      | array isArrayType => cases isClass.symm.trans isArrayType
  | array isArrayType _ inductionHypothesis =>
      cases nestsOther with
      | base isClass => cases isClass.symm.trans isArrayType
      | array _ component =>
          obtain ⟨rfl, rfl⟩ := inductionHypothesis component
          exact ⟨rfl, rfl⟩

/-- The types of arrays inside one another are different objects. -/
theorem Nests.exists_places {depth : Nat} {owner type : Value}
    (nests : graph.Nests depth owner type) :
    ∃ places : List Nat, places.length = depth ∧ places.Nodup ∧
      ∀ place ∈ places, place < graph.objects.size ∧
        ∃ inner ≤ depth, 0 < inner ∧ graph.Nests inner owner (.object place) := by
  induction nests with
  | base => exact ⟨[], rfl, List.nodup_nil, nofun⟩
  | @array depth owner type isArrayType component inductionHypothesis =>
      obtain ⟨places, length, distinct, inside⟩ := inductionHypothesis
      have nests : graph.Nests (depth + 1) owner type := .array isArrayType component
      cases type with
      | object place =>
          have known := knows_object.1 (knows_of_isArrayType isArrayType)
          refine ⟨place :: places, by rw [List.length_cons, length],
            List.nodup_cons.2 ⟨fun again => ?_, distinct⟩, fun other member => ?_⟩
          · -- A type that is inside of this one nests less deep, so it is another one.
            obtain ⟨_, inner, notDeeper, _, nestsInner⟩ := inside place again
            have same := (nestsInner.unique nests).1
            omega
          · rcases List.mem_cons.1 member with rfl | listed
            · exact ⟨known, depth + 1, le_rfl, Nat.succ_pos depth, nests⟩
            · obtain ⟨isKnown, inner, notDeeper, positive, nestsInner⟩ := inside other listed
              exact ⟨isKnown, inner, Nat.le_succ_of_le notDeeper, positive, nestsInner⟩
      | _ => cases isArrayType

theorem Nests.depth_le {depth : Nat} {owner type : Value} (nests : graph.Nests depth owner type) :
    depth ≤ graph.objects.size := by
  obtain ⟨places, rfl, distinct, inside⟩ := nests.exists_places
  have listed : places ⊆ List.range graph.objects.size := fun place member =>
    List.mem_range.2 (inside place member).1
  simpa using (List.subperm_of_subset distinct listed).length_le

end Graph

namespace Run

variable {graph : Graph}

theorem elementWithin_of_nests (classed : graph.Classed) {depth limit : Nat} {owner type : Value}
    (nests : graph.Nests depth owner type) (fits : depth ≤ limit) :
    elementWithin limit type graph = .ok owner graph := by
  induction nests generalizing limit with
  | base isClass =>
      cases limit with
      | zero => rfl
      | succ limit =>
          rw [elementWithin, bind_get, isClass, if_neg Bool.false_ne_true]
          rfl
  | @array depth owner type isArrayType component inductionHypothesis =>
      cases limit with
      | zero => cases fits
      | succ limit =>
          have looked := classed.look? type (.name "componentType") (by decide)
          rw [← Key.ofText_componentType] at looked
          have stepped : read type "componentType" graph = _ := readWith_of_look? perform looked
          rw [elementWithin, bind_get, isArrayType, if_pos rfl, bind_of_ok stepped,
            Key.ofText_componentType]
          exact inductionHypothesis (Nat.le_of_succ_le_succ fits)

/-- Taking the array dimensions off a type gives the class that they are over. -/
theorem elementType_of_nests (classed : graph.Classed) {depth : Nat} {owner type : Value}
    (nests : graph.Nests depth owner type) : elementType type graph = .ok owner graph := by
  rw [elementType, bind_get]
  exact elementWithin_of_nests classed nests nests.depth_le

end Run

/-! ## Declared fields -/

/-- A class declares a field under a name that a path may use. -/
def Graph.Declares (graph : Graph) (owner : Value) (name : String)
    (declaration : FieldDeclaration) : Prop :=
  blockedNames.contains name = false ∧
    Entries.get? (graph.fields owner .onInstance) name = some declaration

/-- A field that is found as a declared one is what its class declares, and finding it changes
nothing. -/
theorem declares_of_findField {graph later : Graph} {owner : Value} {name : String}
    {field : FieldMember}
    (found : findField owner name .onInstance none graph = .ok field later)
    (declared : field.declared = true) :
    later = graph ∧ ∃ declaration, graph.Declares owner name declaration ∧
      declaration.type = field.type := by
  obtain ⟨unblocked, looked⟩ := findField_cases found
  cases looked with
  | declared declaration entered => exact ⟨rfl, declaration, ⟨unblocked, entered⟩, rfl⟩
  | undeclared => cases declared

/-! ## Walks along declared fields -/

/-- Nodes name fields that are declared one after the other, from a class on.  Each node but the
last has the indices that its type of arrays asks for and leads to a class that is not open; the
last one leaves a type of arrays, down to a depth, over a class. -/
inductive Descends (resolver : Resolver) (graph : Graph) : Value → List Node → Nat → Value → Prop
  | last {owner base : Value} {node : Node} {name : String} {declaration : FieldDeclaration}
      {depth : Nat} : node.form.base = .field name →
        graph.Declares owner (resolver.actualName name) declaration →
        graph.Nests depth base declaration.type → node.form.indices.length ≤ depth →
        Descends resolver graph owner [node] (depth - node.form.indices.length) base
  | step {owner base final : Value} {node : Node} {rest : List Node} {name : String}
      {declaration : FieldDeclaration} {depth : Nat} : node.form.base = .field name →
        graph.Declares owner (resolver.actualName name) declaration →
        graph.Nests node.form.indices.length base declaration.type → base ≠ openType →
        Descends resolver graph base rest depth final →
        Descends resolver graph owner (node :: rest) depth final

section Walks

variable {graph : Graph} {resolver : Resolver} {owner base : Value} {node : Node} {name : String}

theorem member?_of_field (named : node.form.base = .field name) :
    node.member? resolver none owner .onInstance = (do
      let field ← findField owner (resolver.actualName name) .onInstance none
      pure (some (.field field))) := by
  have plain : node.argumentKeys = [] := by rw [node.argumentKeys_eq, named]; rfl
  rw [node.member?_eq resolver owner .onInstance plain, named]
  rfl

theorem declares_of_member? (named : node.form.base = .field name) {field : FieldMember}
    {later : Graph} (found : node.member? resolver none owner .onInstance graph =
      .ok (some (.field field)) later) (declared : field.declared = true) :
    later = graph ∧ ∃ declaration, graph.Declares owner (resolver.actualName name) declaration ∧
      declaration.type = field.type := by
  rw [member?_of_field named] at found
  obtain ⟨other, middle, isFound, given⟩ := ok_of_bind found
  cases given
  exact declares_of_findField isFound declared

/-- A walk goes on after a declared field from the class that its type is over. -/
theorem memberAlong_of_declared (classed : graph.Classed) {field : FieldMember} {depth : Nat}
    (found : node.member? resolver none owner .onInstance graph = .ok (some (.field field)) graph)
    (nests : graph.Nests depth base field.type) (rest : List Node) (index : Nat) :
    memberAlong resolver none (node :: rest) (index + 1) owner .onInstance graph =
      memberAlong resolver none rest index base .onInstance graph := by
  have stepped : typeAfter owner (some (.field field)) graph = .ok base graph :=
    Run.elementType_of_nests classed nests
  rw [memberAlong_succ, bind_of_ok found, bind_of_ok stepped]

/-- What a walk along declared types finds for a node: a declared field whose type nests arrays over
a class. -/
def FindsField (resolver : Resolver) (graph : Graph) (nodes : List Node) (owner : Value)
    (index depth : Nat) (base : Value) : Prop :=
  ∃ field later, memberAlong resolver none nodes index owner .onInstance graph =
    .ok (some (.field field)) later ∧ field.declared = true ∧ graph.Nests depth base field.type

/-- Nodes for which a walk finds declared fields descend along them. -/
theorem descends_of_findsField (classed : graph.Classed) {nodes : List Node} {depth : Nat}
    {last : Node} (isLast : nodes.getLast? = some last)
    (named : ∀ node ∈ nodes, ∃ name, node.form.base = .field name)
    (before : ∀ index node, nodes[index]? = some node → index + 1 < nodes.length →
      ∃ between, between ≠ openType ∧
        FindsField resolver graph nodes owner index node.form.indices.length between)
    (finds : FindsField resolver graph nodes owner (nodes.length - 1) depth base)
    (short : last.form.indices.length ≤ depth) :
    Descends resolver graph owner nodes (depth - last.form.indices.length) base := by
  induction nodes generalizing owner with
  | nil => cases isLast
  | cons node rest inductionHypothesis =>
      obtain ⟨name, isField⟩ := named node (List.mem_cons_self ..)
      have first : ∀ member later,
          memberAlong resolver none (node :: rest) 0 owner .onInstance graph = .ok member later →
            node.member? resolver none owner .onInstance graph = .ok member later := by
        intro member later walked
        obtain ⟨found, middle, isFound, given⟩ := ok_of_bind walked
        cases given
        exact isFound
      cases rest with
      | nil =>
          cases isLast
          obtain ⟨field, later, walked, declared, nests⟩ := finds
          obtain ⟨_, declaration, declares, type⟩ :=
            declares_of_member? isField (first _ _ walked) declared
          exact .last isField declares (type ▸ nests) short
      | cons next others =>
          -- The later members are looked up from the class that the type of the first is over.
          obtain ⟨between, notOpen, field, later, walked, declared, nests⟩ :=
            before 0 node rfl (by simp)
          obtain ⟨rfl, declaration, declares, type⟩ :=
            declares_of_member? isField (first _ _ walked) declared
          have onward := memberAlong_of_declared classed (first _ _ walked) nests (next :: others)
          refine .step isField declares (type ▸ nests) notOpen
            (inductionHypothesis (by rwa [List.getLast?_cons_cons] at isLast)
              (fun other member => named other (List.mem_cons_of_mem node member)) ?_ ?_)
          · intro index other isThere isBefore
            obtain ⟨type, isClosed, found⟩ := before (index + 1) other isThere
              (Nat.succ_lt_succ isBefore)
            refine ⟨type, isClosed, ?_⟩
            rwa [FindsField, onward index] at found
          · rwa [FindsField, List.length_cons, Nat.add_sub_cancel, List.length_cons,
              onward others.length] at finds

end Walks

/-! ## Values of exactly a type -/

namespace Graph

/-- A value is there and of exactly a type of arrays over a class: an array of arrays, and so on
down to a depth, whose elements are missing or of the class.  What is of the open type is left to a
condition of its own; any other value belongs to a set of values. -/
def IsExactly (graph : Graph) (opens inside : Value → Prop) (owner : Value) : Nat → Value → Prop
  | 0, value =>
      value.isMissing = false ∧
        if owner = ObjectPath.openType then opens value
        else graph.classOf value = owner ∧ inside value
  | depth + 1, value =>
      graph.isArray value = true ∧ ∀ index, ∃ item, graph.look? value (.ofIndex index) = some item ∧
        (item.isMissing = true ∨ IsExactly graph opens inside owner depth item)

/-- A set of values whose declared fields are slots that are empty or hold values of exactly the
types that they are declared with. -/
def WellTyped (graph : Graph) (opens inside : Value → Prop) : Prop :=
  ∀ {value : Value} {name : String} {declaration : FieldDeclaration}, inside value →
    value.isMissing = false → graph.declaration? value name = some declaration →
      ∃ content, graph.look? value (.ofText name) = some content ∧
        ∀ depth owner, graph.Nests depth owner declaration.type →
          content.isMissing = true ∨ graph.IsExactly opens inside owner depth content

variable {graph : Graph} {opens inside : Value → Prop} {owner base value : Value} {depth : Nat}

theorem IsExactly.isMissing (isExactly : graph.IsExactly opens inside owner depth value) :
    value.isMissing = false := by
  cases depth with
  | zero => exact isExactly.1
  | succ depth => exact isMissing_of_isArray isExactly.1

/-- Indices go into arrays as deep as these are. -/
theorem travel?_elements (indices : List Nat)
    (holds : value.isMissing = true ∨ graph.IsExactly opens inside owner depth value)
    (short : indices.length ≤ depth) :
    ∃ content, graph.travel? value (indices.map .element) = some content ∧
      (content.isMissing = true ∨
        graph.IsExactly opens inside owner (depth - indices.length) content) := by
  induction indices generalizing value depth with
  | nil => exact ⟨value, rfl, holds⟩
  | cons index rest inductionHypothesis =>
      rcases holds with missing | isExactly
      · -- What is missing stays missing under any index.
        obtain ⟨content, travelled, nothing⟩ :=
          graph.travel?_of_isMissing missing ((index :: rest).map .element)
        exact ⟨content, travelled, Or.inl nothing⟩
      · cases depth with
        | zero => cases short
        | succ depth =>
            obtain ⟨isArray, items⟩ := isExactly
            obtain ⟨item, looked, isItem⟩ := items index
            obtain ⟨content, travelled, ends⟩ :=
              inductionHypothesis isItem (Nat.le_of_succ_le_succ short)
            refine ⟨content, ?_, ?_⟩
            · rw [List.map_cons, travel?, isMissing_of_isArray isArray,
                if_neg Bool.false_ne_true, take?, if_pos isArray, looked]
              exact travelled
            · rwa [List.length_cons, Nat.succ_sub_succ]

variable {resolver : Resolver} {node : Node} {name : String} {declaration : FieldDeclaration}

/-- A node that names a declared field of a value gives what is left of its type. -/
theorem WellTyped.travel?_node (typed : graph.WellTyped opens inside) (isInside : inside value)
    (present : value.isMissing = false) (ofClass : graph.classOf value = owner)
    (named : node.form.base = .field name)
    (declares : graph.Declares owner (resolver.actualName name) declaration)
    (nests : graph.Nests depth base declaration.type)
    (short : node.form.indices.length ≤ depth) :
    ∃ content, graph.travel? value (node.steps resolver) = some content ∧
      (content.isMissing = true ∨ graph.IsExactly opens inside base
        (depth - node.form.indices.length) content) := by
  obtain ⟨notBlocked, entered⟩ := declares
  rw [← ofClass] at entered
  obtain ⟨content, looked, holds⟩ := typed isInside present entered
  have isField : (graph.field? value (resolver.actualName name)).isSome = true := by
    rw [field?, notBlocked, if_neg Bool.false_ne_true, entered]
    rfl
  obtain ⟨field, isField⟩ := Option.isSome_iff_exists.1 isField
  obtain ⟨final, travelled, ends⟩ := travel?_elements node.form.indices (holds depth base nests)
    short
  refine ⟨final, ?_, ends⟩
  have plain : node.form.isPlain = true := by
    rw [Form.isPlain, named]
  rw [(Node.steps_of_form resolver plain).2, Form.steps, named, List.singleton_append, travel?,
    present, if_neg Bool.false_ne_true, take?, isField, Option.bind_some, looked]
  exact travelled

end Graph

open Graph

variable {graph : Graph} {opens inside : Value → Prop} {resolver : Resolver} {owner base : Value}
  {nodes : List Node} {depth : Nat}

/-- Reading nodes that descend along declared types, from a value of the class, leads to what is
left of the last type: each node that is read leads to a value of the class from which the next one
descends, or to nothing. -/
theorem Descends.travel? (descends : Descends resolver graph owner nodes depth base)
    (typed : graph.WellTyped opens inside) {value : Value} (isInside : inside value)
    (present : value.isMissing = false) (ofClass : graph.classOf value = owner) :
    ∃ content, graph.travel? value (stepsOf resolver nodes) = some content ∧
      (content.isMissing = true ∨ graph.IsExactly opens inside base depth content) := by
  induction descends generalizing value with
  | last named declares nests short =>
      rw [stepsOf_cons, stepsOf, List.flatMap_nil, List.append_nil]
      exact typed.travel?_node isInside present ofClass named declares nests short
  | step named declares nests notOpen _ inductionHypothesis =>
      obtain ⟨content, travelled, ends⟩ :=
        typed.travel?_node isInside present ofClass named declares nests le_rfl
      rw [stepsOf_cons, travel?_append, travelled, Option.bind_some]
      rcases ends with missing | isExactly
      · obtain ⟨nothing, onward, nothingMissing⟩ := graph.travel?_of_isMissing missing _
        exact ⟨nothing, onward, Or.inl nothingMissing⟩
      · rw [Nat.sub_self, IsExactly, if_neg notOpen] at isExactly
        exact inductionHypothesis isExactly.2.2 isExactly.1 isExactly.2.1

namespace Session

variable {path : Path} {world : World} {root : Value}

/-- A member of a path without a type is looked up on the class that is given. -/
theorem memberOf_of_dynamic (dynamic : path.isStatic = false) {index : Nat}
    (isNode : index < path.size) (owner : Value) :
    memberOf path (.ofNat index) (some owner) none world =
      onGraph (memberAlong (path.resolverIn world) none path.nodes index owner .onInstance)
        world := by
  have noType : path.rootType = none :=
    Option.not_isSome_iff_eq_none.1 (Bool.eq_false_iff.1 dynamic)
  have given : ownerOf path (some owner) world = .ok owner world := by
    unfold ownerOf
    rw [noType]
    rfl
  have scope : firstScope path = .onInstance := by
    rw [firstScope, dynamic]
    rfl
  rw [memberOf_of_start (positionOf?_ofNat isNode) given, scope]
  rfl

/-- The declared field that the type walk of a path finds for a node, from a class on, is of a type
of arrays, down to a depth, over another class. -/
def MemberIsField (path : Path) (owner : Value) (world : World) (index depth : Nat)
    (base : Value) : Prop :=
  ∃ field later, memberOf path (.ofNat index) (some owner) none world =
    .ok (some (.field field)) later ∧ field.declared = true ∧
      world.graph.Nests depth base field.type

theorem MemberIsField.findsField (dynamic : path.isStatic = false) {owner base : Value}
    {index depth : Nat} (isNode : index < path.size)
    (isField : MemberIsField path owner world index depth base) :
    FindsField (path.resolverIn world) world.graph path.nodes owner index depth base := by
  obtain ⟨field, later, found, declared, nests⟩ := isField
  rw [memberOf_of_dynamic dynamic isNode] at found
  obtain ⟨graph, walked, _⟩ := ok_of_onGraph found
  exact ⟨field, graph, walked, declared, nests⟩

/-- A path names declared fields, with the indices that their types ask for up to the last one.
Read from a value of the class at which its type walk starts, among values whose declared fields
hold what they are declared to hold, it never fails, and what it gives is `null` or of exactly the
type that its last indices leave of the type of the last field. -/
theorem well_typed_path_does_not_go_wrong {opens inside : Value → Prop} {owner base : Value}
    {depth : Nat} (classed : world.graph.Classed) (typed : world.graph.WellTyped opens inside)
    (isInside : inside root) (ofClass : world.graph.classOf root = owner)
    (dynamic : path.isStatic = false)
    (named : ∀ node ∈ path.nodes, ∃ name, node.form.base = .field name)
    (before : ∀ index node, path.nodes[index]? = some node → index + 1 < path.size →
      ∃ between, between ≠ openType ∧
        MemberIsField path owner world index node.form.indices.length between)
    (last : MemberIsField path owner world (path.size - 1) depth base)
    (short : path.lastNode.form.indices.length ≤ depth) (arguments : Option ArgumentMap) :
    ∃ value, getValue path root ⟨arguments, none⟩ world = .ok value world ∧
      (value = .null ∨ world.graph.IsExactly opens inside base
        (depth - path.lastNode.form.indices.length) value) := by
  cases present : root.isMissing with
  | true => exact ⟨.null, by rw [getValue, if_pos present]; rfl, Or.inl rfl⟩
  | false =>
      have positive : 0 < path.size := List.length_pos_iff.2 path.nodes_ne_nil
      have isLast : path.nodes.getLast? = some path.lastNode :=
        List.getLast?_eq_some_getLast path.nodes_ne_nil
      have descends := descends_of_findsField classed isLast named
        (fun index node isThere isBefore => by
          obtain ⟨between, notOpen, isField⟩ := before index node isThere isBefore
          exact ⟨between, notOpen, isField.findsField dynamic (Nat.lt_of_succ_lt isBefore)⟩)
        (last.findsField dynamic (Nat.sub_lt positive Nat.one_pos)) short
      obtain ⟨content, travelled, ends⟩ := descends.travel? typed isInside present ofClass
      have plainPath : path.IsPlain := fun node member => by
        obtain ⟨name, isField⟩ := named node member
        exact (Node.steps_of_form (path.resolverIn world)
          (by rw [Form.isPlain, isField])).1
      refine ⟨content.orNull, getValue_of_travel? plainPath rfl dynamic classed present travelled,
        ?_⟩
      rcases ends with missing | isExactly
      · exact Or.inl (by rw [Value.orNull, missing]; rfl)
      · rw [Value.orNull, isExactly.isMissing]
        exact Or.inr isExactly

/-- The type of the declared field that the type walk of a path finds for a node, if it does. -/
def declaredType? (path : Path) (owner : Value) (world : World) (index : Nat) : Option Value :=
  match memberOf path (.ofNat index) (some owner) none world with
  | .ok (some (.field field)) _ => if field.declared then some field.type else none
  | _ => none

theorem memberIsField_of_declaredType? {owner type base : Value} {index depth : Nat}
    (found : declaredType? path owner world index = some type)
    (nests : world.graph.Nests depth base type) :
    MemberIsField path owner world index depth base := by
  unfold declaredType? at found
  split at found
  · rename_i field later walked
    split at found
    · cases found
      exact ⟨field, later, walked, by assumption, nests⟩
    · cases found
  · cases found

end Session

/-! ## A person with codes -/

namespace Graph

variable {graph : Graph}

/-- The name and the type of a declared field are listed by the class of its holder. -/
theorem mem_of_declaration? {value : Value} {name : String} {declaration : FieldDeclaration}
    {listed : List (String × Value)}
    (fields : (graph.fields (graph.classOf value) .onInstance).map
      (fun entry => (entry.1, entry.2.type)) = listed)
    (declared : graph.declaration? value name = some declaration) :
    (name, declaration.type) ∈ listed := by
  rw [← fields]
  exact List.mem_map.2 ⟨_, Entries.mem_of_get? declared, rfl⟩

/-- Whether the slots of an object at a place hold some values, and it inherits no elements. -/
def elementsAmong (graph : Graph) (values : List Value) (place : Nat) : Bool :=
  (graph.object? place).any (fun object =>
    (match object.body with
      | .boxed _ => false
      | _ => true) &&
    object.slots.all fun slot => match slot.2 with
      | .data content _ => values.contains content
      | .accessor _ _ _ _ => false) &&
  (graph.ancestors (.object place)).all fun other => (graph.object? other).all Object.isVoid

theorem exists_element {values : List Value} {place : Nat}
    (checked : graph.elementsAmong values place = true) (index : Nat) :
    ∃ item, graph.look? (.object place) (.ofIndex index) = some item ∧
      (item = .undefined ∨ item ∈ values) := by
  obtain ⟨held, barren⟩ := Bool.and_eq_true_iff.1 checked
  obtain ⟨object, isObject, held⟩ := (Option.any_eq_true _ _).1 held
  obtain ⟨noBox, slots⟩ := Bool.and_eq_true_iff.1 held
  have own : graph.own? (.object place) (.ofIndex index) =
      Entries.get? object.slots (.ofIndex index) := by
    rw [own?, ownAt?, isObject, Option.bind_some, Object.own?_ofIndex noBox]
  have inherited : graph.inherited? (.object place) (.ofIndex index) = none := by
    refine List.findSome?_eq_none_iff.2 fun other above => ?_
    have isVoid := List.all_eq_true.1 barren other above
    unfold ownAt?
    cases found : graph.object? other with
    | none => rfl
    | some object =>
        rw [found, Option.all_some] at isVoid
        exact Object.own?_of_isVoid isVoid index
  rw [look?, find?, own, inherited]
  cases found : Entries.get? object.slots (.ofIndex index) with
  | none => exact ⟨.undefined, rfl, Or.inl rfl⟩
  | some property =>
      have isHeld := List.all_eq_true.1 slots _ (Entries.mem_of_get? found)
      cases property with
      | data content flags => exact ⟨content, rfl, Or.inr (List.contains_iff_mem.1 isHeld)⟩
      | accessor => cases isHeld

end Graph

/-- The graph of people with an array of one array of codes, an address with these codes, and a
person at this address. -/
@[irreducible]
def codesGraph : Graph :=
  stateAfter (do
    let row ← Run.newArray [none, some (.ofNat 5)]
    let codes ← Run.newArray [some row]
    let address ← Run.read addressClass "prototype"
    let home ← Run.allocate
      ⟨address.place?, .plain, Run.dataSlots [(.name "codes", codes)], true⟩
    let person ← Run.read (peopleGraph.classOf lonePerson) "prototype"
    Run.allocate ⟨person.place?, .plain, Run.dataSlots [(.name "home", home)], true⟩)
    peopleGraph

namespace Session

def codesPath : Path :=
  ⟨World.standardPlace, 0, "home.codes[0][1]",
    [.field 0 "home",
      .array 3 "codes[0][1]" 1 (some (.array 2 "codes[0]" 0 (some (.field 1 "codes"))))],
    List.cons_ne_nil _ _, none⟩

def codesWorld : World :=
  World.initial codesGraph

end Session

namespace Codes

/-- The array of one code, behind a hole. -/
def row : Value :=
  .object (codesGraph.objects.size - 4)

/-- The array of the array of codes. -/
def codes : Value :=
  .object (codesGraph.objects.size - 3)

/-- The address with the codes. -/
def home : Value :=
  .object (codesGraph.objects.size - 2)

/-- The person at the address. -/
def person : Value :=
  .object (codesGraph.objects.size - 1)

/-- The type of arrays of arrays of numbers. -/
def type : Value :=
  codesGraph.fieldType home "codes"

/-- The class of numbers. -/
def number : Value :=
  .object BuiltinClass.number.place

/-- The address, the person and the code. -/
def Inside (value : Value) : Prop :=
  value ∈ [person, home, .ofNat 5]

/-- What is seen by looking at the graph. -/
structure Seen : Prop where
  checked : codesGraph.isSound = true
  types : codesGraph.isArrayType type = true ∧
    codesGraph.isArrayType (codesGraph.member type (.name "componentType")) = true ∧
    codesGraph.member (codesGraph.member type (.name "componentType"))
      (.name "componentType") = number ∧
    codesGraph.isArrayType number = false
  address_is_closed : codesGraph.isArrayType addressClass = false ∧ addressClass ≠ openType
  arrays : codesGraph.isArray codes = true ∧ codesGraph.isArray row = true ∧
    codesGraph.elementsAmong [row] (codesGraph.objects.size - 3) = true ∧
    codesGraph.elementsAmong [.ofNat 5] (codesGraph.objects.size - 4) = true ∧
    codesGraph.classOf (.ofNat 5) = number
  /-- The declared fields of the person, of the address and of the code. -/
  fields : (codesGraph.fields (codesGraph.classOf person) .onInstance).map
      (fun entry => (entry.1, entry.2.type)) = [("home", addressClass)] ∧
    (codesGraph.fields (codesGraph.classOf home) .onInstance).map
      (fun entry => (entry.1, entry.2.type)) = [("codes", type)] ∧
    (codesGraph.fields (codesGraph.classOf (.ofNat 5)) .onInstance).map
      (fun entry => (entry.1, entry.2.type)) = []
  contents : codesGraph.look? person (.ofText "home") = some home ∧
    codesGraph.classOf home = addressClass ∧
    codesGraph.look? home (.ofText "codes") = some codes
  home_type : Session.declaredType? Session.codesPath (codesGraph.classOf person)
    Session.codesWorld 0 = some addressClass
  codes_type : Session.declaredType? Session.codesPath (codesGraph.classOf person)
    Session.codesWorld (Session.codesPath.size - 1) = some type
  code : (Session.getValue Session.codesPath person ⟨none, none⟩).run' Session.codesWorld =
    some (.ofNat 5)

section Seen

variable (seen : Seen)
include seen

theorem nests_address : codesGraph.Nests 0 addressClass addressClass :=
  .base seen.address_is_closed.1

theorem nests_type : codesGraph.Nests 2 number type := by
  obtain ⟨isArrays, isArray, isNumber, noArray⟩ := seen.types
  refine .array isArrays (.array isArray ?_)
  rw [isNumber]
  exact .base noArray

theorem exactly_row (opens : Value → Prop) :
    codesGraph.IsExactly opens Inside number 1 row := by
  obtain ⟨-, isArray, -, elements, isNumber⟩ := seen.arrays
  refine ⟨isArray, fun index => ?_⟩
  obtain ⟨item, looked, rfl | isCode⟩ := exists_element elements index
  · exact ⟨.undefined, looked, Or.inl rfl⟩
  · obtain rfl := List.mem_singleton.1 isCode
    refine ⟨_, looked, Or.inr ⟨rfl, ?_⟩⟩
    rw [if_neg (by decide)]
    exact ⟨isNumber, by simp [Inside]⟩

theorem exactly_codes (opens : Value → Prop) :
    codesGraph.IsExactly opens Inside number 2 codes := by
  obtain ⟨isArray, -, elements, -, -⟩ := seen.arrays
  refine ⟨isArray, fun index => ?_⟩
  obtain ⟨item, looked, rfl | isRow⟩ := exists_element elements index
  · exact ⟨.undefined, looked, Or.inl rfl⟩
  · obtain rfl := List.mem_singleton.1 isRow
    exact ⟨_, looked, Or.inr (exactly_row seen opens)⟩

theorem wellTyped (opens : Value → Prop) : codesGraph.WellTyped opens Inside := by
  obtain ⟨ofPerson, ofHome, ofCode⟩ := seen.fields
  obtain ⟨holdsHome, isAddress, holdsCodes⟩ := seen.contents
  intro value name declaration isInside _ declared
  rcases List.mem_cons.1 isInside with rfl | isInside
  · have listed := mem_of_declaration? ofPerson declared
    obtain ⟨rfl, ofAddress⟩ := Prod.mk.inj (List.mem_singleton.1 listed)
    refine ⟨home, holdsHome, fun depth owner nests => Or.inr ?_⟩
    rw [ofAddress] at nests
    obtain ⟨rfl, rfl⟩ := nests.unique (nests_address seen)
    refine ⟨rfl, ?_⟩
    rw [if_neg seen.address_is_closed.2]
    exact ⟨isAddress, by simp [Inside]⟩
  · rcases List.mem_cons.1 isInside with rfl | isCode
    · have listed := mem_of_declaration? ofHome declared
      obtain ⟨rfl, ofCodes⟩ := Prod.mk.inj (List.mem_singleton.1 listed)
      refine ⟨codes, holdsCodes, fun depth owner nestsType => Or.inr ?_⟩
      rw [ofCodes] at nestsType
      obtain ⟨rfl, rfl⟩ := nestsType.unique (nests_type seen)
      exact exactly_codes seen opens
    · obtain rfl := List.mem_singleton.1 isCode
      cases mem_of_declaration? ofCode declared

end Seen

end Codes

namespace Session

theorem codesPath_home_isField (seen : Codes.Seen) (index : Nat) (node : Node)
    (isThere : codesPath.nodes[index]? = some node) (isBefore : index + 1 < codesPath.size) :
    ∃ between, between ≠ openType ∧ MemberIsField codesPath (codesGraph.classOf Codes.person)
      codesWorld index node.form.indices.length between := by
  obtain rfl : index = 0 := Nat.lt_one_iff.1 (Nat.lt_of_succ_lt_succ isBefore)
  cases isThere
  exact ⟨addressClass, seen.address_is_closed.2,
    memberIsField_of_declaredType? seen.home_type (Codes.nests_address seen)⟩

theorem codesPath_codes_isField (seen : Codes.Seen) :
    MemberIsField codesPath (codesGraph.classOf Codes.person) codesWorld (codesPath.size - 1) 2
      Codes.number :=
  memberIsField_of_declaredType? seen.codes_type (Codes.nests_type seen)

theorem seen_codes : Codes.Seen := by
  constructor <;> decide +kernel

/-- The code of a person is read through an address and two arrays. -/
theorem code_of_person_is_read :
    getValue codesPath Codes.person ⟨none, none⟩ codesWorld = .ok (.ofNat 5) codesWorld ∧
      codesGraph.IsExactly (fun _ => True) Codes.Inside Codes.number 0 (.ofNat 5) := by
  have named : ∀ node ∈ codesPath.nodes, ∃ name, node.form.base = .field name := by
    simp only [codesPath, List.forall_mem_cons]
    exact ⟨⟨_, rfl⟩, ⟨_, rfl⟩, List.forall_mem_nil _⟩
  obtain ⟨value, given, isValue⟩ := well_typed_path_does_not_go_wrong
    (show codesWorld.graph.Classed from (sound_of_check seen_codes.checked).toClassed)
    (show codesWorld.graph.WellTyped _ _ from Codes.wellTyped seen_codes fun _ => True)
    (show Codes.Inside Codes.person from List.mem_cons_self ..) rfl rfl named
    (codesPath_home_isField seen_codes) (codesPath_codes_isField seen_codes) (by decide) none
  obtain ⟨rfl, -⟩ := EStateM.Result.ok.inj ((ok_of_run' seen_codes.code).symm.trans given)
  rcases isValue with isNull | isExactly
  · cases isNull
  · exact ⟨given, isExactly⟩

end Session

/-! ## Where well-typed paths go wrong -/

/-- The standard graph with a class of badges that declares a static field, and a class of arrays
that declares a field by the name of a method of arrays; the last two objects are one of each. -/
@[irreducible]
def badgeGraph : Graph :=
  stateAfter (do
    let text := Value.object BuiltinClass.string.place
    let badge ← Run.newClass "Badge" none ⟨none, none, []⟩
    Run.declareField badge "NAME" text
    let rows ← Run.newClass "Rows" (some (.object BuiltinClass.array.place))
      ⟨none, none, [⟨"push", none, .string "x"⟩]⟩
    let shared ← Run.read rows "prototype"
    Run.declareField shared "push" text
    let sharedBadge ← Run.read badge "prototype"
    let _ ← Run.allocate ⟨sharedBadge.place?, .plain, [], true⟩
    Run.allocate ⟨shared.place?, .items 0 true, Run.dataSlots [(.name "push", .string "x")], true⟩)
    Graph.standard

namespace Session

/-- A static path has a declared field but takes no root, and on an array that is an instance of a
class of its own, a declared field is not found where arrays have a method of its name. -/
theorem declared_field_is_not_read :
    let world := World.initial badgeGraph
    let badge := Value.object Graph.standard.objects.size
    let rows := Value.object (Graph.standard.objects.size + 2)
    let text := Value.object BuiltinClass.string.place
    let name : Path := ⟨World.standardPlace, 0, "class(Badge)NAME", [.field 0 "NAME"],
      List.cons_ne_nil _ _, some badge⟩
    let push : Path :=
      ⟨World.standardPlace, 0, "push", [.field 0 "push"], List.cons_ne_nil _ _, none⟩
    let oneBadge := Value.object (badgeGraph.objects.size - 2)
    let oneRows := Value.object (badgeGraph.objects.size - 1)
    (badgeGraph.Classed ∧ badgeGraph.WellTyped (fun _ => True) (· = oneBadge) ∧
      badgeGraph.classOf oneBadge = badge ∧ MemberIsField name badge world 0 0 text ∧
      ∃ fault later, getValue name oneBadge ⟨none, none⟩ world = .error fault later) ∧
    badgeGraph.isInstance oneRows rows = true ∧
      badgeGraph.look? oneRows (.ofText "push") = some (.string "x") ∧
      MemberIsField push rows world 0 0 text ∧
      (getValue push oneRows ⟨none, none⟩).run' world = none := by
  intro world badge rows text name push oneBadge oneRows
  have nestsText : badgeGraph.Nests 0 text text := .base (by decide +kernel)
  refine ⟨⟨(sound_of_check (by decide +kernel)).toClassed, ?_, by decide +kernel,
    memberIsField_of_declaredType? (by decide +kernel) nestsText, refuseRoot name, world, rfl⟩,
    by decide +kernel, by decide +kernel,
    memberIsField_of_declaredType? (by decide +kernel) nestsText, by decide +kernel⟩
  rintro value field declaration rfl _ declared
  have listed := mem_of_declaration? (show _ = [] by decide +kernel) declared
  cases listed

end Session

end ObjectPath
