import ObjectPath.Factory
import ObjectPath.Proofs.Outcome
import ObjectPath.Proofs.Soundness

/-!
# What types are called

In a sound graph, finding out what a type is called leaves the graph as it is.  The name of
an array type is computed by a built-in accessor from the name of its component, so the
proof is by induction on the number of calls inside one another.
-/

namespace ObjectPath

open Graph

/-! ## Keys -/

@[simp]
theorem Key.ofText_name : Key.ofText "name" = .name "name" := by decide +kernel

@[simp]
theorem Key.ofText_componentType : Key.ofText "componentType" = .name "componentType" := by decide +kernel

@[simp]
theorem Key.ofText_constructor : Key.ofText "constructor" = .name "constructor" := by decide +kernel

@[simp]
theorem Key.ofText_prototype : Key.ofText "prototype" = .name "prototype" := by decide +kernel

/-- The members under which types are looked up are slots. -/
theorem Graph.Classed.look? {graph : Graph} (classed : graph.Classed) (value : Value) (key : Key)
    (isTypeKey : key ∈ typeKeys) : graph.look? value key = some (graph.member value key) := by
  unfold Graph.look? member
  cases found : graph.find? value key with
  | none => rfl
  | some property =>
      cases property with
      | data content flags => rfl
      | accessor getter setter enumerable configurable =>
          exfalso
          unfold find? at found
          split at found
          · rename_i own
            cases found
            cases value <;> simp only [own?] at own <;> try cases own
            case string text =>
              unfold textOwn? at own
              split at own <;> try cases own
              obtain ⟨_, _, impossible⟩ := Option.map_eq_some_iff.1 own
              cases impossible
            case object place =>
              obtain ⟨_, _, impossible⟩ := classed.plain isTypeKey own
              cases impossible
          · obtain ⟨place, _, own⟩ := List.exists_of_findSome?_eq_some found
            obtain ⟨_, _, impossible⟩ := classed.plain isTypeKey own
            cases impossible

namespace Run

variable {graph : Graph}

/-! ## Reading slots -/

theorem readWith_of_look? (invoke : Invoker) {value content : Value} {key : Key}
    (looked : graph.look? value key = some content) :
    readWith invoke value key graph = .ok content graph := by
  change receive invoke value (graph.find? value key) graph = .ok content graph
  unfold Graph.look? at looked
  split at looked <;> rename_i found <;> rw [found] <;> cases looked <;> rfl

theorem stepWith_of_look? (invoke : Invoker) {value content : Value} {name : String}
    (present : value.isMissing = false)
    (looked : graph.look? value (.ofText name) = some content) :
    stepWith invoke value name graph = .ok content graph := by
  unfold stepWith
  cases value <;> first | exact readWith_of_look? invoke looked | cases present

theorem readAsObject_of_look? {value content : Value} {name : String}
    (looked : graph.look? value (.ofText name) = some content) :
    readAsObject value name graph = .ok content graph := by
  unfold readAsObject
  rw [bind_get]
  unfold Graph.look? at looked
  split at looked <;> rename_i found <;> cases looked <;> simp only [found] <;> rfl

/-! ## Names of types -/

/-- The text of a value that is no object is found by looking at it. -/
theorem messageText_peeks (invoke : Invoker) {value : Value} (simple : value.isObject = false) :
    Peeks (messageText invoke value) graph fun _ => True := by
  cases value <;> first | exact ⟨rfl, trivial⟩ | exact rfl | cases simple

theorem stepWith_name (sound : graph.Sound) (invoke : Invoker) {type : Value}
    (callable : graph.isCallable type = true) :
    Peeks (stepWith invoke type "name") graph fun name => name.isObject = false := by
  cases type with
  | object place =>
      obtain ⟨name, flags, own, simple, _⟩ := sound.named callable
      have looked : graph.look? (.object place) (.ofText "name") = some name := by
        simp [Graph.look?, find?, own?, own]
      unfold Peeks Ensures
      rw [stepWith_of_look? invoke rfl looked]
      exact ⟨rfl, simple⟩
  | _ => cases callable

theorem typeNameWith_of_isCallable (sound : graph.Sound) (invoke : Invoker) {type : Value}
    (notArray : graph.isArrayType type = false) (callable : graph.isCallable type = true) :
    Peeks (typeNameWith invoke type) graph fun name => name.isObject = false := by
  apply Peeks.get_bind
  rw [notArray]
  refine (stepWith_name sound invoke callable).bind ?_
  intro name simple
  apply Peeks.pure
  split
  · exact simple
  · rfl

/-- The name of an array type is what calling its accessor gives. -/
theorem typeNameWith_of_isArrayType (sound : graph.Sound) (invoke : Invoker) {type : Value}
    (arrayType : graph.isArrayType type = true) :
    ∃ getter, graph.callee? (.object getter) = some (.builtin .arrayTypeName) ∧
      typeNameWith invoke type graph = invoke (.call (.object getter) type []) graph := by
  obtain ⟨getter, _, _, found, callee⟩ := sound.arrayName arrayType
  refine ⟨getter, callee, ?_⟩
  change (if graph.isArrayType type then readWith invoke type (.name "name") else _) graph = _
  rw [if_pos arrayType]
  change receive invoke type (graph.find? type (.name "name")) graph = _
  rw [found]
  rfl

theorem typeNameWith_peeks (sound : graph.Sound) (depth : Nat) {type : Value}
    (isType : graph.IsType type) :
    Peeks (typeNameWith (performWithin depth) type) graph fun name => name.isObject = false := by
  induction depth generalizing type with
  | zero =>
      cases arrayType : graph.isArrayType type with
      | false =>
          exact typeNameWith_of_isCallable sound _ arrayType
            (isType.resolve_right (by simp [arrayType]))
      | true =>
          obtain ⟨getter, _, called⟩ := typeNameWith_of_isArrayType sound (performWithin 0) arrayType
          unfold Peeks Ensures
          rw [called]
          rfl
  | succ depth inductionHypothesis =>
      cases arrayType : graph.isArrayType type with
      | false =>
          exact typeNameWith_of_isCallable sound _ arrayType
            (isType.resolve_right (by simp [arrayType]))
      | true =>
          obtain ⟨getter, callee, called⟩ :=
            typeNameWith_of_isArrayType sound (performWithin (depth + 1)) arrayType
          have looked := sound.look? type (.name "componentType") (by decide)
          rw [← Key.ofText_componentType] at looked
          have stepped := stepWith_of_look? (performWithin depth) isType.isMissing looked
          unfold Peeks Ensures
          rw [called]
          change Peeks (callFunction (performWithin depth) (.object getter) type []) graph _
          apply Peeks.get_bind
          rw [callee]
          change Peeks (stepWith (performWithin depth) type "componentType" >>= _) graph _
          unfold Peeks Ensures
          rw [bind_of_ok stepped]
          refine Peeks.bind (?_ : Peeks _ graph fun _ => True) fun _ _ => Peeks.pure rfl
          refine (inductionHypothesis ?_).bind ?_
          · rw [Key.ofText_componentType]
            exact sound.component arrayType
          · intro name simple
            exact messageText_peeks _ simple

/-- The name of a type is found by looking, and is no object. -/
theorem typeName_peeks (sound : graph.Sound) {type : Value} (isType : graph.IsType type) :
    Peeks (typeName type) graph fun name => name.isObject = false :=
  typeNameWith_peeks sound depthLimit isType

theorem typeText_peeks (sound : graph.Sound) {type : Value} (isType : graph.IsType type) :
    Peeks (typeText type) graph fun _ => True :=
  (typeName_peeks sound isType).bind fun _ simple => messageText_peeks perform simple

/-! ## Faults that name types -/

/-- The failure to make an instance is put together by looking, unless what was raised has a
text that is computed. -/
theorem instantiationFault_peeks {typeName : Value} (simple : typeName.isObject = false)
    {cause : Fault}
    (raised : ∀ value, cause = .raisedValue value →
      Peeks (textOf perform value) graph fun _ => True) :
    Peeks (instantiationFault typeName cause) graph fun _ => True := by
  refine (messageText_peeks perform simple).bind ?_
  intro shown _
  split
  · exact Peeks.pure trivial
  · exact (raised _ rfl).bind fun _ _ => Peeks.pure trivial
  · exact Peeks.pure trivial

end Run

theorem notFound_peeks {graph : Graph} (sound : graph.Sound) (kind : MemberKind) {owner : Value}
    (isType : graph.IsType owner) (name : String) (detail : Option String) :
    Peeks (notFound kind owner name detail) graph fun _ => True :=
  (Run.typeText_peeks sound isType).bind fun _ _ => Peeks.pure trivial

end ObjectPath
