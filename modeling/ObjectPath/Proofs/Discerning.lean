import ObjectPath.Proofs.Checking
import ObjectPath.Proofs.Members
import ObjectPath.Proofs.Reading

/-!
# Fields and methods told apart

What is found as a method is a function, on the value it was asked of.  What is found as a field
that is not declared is none, with two exceptions: a plain record takes every name for a field,
also that of a function it holds, and a field that a class shares may be hidden by a function on
the value itself.
-/

namespace ObjectPath

open Graph

/-! ## Members of holders -/

namespace Graph

variable {graph : Graph}

/-- What the holders of a search have is what a lookup on the first of them finds. -/
theorem find?_of_ownAmong? {holder : Value} {scope : Scope} {name : String} {property : Property}
    (found : ownAmong? graph (holdersFrom graph holder scope) name = some property) :
    graph.find? holder (.ofText name) = some property := by
  unfold ownAmong? holdersFrom at found
  split at found
  · -- The search asks the first of the objects that the lookup asks, in the same order.
    have all : (holder :: (graph.ancestors holder).map Value.object).findSome?
        (graph.own? · (.ofText name)) = some property := by
      rw [← List.takeWhile_append_dropWhile (p := (· != .object (searchEnd scope)))
        (l := holder :: (graph.ancestors holder).map Value.object), List.findSome?_append, found]
      rfl
    rw [List.findSome?_cons, List.findSome?_map] at all
    unfold find? inherited?
    cases own : graph.own? holder (.ofText name) <;> rw [own] at all <;> exact all
  · cases found

theorem look?_of_find? {value content : Value} {key : Key} {flags : Flags}
    (found : graph.find? value key = some (.data content flags)) :
    graph.look? value key = some content := by
  rw [look?, found]

/-- A member that is found without being computed is a slot. -/
theorem slot_of_look? {value : Value} {key : Key} {property : Property}
    (found : graph.find? value key = some property)
    (looks : (graph.look? value key).isSome = true) :
    ∃ content flags, property = .data content flags ∧ graph.look? value key = some content := by
  cases property with
  | data content flags => exact ⟨content, flags, rfl, look?_of_find? found⟩
  | accessor getter setter enumerable configurable =>
      rw [look?, found] at looks
      cases looks

/-- A value hides a slot that its class shares: it finds another member under the name. -/
def Hides (graph : Graph) (owner value : Value) (name : String) : Prop :=
  ∃ property, graph.shared? owner name = some property ∧
    graph.find? value (.ofText name) ≠ some property

/-- A plain record holds a function under a name. -/
def RecordsFunction (graph : Graph) (value : Value) (name : String) : Prop :=
  graph.isPlainRecord value = true ∧
    graph.isCallable (graph.member value (.ofText name)) = true

/-- A value passes no function off as a field: it hides no slot that its class shares, and if it
is a plain record it holds no function under the name.  What its class shares is held in a
slot. -/
structure IsHonest (graph : Graph) (owner value : Value) (name : String) : Prop where
  shares : (graph.look? owner (.name "prototype")).isSome = true
  hidesNothing : ¬ graph.Hides owner value name
  recordsNone : ¬ graph.RecordsFunction value name

end Graph

/-- A computation that gives no value ensures whatever is asked of its values. -/
theorem Ensures.of_never {σ α : Type} {work : EStateM Fault σ α} {state : σ}
    {good : α → σ → Prop} (never : Gives work fun _ => False) :
    Ensures work state good fun _ _ => True :=
  never.ensures.mono (fun _ _ => False.elim) fun _ _ => id

/-! ## Fields -/

/-- What the members of a scope are read on: the class, or the value that is known. -/
def subject? (owner : Value) : Scope → Option Value → Option Value
  | .onClass, _ => some owner
  | .onInstance, value? => knownValue value?

/-- A member can be read on a value and gives no function. -/
def FieldMember.IsNoFunction (member : FieldMember) (target : Value) (graph : Graph) : Prop :=
  ∃ content, member.get target graph = .ok content graph ∧ graph.isCallable content = false

variable {graph : Graph}

theorem isNoFunction_of_look? {member : FieldMember} {target content : Value}
    (looked : graph.look? target (.ofText member.name) = some content)
    (simple : graph.isCallable content = false) : member.IsNoFunction target graph :=
  ⟨content, Run.readAsObject_of_look? looked, simple⟩

theorem isNoFunction_of_found {member : FieldMember} {target : Value} {property : Property}
    (found : graph.find? target (.ofText member.name) = some property)
    (looks : (graph.look? target (.ofText member.name)).isSome = true)
    (simple : ¬ holdsFunction graph property = true) : member.IsNoFunction target graph := by
  obtain ⟨content, flags, rfl, looked⟩ := slot_of_look? found looks
  exact isNoFunction_of_look? looked (Bool.eq_false_iff.2 simple)

theorem fieldOnValue_noFunction {owner value : Value} {name : String}
    (looks : (graph.look? value (.ofText name)).isSome = true)
    (recordsNone : ¬ graph.RecordsFunction value name) :
    Ensures (fieldOnValue owner name value) graph
      (fun member later => later = graph ∧ member.IsNoFunction value later) fun _ _ => True := by
  obtain ⟨content, looked⟩ := Option.isSome_iff_exists.1 looks
  refine Ensures.ok_bind (Run.readAsObject_of_look? looked) (Ensures.get_bind ?_)
  split
  · rename_i isOwn
    simp only [Bool.and_eq_true, Bool.not_eq_true'] at isOwn
    exact ⟨rfl, isNoFunction_of_look? looked isOwn.2⟩
  · split
    · trivial
    · split
      · rename_i isRecord
        refine ⟨rfl, isNoFunction_of_look? looked (Bool.eq_false_iff.2 fun callable => ?_)⟩
        exact recordsNone ⟨isRecord, (member_of_look? looked).symm ▸ callable⟩
      · exact Ensures.of_never (Gives.bind fun _ => Gives.throw)

/-- What shares the members of a class is found without running anything. -/
theorem holderOf_of_look? {owner shared : Value}
    (looked : graph.look? owner (.name "prototype") = some shared) :
    Ensures (holderOf owner .onInstance) graph
      (fun holder later => later = graph ∧ holder = graph.member owner (.name "prototype"))
      fun _ _ => True := by
  rw [← Key.ofText_prototype] at looked ⊢
  cases owner with
  | undefined => trivial
  | null => trivial
  | _ =>
      exact Ensures.of_ok (Run.stepWith_of_look? perform rfl looked)
        ⟨rfl, (member_of_look? looked).symm⟩

/-- What the members of a scope are looked up on first. -/
def Graph.holder (graph : Graph) (owner : Value) : Scope → Value
  | .onClass => owner
  | .onInstance => graph.member owner (.name "prototype")

theorem holderOf_holds {owner : Value} {scope : Scope}
    (shares : scope = .onInstance → (graph.look? owner (.name "prototype")).isSome = true) :
    Ensures (holderOf owner scope) graph
      (fun holder later => later = graph ∧ holder = graph.holder owner scope)
      fun _ _ => True := by
  cases scope with
  | onClass => exact ⟨rfl, rfl⟩
  | onInstance =>
      obtain ⟨shared, looked⟩ := Option.isSome_iff_exists.1 (shares rfl)
      exact holderOf_of_look? looked

/-- A field that is found although it is not declared gives no function. -/
theorem findField_noFunction {owner target : Value} {name : String} {scope : Scope}
    {value? : Option Value} (given : subject? owner scope value? = some target)
    (looks : (graph.look? target (.ofText name)).isSome = true)
    (honest : scope = .onInstance → graph.IsHonest owner target name) :
    Ensures (findField owner name scope value?) graph
      (fun member later => later = graph ∧
        (member.declared = false → member.IsNoFunction target later)) fun _ _ => True := by
  unfold findField
  split
  · exact Ensures.of_never (Gives.bind fun _ => Gives.throw)
  refine Ensures.get_bind ?_
  split
  · exact ⟨rfl, nofun⟩
  refine Ensures.bind (holderOf_holds fun isInstance => (honest isInstance).shares) ?_
  rintro _ _ ⟨rfl, rfl⟩
  refine Ensures.get_bind ?_
  split
  · rename_i property among
    split
    · exact Ensures.of_never (Gives.bind fun _ => Gives.throw)
    · rename_i simple
      refine ⟨rfl, fun _ => isNoFunction_of_found ?_ looks simple⟩
      cases scope with
      | onClass =>
          cases given
          exact find?_of_ownAmong? among
      | onInstance =>
          exact not_not.1 fun other => (honest rfl).hidesNothing ⟨property, among, other⟩
  · cases scope with
    | onClass => exact Ensures.of_never (Gives.bind fun _ => Gives.throw)
    | onInstance =>
        rw [show knownValue value? = some target from given]
        exact (fieldOnValue_noFunction looks (honest rfl).recordsNone).mono
          (fun _ _ ended => ⟨ended.1, fun _ => ended.2⟩) fun _ _ => id

/-! ## Methods -/

theorem readMethod_subject {owner target : Value} {name : String} {scope : Scope}
    {value? : Option Value} (given : subject? owner scope value? = some target) :
    readMethod owner name scope value? = Run.readAsObject target name := by
  cases scope with
  | onClass =>
      cases given
      rfl
  | onInstance =>
      unfold readMethod
      rw [show knownValue value? = some target from given]

/-- What is found as a method is called, and is a function where its name is read. -/
theorem findMethod_isFunction {resolver : Resolver} {owner target : Value} {name : String}
    {arguments : List Value} {scope : Scope} {value? : Option Value} {method : MethodMember}
    {later : Graph} (given : subject? owner scope value? = some target)
    (ended : findMethod resolver owner name arguments scope value? graph = .ok method later) :
    ∃ callee schemas middle, method.action = .call callee schemas ∧
      Run.readAsObject target name graph = .ok callee middle ∧
      middle.isCallable callee = true := by
  obtain ⟨_, content, middle, isRead, found⟩ := findMethod_cases ended
  rw [readMethod_subject given] at isRead
  cases found with
  | declared declaration _ callable => exact ⟨content, _, middle, rfl, isRead, callable⟩
  | undeclared _ callable => exact ⟨content, [], middle, rfl, isRead, callable⟩
  | late _ onInstance unknown _ =>
      -- Only on an instance that is not known yet would the method be looked up later.
      subst onInstance
      rw [show knownValue value? = some target from given] at unknown
      cases unknown

/-! ## What is found -/

/-- Fields hold no functions and methods do.  A field that is found although it is not declared
and is no accessor gives no function on the value or the class that it was asked of, unless that
value passes a function off as a field.  A method that is found there is the function that its
name reads there. -/
theorem fields_and_methods_told_apart (resolver : Resolver) {owner target : Value}
    {name : String} {scope : Scope} {value? : Option Value} {graph : Graph}
    (given : subject? owner scope value? = some target) :
    (∀ member later, resolver.field owner name scope value? graph = .ok member later →
      member.declared = false → (graph.look? target (.ofText member.name)).isSome = true →
        (scope = .onInstance → graph.IsHonest owner target member.name) →
          ∃ content, member.get target later = .ok content later ∧
            later.isCallable content = false) ∧
    ∀ arguments member later,
      resolver.method owner name arguments scope value? graph = .ok member later →
        ∃ callee schemas middle, member.action = .call callee schemas ∧
          Run.readAsObject target member.name graph = .ok callee middle ∧
          middle.isCallable callee = true := by
  refine ⟨?_, ?_⟩
  · intro member later ended undeclared looks honest
    have named : member.name = resolver.actualName name :=
      (findField_meets owner _ scope value? graph member later ended).name
    rw [named] at looks honest
    exact ((findField_noFunction given looks honest).ok ended).2 undeclared
  · intro arguments member later ended
    have named : member.name = resolver.actualName name :=
      (findMethod_meets resolver owner _ arguments scope value? graph member later ended).name
    rw [named]
    exact findMethod_isFunction given ended

/-- A grid has an undeclared field, which holds no function, and a method, which is one. -/
theorem grid_tells_fields_from_methods :
    let grids := Value.object Graph.standard.objects.size
    subject? grids .onInstance (some emptyGrid) = some emptyGrid ∧
      (∃ member later content,
        Resolver.standard.field grids "free" .onInstance (some emptyGrid) gridGraph =
          .ok member later ∧
        member.declared = false ∧ (gridGraph.look? emptyGrid (.ofText member.name)).isSome = true ∧
        gridGraph.IsHonest grids emptyGrid member.name ∧
        member.get emptyGrid later = .ok content later ∧ later.isCallable content = false) ∧
      ∃ member later callee schemas middle,
        Resolver.standard.method grids "toString" [] .onInstance (some emptyGrid) gridGraph =
          .ok member later ∧
        member.action = .call callee schemas ∧
        Run.readAsObject emptyGrid member.name gridGraph = .ok callee middle ∧
        middle.isCallable callee = true := by
  intro grids
  have given : subject? grids .onInstance (some emptyGrid) = some emptyGrid := rfl
  refine ⟨given, ?_, ?_⟩
  · have found : ((Resolver.standard.field grids "free" .onInstance (some emptyGrid)).run'
        gridGraph).map (fun member => (member.name, member.declared)) = some ("free", false) := by
      decide +kernel
    obtain ⟨member, isFound, same⟩ := Option.map_eq_some_iff.1 found
    obtain ⟨named, undeclared⟩ := Prod.mk.inj same
    have honest : gridGraph.IsHonest grids emptyGrid member.name := by
      rw [named]
      refine ⟨by decide +kernel, ?_, ?_⟩
      · rintro ⟨property, shared, _⟩
        have unshared : (gridGraph.shared? grids "free").isNone = true := by decide +kernel
        rw [shared] at unshared
        cases unshared
      · rintro ⟨isRecord, _⟩
        exact absurd isRecord (by decide +kernel)
    have looks : (gridGraph.look? emptyGrid (.ofText member.name)).isSome = true := by
      rw [named]
      decide +kernel
    obtain ⟨content, got, simple⟩ := (fields_and_methods_told_apart Resolver.standard given).1 member _
      (ok_of_run' isFound) undeclared looks fun _ => honest
    exact ⟨member, _, content, ok_of_run' isFound, undeclared, looks, honest, got, simple⟩
  · have returns : ((Resolver.standard.method grids "toString" [] .onInstance
        (some emptyGrid)).run' gridGraph).isSome = true := by decide +kernel
    obtain ⟨member, isFound⟩ := Option.isSome_iff_exists.1 returns
    obtain ⟨callee, schemas, middle, calls, isRead, callable⟩ :=
      (fields_and_methods_told_apart Resolver.standard given).2 [] member _ (ok_of_run' isFound)
    exact ⟨member, _, callee, schemas, middle, ok_of_run' isFound, calls, isRead, callable⟩

/-! ## Records that hold functions -/

theorem fieldOnValue_of_recordsFunction (owner : Value) {value : Value} {name : String}
    (present : value.isMissing = false)
    (looks : (graph.look? value (.ofText name)).isSome = true)
    (records : graph.RecordsFunction value name) :
    fieldOnValue owner name value graph = .ok (openField owner name .onInstance) graph := by
  obtain ⟨content, looked⟩ := Option.isSome_iff_exists.1 looks
  have callable : graph.isCallable content = true := member_of_look? looked ▸ records.2
  have notNull : value ≠ .null := by
    rintro rfl
    cases present
  unfold fieldOnValue
  rw [bind_of_ok (Run.readAsObject_of_look? looked), bind_get]
  simp only [callable, Bool.not_true, Bool.and_false, Bool.false_eq_true, if_false, if_neg notNull,
    records.1, if_true]
  rfl

/-- A plain record takes the name of a function that it holds for a field, if the class neither
declares a field of this name nor shares a member of it. -/
theorem field_of_recordsFunction {resolver : Resolver} {owner value : Value} {name : String}
    (unblocked : resolver.actualName name ∉ blockedNames)
    (undeclared : Entries.get? (graph.fields owner .onInstance) (resolver.actualName name) = none)
    (isThere : owner.isMissing = false)
    (shares : (graph.look? owner (.name "prototype")).isSome = true)
    (unshared : graph.shared? owner (resolver.actualName name) = none)
    (present : value.isMissing = false)
    (looks : (graph.look? value (.ofText (resolver.actualName name))).isSome = true)
    (records : graph.RecordsFunction value (resolver.actualName name)) :
    ∃ member content,
      resolver.field owner name .onInstance (some value) graph = .ok member graph ∧
        member.declared = false ∧ member.get value graph = .ok content graph ∧
          graph.isCallable content = true := by
  obtain ⟨content, looked⟩ := Option.isSome_iff_exists.1 looks
  obtain ⟨shared, sharedLooked⟩ := Option.isSome_iff_exists.1 shares
  refine ⟨openField owner (resolver.actualName name) .onInstance, content, ?_, rfl,
    Run.readAsObject_of_look? looked, member_of_look? looked ▸ records.2⟩
  have held : holderOf owner .onInstance graph =
      .ok (graph.member owner (.name "prototype")) graph := by
    rw [member_of_look? sharedLooked]
    rw [← Key.ofText_prototype] at sharedLooked
    exact Run.stepWith_of_look? perform isThere sharedLooked
  have known : knownValue (some value) = some value := by
    cases value <;> first | rfl | cases present
  unfold shared? at unshared
  unfold Resolver.field findField
  rw [if_neg (by simpa using unblocked), bind_get, undeclared]
  dsimp only
  rw [bind_of_ok held, bind_get, unshared, known]
  exact fieldOnValue_of_recordsFunction owner present looks records

/-- The standard graph with a record that holds a function. -/
@[irreducible]
def recordingGraph : Graph :=
  stateAfter (do
    let function ← Run.newFunction "f" []
    Run.newRecord [(.name "f", function)])
    Graph.standard

/-- The name of a function that a record holds is found as a field, which gives the function. -/
theorem function_of_record_is_field :
    let record := Value.object (recordingGraph.objects.size - 1)
    subject? openType .onInstance (some record) = some record ∧
      (recordingGraph.look? record (.ofText "f")).isSome = true ∧
      (do
        let member ← Resolver.standard.field openType "f" .onInstance (some record)
        let content ← member.get record
        pure (member.name, member.declared, (← get).isCallable content)).run' recordingGraph =
          some ("f", false, true) :=
  ⟨rfl, by decide +kernel, by decide +kernel⟩

end ObjectPath
