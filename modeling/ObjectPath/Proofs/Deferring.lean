import ObjectPath.Proofs.Discerning

/-!
# Methods of the open type

A method of the open type is looked up when no value is known yet.  If what all objects share
holds no function under its name, the lookup is put off: every value that the member is applied
to later has the method looked up on its class and on itself, as if it had been known from the
start.  But if all objects share a function under the name, it is taken at once, also for values
that have another one.  Then the member does the same only on values that go on with this
function.
-/

namespace ObjectPath

open Graph

namespace Resolver

/-- Looks a method up on the class of a value and on the value itself, and carries it out. -/
def callOn (resolver : Resolver) (target : Value) (name : String) (arguments : List Value) :
    Run Value := do
  let owner ← Run.typeOf target
  let found ← resolver.method owner name arguments .onInstance (some target)
  found.invoke target arguments

end Resolver

namespace Graph

/-- The schemas that a class declares for the parameters of a method; none if it declares no such
method. -/
def schemas (graph : Graph) (owner : Value) (name : String) : List Schema :=
  ((Entries.get? (graph.methods owner .onInstance) name).map MethodDeclaration.schemas).getD []

/-- A value goes on with a function under a name: its class is known and declares the schemas of
the function, which accept the arguments, and the name reads the function on the value.  To find
this out changes nothing. -/
structure GoesOnWith (graph : Graph) (target : Value) (name : String) (callee : Value)
    (schemas : List Schema) (arguments : List Value) : Prop where
  owner : ∃ owner, Run.typeOf target graph = .ok owner graph ∧ graph.schemas owner name = schemas
  reads : Run.readAsObject target name graph = .ok callee graph
  callable : graph.isCallable callee = true
  accepts : ∃ values, checkArguments schemas arguments graph = .ok (.ok values) graph

end Graph

variable {graph : Graph}

/-! ## Lookups on a value -/

theorem subject_known {owner target : Value} (known : target ≠ .undefined) :
    subject? owner .onInstance (some target) = some target := by
  cases target <;> first | rfl | exact absurd rfl known

/-- A lookup on a value is not put off. -/
theorem method_calls {resolver : Resolver} {owner target : Value} {name : String}
    {arguments : List Value} {found : MethodMember} {later : Graph} (known : target ≠ .undefined)
    (ended : resolver.method owner name arguments .onInstance (some target) graph =
      .ok found later) :
    ∃ callee schemas, found.action = .call callee schemas := by
  obtain ⟨callee, schemas, _, calls, _⟩ := findMethod_isFunction (subject_known known) ended
  exact ⟨callee, schemas, calls⟩

/-- A member whose lookup was put off does what looking it up on the value does. -/
theorem invoke_lookUp {resolver : Resolver} {member : MethodMember} {target : Value}
    (isLate : member.action = .lookUp resolver) (known : target ≠ .undefined)
    (given : List Value) :
    member.invoke target given graph = resolver.callOn target member.name given graph := by
  unfold MethodMember.invoke Resolver.callOn
  rw [isLate]
  refine bind_congr_ok rfl fun owner middle _ => bind_congr_ok rfl fun found later isFound => ?_
  obtain ⟨callee, schemas, calls⟩ := method_calls known isFound
  rw [calls, MethodMember.invoke_of_call calls]

/-! ## Functions that are taken at once -/

theorem callChecked_of_accepted {member : MethodMember} {callee target : Value}
    {schemas : List Schema} {arguments values : List Value} {later : Graph}
    (accepted : checkArguments schemas arguments graph = .ok (.ok values) later) :
    member.callChecked callee schemas target arguments graph =
      Run.call callee target values later := by
  unfold MethodMember.callChecked
  rw [bind_of_ok accepted]

theorem method_of_goesOnWith {resolver : Resolver} {owner target callee : Value} {name : String}
    {schemas : List Schema} {arguments : List Value}
    (itself : resolver.actualName name = name) (unblocked : blockedNames.contains name = false)
    (known : target ≠ .undefined) (declared : graph.schemas owner name = schemas)
    (goesOn : graph.GoesOnWith target name callee schemas arguments) :
    ∃ found, resolver.method owner name arguments .onInstance (some target) graph =
      .ok found graph ∧ found.action = .call callee schemas := by
  obtain ⟨values, accepted⟩ := goesOn.accepts
  have isRead : readMethod owner name .onInstance (some target) graph = .ok callee graph := by
    rw [readMethod_subject (subject_known known)]
    exact goesOn.reads
  unfold Graph.schemas at declared
  unfold Resolver.method findMethod
  rw [itself, unblocked, if_neg Bool.false_ne_true, bind_get, bind_of_ok isRead, bind_get,
    if_pos goesOn.callable]
  cases isDeclared : Entries.get? (graph.methods owner .onInstance) name with
  | none =>
      rw [isDeclared] at declared
      exact ⟨_, rfl, by rw [← declared]; rfl⟩
  | some declaration =>
      rw [isDeclared] at declared
      obtain rfl : declaration.schemas = schemas := declared
      dsimp only
      rw [bind_of_ok accepted]
      exact ⟨_, rfl, rfl⟩

/-- A member that calls a function does what a lookup on a value does that goes on with this
function. -/
theorem invoke_of_goesOnWith {resolver : Resolver} {member : MethodMember} {target callee : Value}
    {name : String} {schemas : List Schema} {given : List Value}
    (calls : member.action = .call callee schemas) (itself : resolver.actualName name = name)
    (unblocked : blockedNames.contains name = false) (known : target ≠ .undefined)
    (goesOn : graph.GoesOnWith target name callee schemas given) :
    member.invoke target given graph = resolver.callOn target name given graph := by
  obtain ⟨owner, typed, declared⟩ := goesOn.owner
  obtain ⟨values, accepted⟩ := goesOn.accepts
  obtain ⟨found, isFound, callsFound⟩ :=
    method_of_goesOnWith itself unblocked known declared goesOn
  unfold Resolver.callOn
  rw [bind_of_ok typed, bind_of_ok isFound, MethodMember.invoke_of_call calls,
    MethodMember.invoke_of_call callsFound, callChecked_of_accepted accepted,
    callChecked_of_accepted accepted]

/-! ## The open type -/

/-- What becomes of a method of the open type without a value: the function that all objects
share under the name is taken, or the lookup is put off. -/
theorem method_openType {resolver : Resolver} {name : String} {arguments : List Value}
    {member : MethodMember} {later : Graph} (itself : resolver.actualName name = name)
    (found : resolver.method openType name arguments .onInstance none graph = .ok member later) :
    blockedNames.contains name = false ∧ member.name = name ∧ ∃ content middle,
      readMethod openType name .onInstance none graph = .ok content middle ∧
        ((middle.isCallable content = false ∧ member.action = .lookUp resolver) ∨
          (middle.isCallable content = true ∧
            member.action = .call content (graph.schemas openType name))) := by
  unfold Resolver.method at found
  rw [itself] at found
  obtain ⟨unblocked, content, middle, isRead, ends⟩ := findMethod_cases found
  refine ⟨unblocked, (findMethod_meets resolver openType name arguments .onInstance none graph
    member later found).name, content, middle, isRead, ?_⟩
  unfold Graph.schemas
  cases ends with
  | declared declaration entered callable => exact Or.inr ⟨callable, by rw [entered]; rfl⟩
  | undeclared absent callable => exact Or.inr ⟨callable, by rw [absent]; rfl⟩
  | late notCallable => exact Or.inl ⟨notCallable, rfl⟩

/-- A method of the open type whose name is read as no function by all objects defers to the value:
on every value but `undefined`, with all arguments and in every graph, it ends as if it were looked
up on the class of the value and on the value.  One whose name is read as a function is bound to
this function and to the schemas that the open type declares for it, whatever it is applied to.  So
it ends as if it were looked up on a value that goes on with both. -/
theorem open_method_defers {resolver : Resolver} {name : String} {arguments : List Value}
    {start later : Graph} {member : MethodMember} (itself : resolver.actualName name = name)
    (found : resolver.method openType name arguments .onInstance none start = .ok member later) :
    ∃ content middle, readMethod openType name .onInstance none start = .ok content middle ∧
      (middle.isCallable content = false → ∀ target, target ≠ .undefined → ∀ given graph,
        member.invoke target given graph = resolver.callOn target name given graph) ∧
      (middle.isCallable content = true → ∀ target given,
        member.invoke target given =
          member.callChecked content (start.schemas openType name) target given ∧
        (target ≠ .undefined → ∀ graph : Graph,
          graph.GoesOnWith target name content (start.schemas openType name) given →
            member.invoke target given graph = resolver.callOn target name given graph)) := by
  obtain ⟨unblocked, named, content, middle, isRead, ends⟩ := method_openType itself found
  refine ⟨content, middle, isRead, fun notCallable target known given graph => ?_,
    fun callable target given => ?_⟩
  · obtain ⟨_, isLate⟩ | ⟨callable, _⟩ := ends
    · rw [invoke_lookUp isLate known, named]
    · rw [notCallable] at callable
      cases callable
  · obtain ⟨notCallable, _⟩ | ⟨_, calls⟩ := ends
    · rw [notCallable] at callable
      cases callable
    · exact ⟨MethodMember.invoke_of_call calls target given, fun known graph goesOn =>
        invoke_of_goesOnWith calls itself unblocked known goesOn⟩

/-- The standard graph with an array of two numbers. -/
@[irreducible]
def pairGraph : Graph :=
  stateAfter (Run.newArray [some (.ofNat 7), some (.ofNat 8)]) Graph.standard

/-- The array of two numbers. -/
def pair : Value :=
  .object (pairGraph.objects.size - 1)

/-- What all objects share under a name, and whether it is a function. -/
def askedOpenly (name : String) : Run (Value × Bool) := do
  let content ← readMethod openType name .onInstance none
  pure (content, (← get).isCallable content)

theorem of_askedOpenly {name : String} {content answer : Value} {callable : Bool} {middle : Graph}
    (asked : (askedOpenly name).run' graph = some (answer, callable))
    (isRead : readMethod openType name .onInstance none graph = .ok content middle) :
    content = answer ∧ middle.isCallable content = callable := by
  have ended := ok_of_run' asked
  unfold askedOpenly at ended
  rw [bind_of_ok isRead] at ended
  exact Prod.mk.inj (EStateM.Result.ok.inj ended).1

theorem pair_goesOnWith :
    pairGraph.GoesOnWith pair "hasOwnProperty" (.object BuiltinFunction.hasOwnProperty.place)
      (pairGraph.schemas openType "hasOwnProperty") [.string "1"] where
  owner := by
    refine ⟨.object BuiltinClass.array.place, ?_, ?_⟩
    · have isArray : pairGraph.isArray pair = true := by decide +kernel
      unfold Run.typeOf
      rw [bind_get, if_pos isArray]
      rfl
    · have noneOfArray : (pairGraph.schemas (.object BuiltinClass.array.place)
          "hasOwnProperty").isEmpty = true := by decide +kernel
      have noneOfAll : (pairGraph.schemas openType "hasOwnProperty").isEmpty = true := by
        decide +kernel
      rw [List.isEmpty_iff.1 noneOfArray, List.isEmpty_iff.1 noneOfAll]
  reads := by
    have looked : pairGraph.look? pair (.ofText "hasOwnProperty") =
        some (.object BuiltinFunction.hasOwnProperty.place) := by decide +kernel
    exact Run.readAsObject_of_look? looked
  callable := by decide +kernel
  accepts := by
    have noneOfAll : (pairGraph.schemas openType "hasOwnProperty").isEmpty = true := by
      decide +kernel
    exact ⟨[.string "1"], by rw [List.isEmpty_iff.1 noneOfAll]; rfl⟩

/-- Arrays have a `join` that not all objects have, so it is looked up on the array; but they go on
with the `hasOwnProperty` of all objects. -/
theorem pair_is_joined_and_searched :
    ∃ late later early laterEarly,
      Resolver.standard.method openType "join" [] .onInstance none pairGraph = .ok late later ∧
      (late.invoke pair [.string "-"]).run' pairGraph = some (.string "7-8") ∧
      Resolver.standard.method openType "hasOwnProperty" [] .onInstance none pairGraph =
        .ok early laterEarly ∧
      (early.invoke pair [.string "1"]).run' pairGraph = some (.boolean true) := by
  have isThere : pair ≠ .undefined := by decide +kernel
  have finds : ∀ name ∈ ["join", "hasOwnProperty"],
      ((Resolver.standard.method openType name [] .onInstance none).run' pairGraph).isSome =
        true := by decide +kernel
  obtain ⟨late, isLate⟩ := Option.isSome_iff_exists.1 (finds "join" (by simp))
  obtain ⟨early, isEarly⟩ := Option.isSome_iff_exists.1 (finds "hasOwnProperty" (by simp))
  refine ⟨late, _, early, _, ok_of_run' isLate, ?_, ok_of_run' isEarly, ?_⟩
  · have asked : (askedOpenly "join").run' pairGraph = some (.undefined, false) := by
      decide +kernel
    have joined : (Resolver.standard.callOn pair "join" [.string "-"]).run' pairGraph =
        some (.string "7-8") := by decide +kernel
    obtain ⟨content, middle, isRead, defers, _⟩ := open_method_defers rfl (ok_of_run' isLate)
    have same := defers (of_askedOpenly asked isRead).2 pair isThere [.string "-"] pairGraph
    exact run'_of_ok (same.trans (ok_of_run' joined))
  · have asked : (askedOpenly "hasOwnProperty").run' pairGraph =
        some (.object BuiltinFunction.hasOwnProperty.place, true) := by decide +kernel
    have searched : (Resolver.standard.callOn pair "hasOwnProperty" [.string "1"]).run' pairGraph =
        some (.boolean true) := by decide +kernel
    obtain ⟨content, middle, isRead, _, goesOn⟩ := open_method_defers rfl (ok_of_run' isEarly)
    obtain ⟨rfl, callable⟩ := of_askedOpenly asked isRead
    have same := (goesOn callable pair [.string "1"]).2 isThere pairGraph pair_goesOnWith
    exact run'_of_ok (same.trans (ok_of_run' searched))

/-- The text that all objects have is taken for an array, which has another one. -/
theorem open_method_misses_text_of_array :
    (do
      let member ← Resolver.standard.method openType "toString" [] .onInstance none
      member.invoke pair []).run' pairGraph = some (.string "[object Array]") ∧
    (Resolver.standard.callOn pair "toString" []).run' pairGraph = some (.string "7,8") := by
  constructor <;> decide +kernel

end ObjectPath
