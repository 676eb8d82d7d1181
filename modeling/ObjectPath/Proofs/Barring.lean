import ObjectPath.Proofs.Abandonment
import ObjectPath.Proofs.StaticStarts
import ObjectPath.Proofs.Stillness

/-!
# Names that never are members

The names that every object has by its nature are members of nothing.  No lookup gives a member
of such a name, so a node that starts from one can be neither read nor written, and a path with
such a node leads nowhere behind it.  A listing leaves these names out as well, unless a field of
such a name is declared.
-/

namespace ObjectPath

/-! ## Values that are never given -/

namespace Gives

variable {σ α β : Type}

/-- What comes after a computation that gives no value does not matter. -/
theorem bind_never {work : EStateM Fault σ α} {next : α → EStateM Fault σ β} {holds : β → Prop}
    (never : Gives work fun _ => False) : Gives (work >>= next) holds := by
  intro state value later ended
  obtain ⟨first, middle, given, _⟩ := ok_of_bind ended
  exact (never state first middle given).elim

theorem onGraph {run : Run α} {holds : α → Prop} (gives : Gives run holds) :
    Gives (Session.onGraph run) holds := by
  intro world value later ended
  obtain ⟨graph, ran, _⟩ := Session.ok_of_onGraph ended
  exact gives world.graph value graph ran

end Gives

/-! ## Lookups -/

/-- A resolver puts nothing but builtin names in the place of a builtin name. -/
def Resolver.Bars (resolver : Resolver) : Prop :=
  ∀ name ∈ blockedNames, resolver.actualName name ∈ blockedNames

theorem Resolver.bars_standard : Resolver.standard.Bars :=
  fun _ => id

variable {resolver : Resolver}

theorem findField_unblocked (owner : Value) (name : String) (scope : Scope)
    (value? : Option Value) :
    Gives (findField owner name scope value?) fun field =>
      field.name = name ∧ name ∉ blockedNames := by
  intro graph field later ended
  obtain ⟨unblocked, _⟩ := findField_cases ended
  exact ⟨(findField_meets owner name scope value? graph field later ended).name,
    by simpa using unblocked⟩

theorem findMethod_unblocked (owner : Value) (name : String) (arguments : List Value)
    (scope : Scope) (value? : Option Value) :
    Gives (findMethod resolver owner name arguments scope value?) fun method =>
      method.name = name ∧ name ∉ blockedNames := by
  intro graph method later ended
  obtain ⟨unblocked, _⟩ := findMethod_cases ended
  exact ⟨(findMethod_meets resolver owner name arguments scope value? graph method later
    ended).name, by simpa using unblocked⟩

/-! ## Listings -/

/-- A member of a builtin name can be listed only as one of the declared fields. -/
def Member.IsAllowed (fields : List (String × FieldDeclaration)) (member : Member) : Prop :=
  member.name ∈ blockedNames → ∃ entry ∈ fields, entry.2.name = member.name

theorem memberOf_name (graph : Graph) (methods : List (String × MethodDeclaration))
    (owner : Value) (scope : Scope) (name : String) (property : Property) :
    (memberOf graph methods owner scope name property).name = name := by
  unfold memberOf
  repeat' split
  all_goals rfl

/-- What a holder adds to a listing has no builtin name. -/
theorem addListed_allowed {graph : Graph} {methods : List (String × MethodDeclaration)}
    {owner : Value} {scope : Scope} {fields : List (String × FieldDeclaration)}
    {members : List (String × Member)} (allowed : ∀ entry ∈ members, entry.2.IsAllowed fields)
    (holder : Value) :
    ∀ entry ∈ addListed graph methods owner scope members holder, entry.2.IsAllowed fields := by
  unfold addListed
  refine List.foldlRecOn
    (motive := fun members : List (String × Member) =>
      ∀ entry ∈ members, entry.2.IsAllowed fields)
    (graph.ownKeys holder) _ allowed fun listed holds key _ => ?_
  split
  · exact holds
  · rename_i isNew
    simp only [unlisted, Bool.or_eq_true, not_or] at isNew
    split
    · intro entry member
      rcases List.mem_append.1 member with earlier | isAdded
      · exact holds entry earlier
      · obtain rfl := List.mem_singleton.1 isAdded
        intro blocked
        rw [memberOf_name] at blocked
        exact absurd (List.contains_iff_mem.2 blocked) isNew.2.1
    · exact holds

theorem listMembers_allowed {owner : Value} {scope : Scope} {graph later : Graph}
    {members : List Member} (listed : listMembers owner scope graph = .ok members later) :
    ∀ member ∈ members, member.IsAllowed (later.fields owner scope) := by
  obtain ⟨holder, middle, _, rest⟩ := ok_of_bind listed
  cases rest
  intro member isListed
  obtain ⟨entry, inListing, rfl⟩ := List.mem_map.1 (List.mem_mergeSort.1 isListed)
  refine List.foldlRecOn
    (motive := fun members : List (String × Member) =>
      ∀ entry ∈ members, entry.2.IsAllowed (later.fields owner scope))
    (holdersFrom later holder scope) _ ?_
    (fun found holds holder _ => addListed_allowed holds holder) entry inListing
  intro entry isDeclared _
  obtain ⟨declared, inFields, rfl⟩ := List.mem_map.1 isDeclared
  exact ⟨declared, inFields, rfl⟩

/-! ## Nodes -/

namespace Node

/-- Whether a node starts from a builtin name, below all its indices. -/
def NamesBuiltin (node : Node) : Prop :=
  ∃ name ∈ blockedNames, node.form.base.name? = some name

theorem fieldAt_never (bars : resolver.Bars) {name : String} (blocked : name ∈ blockedNames)
    (position : Position) : Gives (fieldAt resolver name position) fun _ => False :=
  Gives.bind fun owner graph field later ended =>
    (findField_unblocked owner _ _ _ graph field later ended).2 (bars name blocked)

theorem methodAt_never (bars : resolver.Bars) {name : String} (blocked : name ∈ blockedNames)
    (arguments : List Value) (position : Position) :
    Gives (methodAt resolver name arguments position) fun _ => False :=
  Gives.bind fun owner graph method later ended =>
    (findMethod_unblocked owner _ arguments _ _ graph method later ended).2 (bars name blocked)

/-- No builtin name is that of a method which reads, so none has a method that writes. -/
theorem setterOf_blocked {name : String} (blocked : name ∈ blockedNames) :
    setterOf name = none := by
  simp only [blockedNames, List.mem_cons, List.not_mem_nil, or_false] at blocked
  rcases blocked with rfl | rfl | rfl <;> rfl

theorem read_never (bars : resolver.Bars) (arguments : Option ArgumentMap) (position : Position)
    {node : Node} (barred : node.NamesBuiltin) :
    Gives (node.read resolver arguments position) fun _ => False := by
  obtain ⟨name, blocked, named⟩ := barred
  fun_induction Node.form node with
  | case1 serial own =>
      cases named
      exact Gives.bind_never (fieldAt_never bars blocked position)
  | case2 serial text own keys =>
      cases named
      exact Gives.bind fun values => Gives.bind_never (methodAt_never bars blocked values position)
  | case3 => cases named
  | case4 serial text index inner inductionHypothesis =>
      exact Gives.bind_never (inductionHypothesis named)

theorem write_never (bars : resolver.Bars) (arguments : Option ArgumentMap)
    (factory : Option Factory) (position : Position) (value : Value) {node : Node}
    (barred : node.NamesBuiltin) :
    Gives (node.write resolver arguments factory position value) fun _ => False := by
  cases node with
  | field serial own =>
      obtain ⟨name, blocked, named⟩ := barred
      cases named
      exact Gives.bind_never (fieldAt_never bars blocked position)
  | method serial text own keys =>
      obtain ⟨name, blocked, named⟩ := barred
      cases named
      unfold write
      rw [setterOf_blocked blocked]
      exact Gives.throw
  | array serial text index inner? =>
      cases inner? with
      | none =>
          obtain ⟨_, _, named⟩ := barred
          cases named
      | some inner =>
          unfold write
          exact Gives.bind_never (read_never bars arguments position barred)

end Node

/-! ## The log -/

namespace World

/-- Nothing is taken out of the log. -/
theorem Change.log_grows {world later : World} (change : Change world later) :
    world.events <+: later.events := by
  cases change with
  | prepare preparation =>
      cases preparation with
      | graph => exact List.prefix_rfl
      | intern => exact List.prefix_rfl
  | enter => exact List.prefix_append _ _
  | remark => exact List.prefix_append _ _
  | unsubscribe => exact List.prefix_rfl
  | register => exact List.prefix_rfl

theorem Changes.log_grows {world later : World} (changes : Changes world later) :
    world.events <+: later.events :=
  changes.keeps (fun later => world.events <+: later.events)
    (fun _ _ change kept => kept.trans change.log_grows) List.prefix_rfl

end World

/-! ## Paths -/

namespace Session

open World

variable {path : Path} {index : Nat} {node : Node}

/-- An event is the first that an evaluation adds to the log. -/
theorem emit_logs (place : Nat) (kind : EventKind) (expression : String) (event : Event)
    (world : World) :
    Ensures (emit place kind expression event) world
      (fun _ later => world.events ++ [event] <+: later.events) fun _ _ => True := by
  have recompiles : ∀ other nested, Making (do let _ ← compile other nested; pure ()) :=
    fun other nested _ _ made => Ensures.bind (making_compile other nested _ _ made)
      fun _ _ ended => ended
  have handled := making_runHandlers recompiles place kind expression
    (((world.log event).compiler place).handlers kind) _ _ (.refl (world.log event))
  exact handled.mono (fun _ _ makes => makes.changes.log_grows) fun _ _ _ => trivial

theorem abandon_logs {type : Value} {world later : World}
    (ended : abandon path index type world = .ok () later) :
    ∃ typeName, world.events ++ [path.abandonment index typeName] <+: later.events := by
  obtain ⟨typeName, named, isNamed, reported⟩ := ok_of_bind ended
  obtain ⟨_, middle, emitted, rest⟩ := ok_of_bind reported
  have sameEvents : named.events = world.events :=
    ((onGraph_prepares _ .refl).ok isNamed).idle.events
  have logged := (emit_logs _ _ _ _ named).ok emitted
  rw [bind_get] at rest
  split at rest
  · obtain ⟨_, _, _, shown⟩ := ok_of_bind rest
    obtain ⟨_, _, _, thrown⟩ := ok_of_bind shown
    cases thrown
  · cases rest
    exact ⟨typeName, sameEvents ▸ logged⟩

/-- A walk does not get past a node that starts from a builtin name: it stops before that node,
and arrives only if the node is none of its own. -/
theorem walk_stops (bars : resolver.Bars) (options : EvaluateOptions) {nodes : List Node}
    (within : index ≤ nodes.length)
    (barred : ∀ node, nodes[index]? = some node → node.NamesBuiltin) (number : Nat)
    (position : Position) :
    Gives (walk path resolver options number position nodes) fun
      | .arrived _ => index = nodes.length
      | .stopped stop _ => stop < number + index := by
  induction nodes generalizing index number position with
  | nil => exact Gives.pure (Nat.le_zero.1 within)
  | cons first rest inductionHypothesis =>
      unfold walk
      cases index with
      | zero => exact Gives.bind_never (Gives.onGraph (Node.read_never bars _ position (barred _ rfl)))
      | succ index =>
          have stopped : number < number + (index + 1) := Nat.lt_add_of_pos_right (Nat.succ_pos _)
          have onward : ∀ next, Gives (walk path resolver options (number + 1) next rest) fun
              | .arrived _ => index + 1 = (first :: rest).length
              | .stopped stop _ => stop < number + (index + 1) := by
            intro next world found later ended
            have ends := inductionHypothesis (Nat.le_of_succ_le_succ within) barred (number + 1) next
              world found later ended
            cases found with
            | arrived => exact congrArg (· + 1) ends
            | stopped => exact (Nat.add_right_comm number 1 index) ▸ ends
          refine Gives.bind fun value => ?_
          split
          · split
            · exact Gives.pure stopped
            · refine Gives.bind fun type => Gives.bind fun made => ?_
              split
              · exact Gives.pure stopped
              · refine Gives.bind fun written => ?_
                split
                · exact Gives.bind fun _ => onward _
                · exact Gives.pure stopped
          · exact onward _

/-- A walk to the last node stops before a node that starts from a builtin name, unless that is
the last node itself. -/
theorem walkPath_stops {start : Position} {options : EvaluateOptions} {world middle : World}
    {arrival : Walk} (bars : (path.resolverIn world).Bars)
    (atIndex : path.nodes[index]? = some node) (barred : node.NamesBuiltin)
    (walked : walkPath path start options world = .ok arrival middle) :
    match arrival with
    | .arrived _ => path.lastNode.NamesBuiltin ∧ (path.resolverIn middle).Bars
    | .stopped stop _ => stop ≤ index := by
  have sameResolver : path.resolverIn middle = path.resolverIn world :=
    ((changing_walkPath path start options _ _ .refl).ok walked).furnishes.resolver path.compiler
  have inside : index < path.nodes.length := (List.getElem?_eq_some_iff.1 atIndex).1
  have early : ∀ other, path.nodes.dropLast[index]? = some other → other.NamesBuiltin := by
    intro other found
    rw [List.getElem?_dropLast] at found
    split at found
    · exact Option.some.inj (atIndex.symm.trans found) ▸ barred
    · cases found
  have ends := walk_stops bars options (by rw [List.length_dropLast]; omega) early 0 start world
    arrival middle walked
  cases arrival with
  | stopped stop type => exact Nat.le_of_lt (Nat.zero_add index ▸ ends)
  | arrived position =>
      refine ⟨?_, sameResolver ▸ bars⟩
      have isLast : path.nodes[path.nodes.length - 1]? = some node := by
        rw [← List.length_dropLast, ← ends]
        exact atIndex
      rw [← List.getLast?_eq_getElem?, List.getLast?_eq_some_getLast path.nodes_ne_nil] at isLast
      rwa [Path.lastNode, Option.some.inj isLast]

/-- A read that passes a node with a builtin name gives nothing. -/
theorem evaluate_barred {start : Position} {options : EvaluateOptions} {world later : World}
    {value : Value} (bars : (path.resolverIn world).Bars)
    (atIndex : path.nodes[index]? = some node) (barred : node.NamesBuiltin)
    (ended : evaluate path start options world = .ok value later) : value = .null := by
  obtain ⟨arrival, middle, walked, rest⟩ := ok_of_bind ended
  cases arrival with
  | stopped stop type =>
      cases rest
      rfl
  | arrived position =>
      obtain ⟨isLast, barsLater⟩ := walkPath_stops bars atIndex barred walked
      obtain ⟨_, _, ⟨⟩, rest⟩ := ok_of_bind rest
      obtain ⟨found, _, isRead, _⟩ := ok_of_bind rest
      exact (Gives.onGraph (Node.read_never barsLater _ position isLast) _ _ _ isRead).elim

/-- The log says that a write of a path was given up at one of the nodes up to an index. -/
def GivenUpBy (path : Path) (index : Nat) (before after : World) : Prop :=
  ∃ added, after.events = before.events ++ added ∧
    ∃ stop typeName, stop ≤ index ∧ path.abandonment stop typeName ∈ added

theorem givenUpBy_of_abandon {stop : Nat} {type : Value} {before middle after : World}
    (within : stop ≤ index) (kept : before.events <+: middle.events)
    (ended : abandon path stop type middle = .ok () after) :
    GivenUpBy path index before after := by
  obtain ⟨typeName, logged⟩ := abandon_logs ended
  obtain ⟨early, sameMiddle⟩ := kept
  obtain ⟨late, sameAfter⟩ := logged
  refine ⟨early ++ [path.abandonment stop typeName] ++ late, ?_, stop, typeName, within, by simp⟩
  rw [← sameAfter, ← sameMiddle]
  simp only [List.append_assoc]

/-- A write that passes a node with a builtin name is given up. -/
theorem assign_barred {start : Position} {value : Value} {options : EvaluateOptions}
    {world later : World} (bars : (path.resolverIn world).Bars)
    (atIndex : path.nodes[index]? = some node) (barred : node.NamesBuiltin)
    (ended : assign path start value options world = .ok () later) :
    GivenUpBy path index world later := by
  unfold assign at ended
  rw [bind_get] at ended
  obtain ⟨arrival, middle, walked, rest⟩ := ok_of_bind ended
  have stops := walkPath_stops bars atIndex barred walked
  cases arrival with
  | stopped stop type =>
      exact givenUpBy_of_abandon stops
        ((changing_walkPath path start _ _ _ .refl).ok walked).log_grows rest
  | arrived position =>
      obtain ⟨isLast, barsLater⟩ := stops
      obtain ⟨_, _, ⟨⟩, rest⟩ := ok_of_bind rest
      obtain ⟨written, _, isWritten, _⟩ := ok_of_bind rest
      exact (Gives.onGraph (Node.write_never barsLater _ _ position value isLast) _ _ _
        isWritten).elim

/-- Where a static path starts is found without a change of the world. -/
theorem world_of_staticRoot {given : Option Value} {world later : World} {start : Position}
    (ended : staticRoot path given world = .ok start later) : later = world := by
  unfold staticRoot at ended
  generalize path.rootType = bound? at ended
  cases bound? with
  | none =>
      cases given with
      | none => cases ended
      | some owner =>
          cases ended
          rfl
  | some bound =>
      cases given with
      | none =>
          cases ended
          rfl
      | some other =>
          dsimp only at ended
          split at ended
          · cases ended
            rfl
          · obtain ⟨_, _, _, shown⟩ := ok_of_bind ended
            obtain ⟨_, _, _, thrown⟩ := ok_of_bind shown
            cases thrown

end Session

/-! ## The names that every object has -/

section Builtins

open Session

/-- The builtin names are members of nothing.  Whatever a class declares, no field and no method
of such a name is looked up, and none is listed unless a field of this name is declared.  A node
that starts from such a name is never read and never written; a read of a path with such a node
gives nothing if it returns, and a write is given up at that node or before it. -/
theorem builtins_are_never_members (bars : resolver.Bars) :
    (∀ owner name scope value?, Gives (resolver.field owner name scope value?) fun field =>
      name ∉ blockedNames ∧ field.name ∉ blockedNames) ∧
    (∀ owner name arguments scope value?,
      Gives (resolver.method owner name arguments scope value?) fun method =>
        name ∉ blockedNames ∧ method.name ∉ blockedNames) ∧
    (∀ owner scope graph members later, listMembers owner scope graph = .ok members later →
      (∀ entry ∈ later.fields owner scope, entry.2.name ∉ blockedNames) →
        ∀ member ∈ members, member.name ∉ blockedNames) ∧
    (∀ node : Node, node.NamesBuiltin →
      (∀ arguments position, Gives (node.read resolver arguments position) fun _ => False) ∧
      ∀ arguments factory position value,
        Gives (node.write resolver arguments factory position value) fun _ => False) ∧
    ∀ (path : Path) (index : Nat) (node : Node) (world : World),
      path.nodes[index]? = some node → node.NamesBuiltin → path.resolverIn world = resolver →
        (∀ root options value later,
          getValue path root options world = .ok value later → value = .null) ∧
        (∀ given options value later,
          getStaticValue path given options world = .ok value later → value = .null) ∧
        (∀ root value options later, setValue path root value options world = .ok () later →
          GivenUpBy path index world later) ∧
        ∀ given value options later, setStaticValue path given value options world = .ok () later →
          GivenUpBy path index world later := by
  refine ⟨?_, ?_, ?_, ?_, ?_⟩
  · intro owner name scope value? graph field later ended
    obtain ⟨same, unblocked⟩ := findField_unblocked owner _ scope value? graph field later ended
    exact ⟨fun blocked => unblocked (bars name blocked), same ▸ unblocked⟩
  · intro owner name arguments scope value? graph method later ended
    obtain ⟨same, unblocked⟩ :=
      findMethod_unblocked owner _ arguments scope value? graph method later ended
    exact ⟨fun blocked => unblocked (bars name blocked), same ▸ unblocked⟩
  · intro owner scope graph members later listed undeclared member isListed blocked
    obtain ⟨entry, declared, same⟩ := listMembers_allowed listed member isListed blocked
    exact undeclared entry declared (same ▸ blocked)
  · exact fun node barred => ⟨fun arguments position => node.read_never bars arguments position barred,
      fun arguments factory position value =>
        node.write_never bars arguments factory position value barred⟩
  · rintro path index node world atIndex barred rfl
    refine ⟨?_, ?_, ?_, ?_⟩
    · intro root options value later ended
      unfold getValue at ended
      split at ended
      · cases ended
        rfl
      · split at ended
        · cases ended
        · exact evaluate_barred bars atIndex barred ended
    · intro given options value later ended
      obtain ⟨start, middle, started, rest⟩ := ok_of_bind ended
      cases world_of_staticRoot started
      exact evaluate_barred bars atIndex barred rest
    · intro root value options later ended
      unfold setValue at ended
      split at ended
      · cases ended
      · split at ended
        · exact givenUpBy_of_abandon (Nat.zero_le index) List.prefix_rfl ended
        · exact assign_barred bars atIndex barred ended
    · intro given value options later ended
      obtain ⟨start, middle, started, rest⟩ := ok_of_bind ended
      cases world_of_staticRoot started
      exact assign_barred bars atIndex barred rest

/-- The standard graph with a class of vaults, which declares a method by the name `constructor`,
and a class that declares a field by the name `__proto__`; the last object is a vault. -/
@[irreducible]
def vaultGraph : Graph :=
  stateAfter (do
    let text := Value.object BuiltinClass.string.place
    let vault ← Run.newClass "Vault" none ⟨none, none, [⟨"label", none, .null⟩]⟩
    let shared ← Run.read vault "prototype"
    Run.declareField shared "label" text
    Run.declareMethod shared "constructor" text []
    let haunted ← Run.newClass "Haunted" none ⟨none, none, []⟩
    Run.declareField (← Run.read haunted "prototype") "__proto__" text
    Run.allocate ⟨shared.place?, .plain, Run.dataSlots [(.name "label", .null)], true⟩)
    Graph.standard

/-- The class of vaults. -/
def vaultClass : Value :=
  .object Graph.standard.objects.size

/-- The class that declares a field by a builtin name. -/
def hauntedClass : Value :=
  .object (Graph.standard.objects.size + 2)

/-- The only vault. -/
def vault : Value :=
  .object (vaultGraph.objects.size - 1)

/-- A path to the builtin name behind the label of a vault. -/
def labelPath : Path where
  compiler := World.standardPlace
  serial := 0
  source := "label.constructor()[0]"
  nodes := [.field 0 "label",
    .array 1 "constructor()[0]" 0 (some (.method 2 "constructor()" "constructor" []))]
  nodes_ne_nil := List.cons_ne_nil _ _
  rootType := none

/-- A vault lists no member of a builtin name, and neither a read nor a write goes through one. -/
theorem vault_has_no_builtin_member :
    ∃ members later, listMembers vaultClass .onInstance vaultGraph = .ok members later ∧
      (∀ entry ∈ later.fields vaultClass .onInstance, entry.2.name ∉ blockedNames) ∧
      (∀ member ∈ members, member.name ∉ blockedNames) ∧
      ∃ node value read written, labelPath.nodes[1]? = some node ∧ node.NamesBuiltin ∧
        getValue labelPath vault ⟨none, none⟩ (World.initial vaultGraph) = .ok value read ∧
        value = .null ∧
        setValue labelPath vault (.ofNat 5) ⟨none, some fun _ _ => pure .null⟩
          (World.initial vaultGraph) = .ok () written ∧
        GivenUpBy labelPath 1 (World.initial vaultGraph) written := by
  obtain ⟨_, _, lists, _, paths⟩ := builtins_are_never_members Resolver.bars_standard
  have returns : ((listMembers vaultClass .onInstance).run' vaultGraph).isSome = true := by
    decide +kernel
  obtain ⟨members, given⟩ := Option.isSome_iff_exists.1 returns
  have undeclared : ∀ entry ∈ (stateAfter (listMembers vaultClass .onInstance) vaultGraph).fields
      vaultClass .onInstance, entry.2.name ∉ blockedNames := by decide +kernel
  have barred : Node.NamesBuiltin (.array 1 "constructor()[0]" 0
      (some (.method 2 "constructor()" "constructor" []))) := ⟨"constructor", by decide, rfl⟩
  have isRead : getValue labelPath vault ⟨none, none⟩ (World.initial vaultGraph) = .ok .null _ :=
    ok_of_run' (by decide +kernel)
  have isWritten : setValue labelPath vault (.ofNat 5) ⟨none, some fun _ _ => pure .null⟩
      (World.initial vaultGraph) = .ok () _ := ok_of_run' (by decide +kernel)
  obtain ⟨reads, _, writes, _⟩ := paths labelPath 1 _ (World.initial vaultGraph) rfl barred rfl
  exact ⟨members, _, ok_of_run' given, undeclared, lists _ _ _ _ _ (ok_of_run' given) undeclared,
    _, _, _, _, rfl, barred, isRead, reads _ _ _ _ isRead, isWritten, writes _ _ _ _ isWritten⟩

/-- A declared field of a builtin name is listed. -/
theorem declared_builtin_is_listed :
    ((Member.name <$> ·) <$> listMembers hauntedClass .onInstance).run' vaultGraph =
        some ["__proto__"] ∧
      "__proto__" ∈ blockedNames :=
  ⟨by decide +kernel, by decide⟩

end Builtins

end ObjectPath
