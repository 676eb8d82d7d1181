import ObjectPath.Proofs.Cutting
import ObjectPath.Proofs.Harvest
import ObjectPath.Proofs.JoinedWrites
import ObjectPath.Proofs.StaticStarts

/-!
# Walks along a joined path

A walk along declared types carries nothing from node to node but a type.  So the walk along a
joined path is the walk along the first path and then, from the elements of the last type, the
walk along the second one, whatever is found, missed or run on the way.  The nodes of the joined
path are looked up by the resolver of the first path, so the second one has to have a resolver
that stands the same names for each other.
-/

namespace ObjectPath

/-! ## Descriptions of members -/

/-- What a member is described by: all of it but how it is carried out. -/
structure Member.Description where
  kind : MemberKind
  name : String
  owner : Value
  type : Value
  scope : Scope
  declared : Bool
  deriving DecidableEq

/-- The description of a member. -/
def Member.description : Member → Description
  | .field member => ⟨.field, member.name, member.owner, member.type, member.scope, member.declared⟩
  | .method member =>
      ⟨.method, member.name, member.owner, member.returnType, member.scope, member.declared⟩

theorem Member.type_eq (member : Member) : member.type = member.description.type := by
  cases member <;> rfl

/-- What a lookup describes, and what it fails with and leaves behind. -/
def described {σ : Type} (lookup : EStateM Fault σ (Option Member)) :
    EStateM Fault σ (Option Member.Description) :=
  Option.map Member.description <$> lookup

section Described

variable {σ β : Type} {lookup other : EStateM Fault σ (Option Member)}

/-- What comes after lookups that describe the same is the same if it depends on nothing else. -/
theorem bind_congr_described (same : described lookup = described other)
    {next onward : Option Member → EStateM Fault σ β}
    (rest : ∀ found member, found.map Member.description = member.map Member.description →
      next found = onward member) : lookup >>= next = other >>= onward := by
  funext state
  have agree := congrFun same state
  rw [described, described, map_eq_pure_bind, map_eq_pure_bind] at agree
  cases ended : lookup state with
  | ok found later =>
      rw [bind_of_ok ended] at agree ⊢
      cases endedOther : other state with
      | ok member last =>
          rw [bind_of_ok endedOther] at agree ⊢
          obtain ⟨sameMember, rfl⟩ := EStateM.Result.ok.inj agree
          rw [rest found member sameMember]
      | error fault last =>
          rw [bind_of_error endedOther] at agree
          cases agree
  | error fault later =>
      rw [bind_of_error ended] at agree ⊢
      cases endedOther : other state with
      | ok member last =>
          rw [bind_of_ok endedOther] at agree
          cases agree
      | error otherFault last =>
          rw [bind_of_error endedOther] at agree ⊢
          obtain ⟨rfl, rfl⟩ := EStateM.Result.error.inj agree
          rfl

theorem described_congr {state start : σ} (same : lookup state = other start) :
    described lookup state = described other start := by
  rw [described, described, map_eq_pure_bind, map_eq_pure_bind]
  exact bind_congr_ok same fun _ _ _ => rfl

theorem described_onGraph (run : Run (Option Member)) :
    described (Session.onGraph run) = Session.onGraph (described run) := by
  rw [described, described, map_eq_pure_bind, map_eq_pure_bind, Session.onGraph_bind]
  rfl

theorem described_bind {γ : Type} (work : EStateM Fault σ γ)
    (next : γ → EStateM Fault σ (Option Member)) :
    described (work >>= next) = work >>= fun value => described (next value) :=
  map_bind ..

end Described

/-! ## Resolvers that look names up alike -/

/-- Two resolvers put the same name in the place of each name. -/
def Resolver.Alike (resolver other : Resolver) : Prop :=
  ∀ name, resolver.actualName name = other.actualName name

theorem Resolver.Alike.refl (resolver : Resolver) : resolver.Alike resolver :=
  fun _ => rfl

section Alike

variable {resolver other : Resolver}

/-- A resolver stays with a method only to look the method up again. -/
theorem findMethod_described (resolver other : Resolver) (owner : Value) (name : String)
    (arguments : List Value) (scope : Scope) :
    described (findMethod resolver owner name arguments scope none >>= fun method =>
        pure (some (.method method))) =
      described (findMethod other owner name arguments scope none >>= fun method =>
        pure (some (.method method))) := by
  unfold findMethod
  split
  · rfl
  · simp only [bind_assoc, described_bind]
    refine bind_congr fun before => bind_congr fun callee => bind_congr fun after => ?_
    split
    · rfl
    · split <;> rfl

theorem Node.member?_described (alike : resolver.Alike other) (arguments : Option ArgumentMap)
    (owner : Value) (scope : Scope) (node : Node) :
    described (node.member? resolver arguments owner scope) =
      described (node.member? other arguments owner scope) := by
  induction node using Node.argumentKeys.induct with
  | case1 serial name =>
      rw [Node.member?, Node.member?, Resolver.field, Resolver.field, alike name]
  | case2 serial text name keys =>
      rw [Node.member?, Node.member?, described_bind, described_bind]
      refine bind_congr fun values => ?_
      rw [Resolver.method, Resolver.method, alike name]
      exact findMethod_described resolver other owner _ values scope
  | case3 => rfl
  | case4 serial text index inner inductionHypothesis => exact inductionHypothesis

theorem memberAlong_head (resolver : Resolver) (arguments : Option ArgumentMap) (node : Node)
    (rest : List Node) (owner : Value) (scope : Scope) :
    memberAlong resolver arguments (node :: rest) 0 owner scope =
      node.member? resolver arguments owner scope := by
  rw [memberAlong]
  exact bind_pure _

/-- The type from which a walk goes on is part of the description. -/
theorem typeAfter_described {owner : Value} {found member : Option Member}
    (same : found.map Member.description = member.map Member.description) :
    typeAfter owner found = typeAfter owner member := by
  cases found with
  | none =>
      cases member with
      | none => rfl
      | some _ => cases same
  | some found =>
      cases member with
      | none => cases same
      | some member =>
          rw [typeAfter, typeAfter, found.type_eq, Option.some.inj same, ← member.type_eq]

theorem memberAlong_described (alike : resolver.Alike other) (arguments : Option ArgumentMap)
    (nodes : List Node) (index : Nat) (owner : Value) (scope : Scope) :
    described (memberAlong resolver arguments nodes index owner scope) =
      described (memberAlong other arguments nodes index owner scope) := by
  induction nodes generalizing index owner scope with
  | nil => rfl
  | cons node rest inductionHypothesis =>
      have same := Node.member?_described alike arguments owner scope node
      cases index with
      | zero =>
          rw [memberAlong_head, memberAlong_head, same]
      | succ index =>
          rw [memberAlong_succ, memberAlong_succ, described_bind, described_bind]
          refine bind_congr_described same fun found member sameMember => ?_
          have sameType : typeAfter owner found = typeAfter owner member :=
            typeAfter_described sameMember
          rw [sameType, described_bind, described_bind]
          exact bind_congr fun type => inductionHypothesis index type .onInstance

end Alike

/-! ## Walks along appended nodes -/

section Append

variable {resolver : Resolver} {arguments : Option ArgumentMap}

theorem Node.member?_bare (owner : Value) (scope : Scope) (node : Node) :
    node.bare.member? resolver arguments owner scope =
      node.member? resolver arguments owner scope := by
  fun_induction Node.bare node with
  | case1 => rfl
  | case2 => rfl
  | case3 => rfl
  | case4 serial text index inner inductionHypothesis =>
      rw [Node.member?, inductionHypothesis, Node.member?]

theorem memberAlong_map_bare (nodes : List Node) (index : Nat) (owner : Value) (scope : Scope) :
    memberAlong resolver arguments (nodes.map Node.bare) index owner scope =
      memberAlong resolver arguments nodes index owner scope := by
  induction nodes generalizing index owner scope with
  | nil => rfl
  | cons node rest inductionHypothesis =>
      rw [List.map_cons]
      cases index with
      | zero => rw [memberAlong_head, memberAlong_head, Node.member?_bare]
      | succ index =>
          rw [memberAlong_succ, memberAlong_succ, Node.member?_bare]
          exact bind_congr fun found => bind_congr fun type => inductionHypothesis ..

/-- A walk does not see the nodes after the one it goes to. -/
theorem memberAlong_append_left {nodes : List Node} {index : Nat} (inside : index < nodes.length)
    (others : List Node) (owner : Value) (scope : Scope) :
    memberAlong resolver arguments (nodes ++ others) index owner scope =
      memberAlong resolver arguments nodes index owner scope := by
  induction nodes generalizing index owner scope with
  | nil => cases inside
  | cons node rest inductionHypothesis =>
      rw [List.cons_append]
      cases index with
      | zero => rw [memberAlong_head, memberAlong_head]
      | succ index =>
          rw [memberAlong_succ, memberAlong_succ]
          exact bind_congr fun found => bind_congr fun type =>
            inductionHypothesis (Nat.lt_of_succ_lt_succ inside) type .onInstance

/-- A walk past nodes of which the last one names a member goes on from the elements of its type,
as a walk of its own that starts on instances. -/
theorem memberAlong_append_right {nodes : List Node} {owner : Value} {scope : Scope}
    {graph later : Graph} {member : Member}
    (named : memberAlong resolver arguments nodes (nodes.length - 1) owner scope graph =
      .ok (some member) later) (others : List Node) (index : Nat) :
    memberAlong resolver arguments (nodes ++ others) (nodes.length + index) owner scope graph =
      (Run.elementType member.type >>= fun type =>
        memberAlong resolver arguments others index type .onInstance) later := by
  induction nodes generalizing owner scope graph with
  | nil => cases named
  | cons node rest inductionHypothesis =>
      rw [List.cons_append, List.length_cons, Nat.add_right_comm, memberAlong_succ]
      cases rest with
      | nil =>
          rw [List.length_singleton, memberAlong_head] at named
          rw [bind_of_ok named, List.nil_append, List.length_nil, Nat.zero_add]
          rfl
      | cons next rest =>
          rw [List.length_cons, Nat.add_sub_cancel, List.length_cons, memberAlong_succ] at named
          obtain ⟨found, middle, given, steps⟩ := ok_of_bind named
          obtain ⟨type, between, stepped, onward⟩ := ok_of_bind steps
          rw [bind_of_ok given, bind_of_ok stepped]
          exact inductionHypothesis onward

end Append

theorem Path.last_lt_size (path : Path) : path.size - 1 < path.size :=
  Nat.sub_lt (List.length_pos_iff.2 path.nodes_ne_nil) Nat.one_pos

namespace Session

open World

/-- A type that is handed over as the owner of a walk; one that is undefined counts as none. -/
def ownerGiven : Value → Option Value
  | .undefined => none
  | type => some type

theorem ownerGiven_of_ne {type : Value} (present : type ≠ .undefined) :
    ownerGiven type = some type := by
  cases type <;> first | rfl | exact absurd rfl present

/-- Finding the class at which a walk starts leaves the world as it is, and finds the same class
for every path of the same root type. -/
theorem ownerOf_eq {path : Path} {given : Option Value} {owner : Value} {world later : World}
    (found : ownerOf path given world = .ok owner later) :
    later = world ∧ ∀ other : Path, other.rootType = path.rootType →
      ownerOf other given world = .ok owner world := by
  unfold ownerOf at found ⊢
  generalize path.rootType = root at found
  cases root with
  | none =>
      cases given with
      | none => cases found
      | some type =>
          cases found
          exact ⟨rfl, fun other same => by rw [same]; rfl⟩
  | some bound =>
      cases given with
      | none =>
          cases found
          exact ⟨rfl, fun other same => by rw [same]; rfl⟩
      | some type =>
          dsimp only at found
          split at found
          · rename_i isBound
            cases found
            exact ⟨rfl, fun other same => by rw [same]; dsimp only; rw [if_pos isBound]; rfl⟩
          · obtain ⟨_, _, _, failed⟩ := ok_of_bind found
            cases failed

/-- The walk to a node by its number starts at the class that is found for the path. -/
theorem memberOf_of_ownerOf {path : Path} {given : Option Value} {owner : Value} {world : World}
    (starts : ownerOf path given world = .ok owner world) {index : Nat} (inside : index < path.size)
    (arguments : Option ArgumentMap) :
    memberOf path (.ofNat index) given arguments world =
      onGraph (memberAlong (path.resolverIn world) arguments path.nodes index owner
        (firstScope path)) world :=
  memberOf_of_start (positionOf?_ofNat inside) starts arguments

/-- A walk to the last node that does not fail starts somewhere, and leaves only the graph
changed. -/
theorem walk_of_lastMember {path : Path} {given : Option Value} {arguments : Option ArgumentMap}
    {world later : World} {found : Option Member}
    (ended : lastMember path given arguments world = .ok found later) :
    ∃ owner graph, ownerOf path given world = .ok owner world ∧
      memberAlong (path.resolverIn world) arguments path.nodes (path.nodes.length - 1) owner
        (firstScope path) world.graph = .ok found graph ∧
      later = { world with graph := graph } := by
  have checked : checkPosition "index" path.size path.size (.ofNat (path.size - 1)) world =
      .ok (path.size - 1) world :=
    checkPosition_of_some (positionOf?_ofNat path.last_lt_size)
  have walked := ended
  rw [lastMember, memberOf, bind_of_ok checked] at walked
  obtain ⟨owner, middle, starts, _⟩ := ok_of_bind walked
  obtain ⟨rfl, _⟩ := ownerOf_eq starts
  rw [lastMember, memberOf_of_ownerOf starts path.last_lt_size] at ended
  obtain ⟨graph, ran, isLater⟩ := ok_of_onGraph ended
  exact ⟨owner, graph, starts, ran, isLater⟩

/-! ## Walks along joined paths -/

/-- The walk along a joined path is the walk along the first path, as far as that goes.  Where the
first path leads to a member, each later node gives the member, nothing or the fault that the
second path gives when it is walked from the elements of the type of that member; its compiler
has to have a resolver that puts the same names in the place of names. -/
theorem joined_path_walks_in_turn {place other mark : Nat}
    {start startTail world later : World} (fresh : Fresh start place)
    (reached : Reached place start world mark) (freshTail : Fresh startTail other)
    {path tail joined : Path} (made : Made place start world path)
    (madeTail : Made other startTail world tail) (noType : tail.rootType = none)
    (ended : concat path tail world = .ok joined later) (arguments : Option ArgumentMap)
    (given : Option Value) {now middle : World}
    (alike : (path.resolverIn now).Alike (tail.resolverIn now)) {member : Member}
    (named : lastMember path given arguments now = .ok (some member) middle)
    (isOwner : ∀ type last, onGraph (Run.elementType member.type) middle = .ok type last →
      type ≠ .undefined) :
    (∀ index < path.size, memberOf joined (.ofNat index) given arguments now =
      memberOf path (.ofNat index) given arguments now) ∧
    ∀ index < tail.size,
      described (memberOf joined (.ofNat (path.size + index)) given arguments) now =
        described (do
          let type ← onGraph (Run.elementType member.type)
          memberOf tail (.ofNat index) (ownerGiven type) arguments) middle := by
  obtain ⟨compiler, _, rootType, nodes⟩ := parts_of_concat (reached.sound fresh.sound)
    (made.cached fresh) (madeTail.cached freshTail) noType ended
  obtain ⟨owner, graph, starts, walked, rfl⟩ := walk_of_lastMember named
  have startsJoined := (ownerOf_eq starts).2 joined rootType
  have size : joined.size = path.size + tail.size := by
    rw [Path.size, ← List.length_map, nodes, List.length_map, List.length_append]
    rfl
  have scope : firstScope joined = firstScope path := by
    rw [firstScope, firstScope, Path.isStatic, Path.isStatic, rootType]
  have walks : ∀ index < path.size + tail.size,
      memberOf joined (.ofNat index) given arguments now =
        onGraph (memberAlong (path.resolverIn now) arguments (path.nodes ++ tail.nodes) index owner
          (firstScope path)) now := by
    intro index inside
    rw [memberOf_of_ownerOf startsJoined (size ▸ inside), ← memberAlong_map_bare, nodes,
      memberAlong_map_bare, scope, Path.resolverIn, compiler]
    rfl
  constructor
  · intro index inside
    rw [walks index (by omega), memberOf_of_ownerOf starts inside,
      memberAlong_append_left inside]
  · intro index inside
    have onward : memberOf joined (.ofNat (path.size + index)) given arguments now =
        (onGraph (Run.elementType member.type) >>= fun type => onGraph (memberAlong
          (path.resolverIn now) arguments tail.nodes index type .onInstance))
          { now with graph := graph } := by
      rw [walks _ (by omega), ← onGraph_bind]
      simp only [onGraph, Path.size, memberAlong_append_right walked]
    rw [described_congr onward, described_bind, described_bind]
    refine bind_congr_ok rfl fun type last typed => ?_
    have isTail : ownerOf tail (ownerGiven type) last = .ok type last := by
      unfold ownerOf
      rw [ownerGiven_of_ne (isOwner type last typed), noType]
      rfl
    have fromTail : memberOf tail (.ofNat index) (ownerGiven type) arguments last =
        onGraph (memberAlong (tail.resolverIn now) arguments tail.nodes index type .onInstance)
          last := by
      obtain ⟨_, _, isLast⟩ := ok_of_onGraph typed
      rw [memberOf_of_ownerOf isTail inside, firstScope, Path.isStatic, noType, isLast]
      rfl
    rw [described_congr fromTail, described_onGraph, described_onGraph,
      memberAlong_described alike]

/-- The home of a person is walked to, and then the codes of an address. -/
theorem codes_are_walked_in_turn :
    ∃ path tail joined : Path, ∃ world later : World,
      path.nodes.map Node.form = [⟨.field "home", []⟩] ∧
      tail.nodes.map Node.form = [⟨.field "codes", []⟩] ∧
      concat path tail world = .ok joined later ∧
      ∃ member middle, lastMember path (some (peopleGraph.classOf lonePerson)) none peopleWorld =
          .ok (some member) middle ∧
        (∀ index < path.size,
          memberOf joined (.ofNat index) (some (peopleGraph.classOf lonePerson)) none peopleWorld =
          memberOf path (.ofNat index) (some (peopleGraph.classOf lonePerson)) none peopleWorld) ∧
        ∀ index < tail.size,
          described (memberOf joined (.ofNat (path.size + index))
              (some (peopleGraph.classOf lonePerson)) none) peopleWorld =
            described (do
              let type ← onGraph (Run.elementType member.type)
              memberOf tail (.ofNat index) (ownerGiven type) none) middle := by
  have fresh : Fresh peopleWorld standardPlace := fresh_initial peopleGraph
  obtain ⟨path, tail, joined, world, later, mark, reached, made, madeTail, noTypePath, noType,
    forms, formsTail, ended⟩ := exists_joined fresh
      (show _ = Value.number (.ofNat 64) from rfl) rfl
      (spellsPlainly_word (show Text.isIdentifier "home" = true by decide))
      (spellsPlainly_word (show Text.isIdentifier "codes" = true by decide)) (by decide)
  have place : path.compiler = standardPlace := (made.cached fresh).maker
  have placeTail : tail.compiler = standardPlace := (madeTail.cached fresh).maker
  obtain ⟨serial, nodes⟩ := exists_field_of_forms forms
  have starts : ownerOf path (some (peopleGraph.classOf lonePerson)) peopleWorld =
      .ok (peopleGraph.classOf lonePerson) peopleWorld := by
    unfold ownerOf
    rw [noTypePath]
    rfl
  have walks : lastMember path (some (peopleGraph.classOf lonePerson)) none peopleWorld =
      onGraph (Node.member? .standard none (peopleGraph.classOf lonePerson) .onInstance
        (.field 0 "home")) peopleWorld := by
    have last : path.size - 1 = 0 := by rw [Path.size, nodes]; rfl
    rw [lastMember, memberOf_of_ownerOf starts path.last_lt_size, last, nodes, memberAlong_head,
      firstScope, Path.isStatic, noTypePath, Path.resolverIn, place]
    rfl
  -- The serial number of the node is not fixed, but the walk does not look at it.
  have leads : (onGraph (Node.member? .standard none (peopleGraph.classOf lonePerson) .onInstance
        (.field 0 "home")) >>= fun found => found.elim (pure .undefined) fun member =>
      onGraph (Run.elementType member.type)).run' peopleWorld = some addressClass := by
    decide +kernel
  obtain ⟨found, middle, named, onward⟩ := ok_of_bind (ok_of_run' leads)
  cases found with
  | none => cases onward
  | some member =>
      have owned : ∀ type last, onGraph (Run.elementType member.type) middle = .ok type last →
          type ≠ .undefined := by
        intro type last typed
        obtain ⟨isAddress, _⟩ := EStateM.Result.ok.inj (typed.symm.trans onward)
        rw [isAddress]
        decide
      rw [← walks] at named
      exact ⟨path, tail, joined, world, later, forms, formsTail, ended, member, middle, named,
        joined_path_walks_in_turn fresh reached fresh made madeTail noType ended none _
          (by rw [Path.resolverIn, Path.resolverIn, place, placeTail]; exact .refl _) named owned⟩

/-! ## Walks that go apart -/

/-- A session compiles two paths, and asks the one that joins them for its first node after those
of the first path. -/
def walkJoined (other : Nat) (first second : String) (owner : Value) :
    Session (Option Member.Description) := do
  let path ← compile standardPlace first
  let tail ← compile other second
  let joined ← concat path tail
  described (memberOf joined (.ofNat path.size) (some owner) none)

/-- A session compiles two paths, and asks the second one for its first node from the elements of
the type of the member to which the first one leads. -/
def walkApart (other : Nat) (first second : String) (owner : Value) :
    Session (Option Member.Description) := do
  let path ← compile standardPlace first
  let tail ← compile other second
  match ← lastMember path (some owner) none with
  | none => pure none
  | some member =>
      let type ← onGraph (Run.elementType member.type)
      described (memberOf tail (.ofNat 0) (ownerGiven type) none)

/-- The world of people in which the array type of the codes has lost its component type. -/
def untypedWorld : World :=
  .initial (stateAfter (do
    let some (_, codes) := (peopleGraph.fields addressClass .onInstance).head? | pure false
    Run.assignWith perform codes.type (.name "componentType") .undefined) peopleGraph)

/-- The nodes of a joined path are looked up under the names that the first compiler puts in the
place of others.  And where the elements of a type are of no type at all, the joined path finds no
class to go on from, while the second path has been given no class to start at. -/
theorem joined_path_walks_otherwise :
    (walkJoined peopleWorld.nextCompiler "a" "house" openType).run' renamingWorld =
        some (some ⟨.field, "house", openType, openType, .onInstance, false⟩) ∧
      (walkApart peopleWorld.nextCompiler "a" "house" openType).run' renamingWorld =
        some (some ⟨.field, "home", openType, openType, .onInstance, false⟩) ∧
      (faultOf (walkJoined standardPlace "codes" "b" addressClass) untypedWorld).map
          Fault.message = some "Cannot read properties of undefined (reading 'prototype')" ∧
      (faultOf (walkApart standardPlace "codes" "b" addressClass) untypedWorld).map
          Fault.message = some "b is not a static expression; pass the owner type" := by
  decide +kernel

end Session

end ObjectPath
