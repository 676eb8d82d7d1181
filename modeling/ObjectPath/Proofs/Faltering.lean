import ObjectPath.Proofs.Requesting
import ObjectPath.Proofs.Settling

/-!
# Factories that throw

A node is filled in as a whole or not at all: all its requests come before anything is stored.  So
if something is thrown for one of them, the call fails with the failure to make an instance, and
nothing that was there when the call came to the node has changed.  No later node is reported to be
filled in, and what was filled in before stays where it is.

This is for factories that, before they throw, touch nothing that is there.  One that empties a slot
first is an example of what is lost otherwise.
-/

namespace ObjectPath

open Graph

/-! ## Up to a request -/

namespace Scene

variable {scene : Scene} {floor : Nat} {origin graph later asked : Graph} {target type request : Value}
  {resolver : Resolver} {arguments : Option ArgumentMap} {supply : Factory} {node : Node}

/-- Finding out that the value of a node is missing changes nothing. -/
theorem Entry.misses (entry : scene.Entry floor origin graph target)
    (misses : node.Misses resolver arguments target graph type later)
    (plainNode : node.isPlain = true) (within : Within scene.keys (node.steps resolver)) :
    later = graph ∧ graph.Requested type := by
  obtain ⟨content, middle, isRead, _, typed⟩ := misses
  have sound := entry.holds.sound
  obtain ⟨rfl, _⟩ := ((Node.read_answers sound.toClassed entry.present arguments plainNode
    within).peeks ⟨sound, entry.plain⟩).ok isRead
  exact (Node.typeAt_peeks sound entry.present entry.plain arguments plainNode within).ok typed

/-- The type of an array that is requested may be new. -/
theorem Entry.wants (entry : scene.Entry floor origin graph target) (requested : graph.Requested type)
    (wants : Run.requestedArray type graph = .ok request asked) :
    scene.Entry floor origin asked target ∧ asked.Requested request := by
  obtain ⟨since, sound, requestedAsked⟩ :=
    (Run.requestedArray_ensures entry.holds.sound requested).ok wants
  exact ⟨entry.later since sound, requestedAsked⟩

/-- Up to each request of a node there only are new objects. -/
theorem Entry.requests (supplies : scene.Supplies floor supply arguments)
    (entry : scene.Entry floor origin graph target) (requested : graph.Requested type)
    (requests : Node.Requests resolver arguments supply target node type graph request asked)
    (plainNode : node.isPlain = true) (within : Within scene.keys (node.steps resolver)) :
    scene.Entry floor origin asked target ∧ asked.Requested request := by
  induction requests with
  | itself node type graph => exact ⟨entry, requested⟩
  | array produces there misses wants deeper inductionHypothesis =>
      have made_ := (produce_ensures supplies entry.holds entry.above requested).ok produces
      have entryMade := entry.later made_.extends_ made_.sound
      have withinInner := (Within.append.1 within).1
      obtain ⟨rfl, requestedInner⟩ := entryMade.misses misses plainNode withinInner
      obtain ⟨entryAsked, requestedAsked⟩ := entryMade.wants requestedInner wants
      exact inductionHypothesis entryAsked requestedAsked plainNode withinInner

end Scene

/-- A factory that throws for some types. -/
def throwing (refuses : Value → Bool) (thrown : Fault) (supply : Factory) : Factory :=
  fun type arguments => if refuses type then throw thrown else supply type arguments

theorem Scene.Supplies.throwing {scene : Scene} {floor : Nat} {supply : Factory}
    {arguments : Option ArgumentMap} (supplies : scene.Supplies floor supply arguments)
    (refuses : Value → Bool) {thrown : Fault} (notRaised : ∀ value, thrown ≠ .raisedValue value) :
    scene.Supplies floor (throwing refuses thrown supply) arguments := by
  intro graph type holds above requested
  unfold ObjectPath.throwing
  split
  · exact ⟨Extends.refl graph, holds.sound, fun value same => absurd same (notRaised value)⟩
  · exact supplies holds above requested

/-! ## Faults that are reported -/

namespace Fault

/-- Whether a fault is the failure to make an instance. -/
def isInstantiation : Fault → Bool
  | .instantiation .. => true
  | _ => false

/-- The fault that a failure keeps behind it, if it is not that `undefined` was raised. -/
def asCause : Fault → Option Fault
  | .raisedValue .undefined => none
  | fault => some fault

/-- A failure to make an instance that has a fault behind it. -/
def Wraps (fault thrown : Fault) : Prop :=
  ∃ typeName shown detail, fault = .instantiation typeName shown detail thrown.asCause

end Fault

/-- The message of a failure to make an instance can be put together: the name of the type has a
text, and so has a value that was raised. -/
structure Worded (graph : Graph) (type : Value) (thrown : Fault) : Prop where
  name : ∃ name shown, Run.typeName type graph = .ok name graph ∧
    Run.messageText perform name graph = .ok shown graph
  raised : ∀ value, thrown = .raisedValue value → ∃ detail,
    Run.textOf perform value graph = .ok detail graph

/-- A failure that can be put into words is reported. -/
theorem Worded.reported {graph : Graph} {type : Value} {thrown : Fault}
    (worded : Worded graph type thrown) :
    ∃ fault, (Run.typeName type >>= fun name => Run.instantiationFault name thrown >>= fun fault =>
        (throw fault : Run Value)) graph = .error fault graph ∧ fault.Wraps thrown := by
  obtain ⟨name, shown, named, isShown⟩ := worded.name
  rw [bind_of_ok named]
  unfold Run.instantiationFault
  rw [bind_assoc, bind_of_ok isShown]
  split
  · exact ⟨_, rfl, name, shown, none, rfl⟩
  · rename_i value notUndefined
    obtain ⟨detail, isDetail⟩ := worded.raised value rfl
    rw [bind_assoc, bind_of_ok isDetail]
    refine ⟨_, rfl, name, shown, some detail, ?_⟩
    cases value <;> first | rfl | exact absurd rfl notUndefined
  · rename_i notUndefined notRaised
    refine ⟨_, rfl, name, shown, some thrown.message, ?_⟩
    unfold Fault.asCause
    split
    · exact absurd rfl notUndefined
    · rfl

/-- The words are there if the type is one whose name has a text, and nothing was raised. -/
theorem worded_of_named {graph : Graph} {type : Value} {thrown : Fault} (sound : graph.Sound)
    (isType : graph.IsType type) (notRaised : ∀ value, thrown ≠ .raisedValue value)
    (named : ((Run.typeName type >>= Run.messageText perform).run' graph).isSome = true) :
    Worded graph type thrown := by
  obtain ⟨shown, given⟩ := Option.isSome_iff_exists.1 named
  obtain ⟨name, middle, isName, isShown⟩ := ok_of_bind (ok_of_run' given)
  obtain ⟨rfl, simple⟩ := (Run.typeName_peeks sound isType).ok isName
  obtain ⟨same, _⟩ := (Run.messageText_peeks perform simple).ok isShown
  rw [same] at isShown
  exact ⟨⟨name, shown, isName, isShown⟩, fun value raised => absurd raised (notRaised value)⟩

/-- Who throws when a factory is asked for a value: a producer of its own, or the constructor of the
type, which it runs to make an instance. -/
inductive Thrower
  | producer
  | constructor

namespace Thrower

/-- A fault is thrown when a factory is asked for a value of a type. -/
def Throws (supply : Factory) (arguments : Option ArgumentMap) (request : Value) (asked : Graph)
    (thrown : Fault) (failed : Graph) : Thrower → Prop
  | producer => supply request arguments asked = .error thrown failed
  | constructor => supply request arguments asked = Run.newInstance request [] asked ∧
      Run.create request [] asked = .error thrown failed

/-- Whether a fault is passed on as it is: a failure to make an instance that a producer throws. -/
def passesOn (thrown : Fault) : Thrower → Bool
  | producer => thrown.isInstantiation
  | constructor => false

/-- What is made of a fault that is thrown: it is passed on, or gets a failure to make an instance
in front of it. -/
def Reports (thrower : Thrower) (thrown fault : Fault) : Prop :=
  if thrower.passesOn thrown then fault = thrown else fault.Wraps thrown

/-- Asking for a value for which something is thrown fails, in the graph that is left then. -/
theorem Throws.produce_fails {thrower : Thrower} {supply : Factory}
    {arguments : Option ArgumentMap} {request : Value} {asked failed : Graph} {thrown : Fault}
    (throws : thrower.Throws supply arguments request asked thrown failed)
    (worded : thrower.passesOn thrown = false → Worded failed request thrown) :
    ∃ cause fault, supply request arguments asked = .error cause failed ∧
      produce supply request arguments asked = .error fault failed ∧
      thrower.Reports thrown fault := by
  cases thrower with
  | producer =>
      have caught : produce supply request arguments asked = _ := tryCatch_of_error throws
      cases passed : thrown.isInstantiation with
      | true =>
          cases thrown <;> cases passed
          exact ⟨_, _, throws, caught, rfl⟩
      | false =>
          obtain ⟨wrapped, reported, wraps⟩ := (worded passed).reported
          refine ⟨thrown, wrapped, throws, ?_, by rwa [Reports, passesOn, passed]⟩
          cases thrown <;> first | exact caught.trans reported | cases passed
  | constructor =>
      obtain ⟨asks, creates⟩ := throws
      obtain ⟨wrapped, reported, wraps⟩ := (worded rfl).reported
      have instantiated : Run.newInstance request [] asked = .error wrapped failed :=
        (tryCatch_of_error creates).trans reported
      rw [← asks] at instantiated
      have caught : produce supply request arguments asked = _ := tryCatch_of_error instantiated
      obtain ⟨name, shown, detail, rfl⟩ := wraps
      exact ⟨_, _, instantiated, caught, name, shown, detail, rfl⟩

/-- A factory that throws for some types throws for these. -/
theorem throws_throwing {refuses : Value → Bool} {thrown : Fault} {supply : Factory}
    {arguments : Option ArgumentMap} {request : Value} {asked : Graph}
    (refused : refuses request = true) :
    producer.Throws (throwing refuses thrown supply) arguments request asked thrown asked := by
  unfold Throws throwing
  rw [refused, if_pos rfl]
  rfl

end Thrower

namespace Graph

section Extended

variable {before after : Graph} {resolver : Resolver} {first : Nat} {nodes : List Node}
  {reported : List Report}

/-- New objects leave what was reported in its slots. -/
theorem Keeps.of_extends (keeps : before.Keeps resolver first nodes reported)
    (extends_ : before.Extends after) : after.Keeps resolver first nodes reported where
  ordered := keeps.ordered
  inside := keeps.inside
  present := keeps.present
  slots := by
    intro report member
    obtain ⟨node, place, flags, found, stored, own⟩ := keeps.slots report member
    obtain ⟨object, isObject, _⟩ := Option.bind_eq_some_iff.1 own
    exact ⟨node, place, flags, found, stored,
      (extends_.ownAt? (lt_of_object? isObject) _).trans own⟩

theorem Recalls.of_extends {target : Value}
    (recalls : before.Recalls resolver target first nodes reported)
    (extends_ : before.Extends after) (closed : before.Closed) (known : before.Knows target) :
    after.Recalls resolver target first nodes reported :=
  fun report member => extends_.travel?_of_some closed known (recalls report member)

end Extended

end Graph

namespace Session

/-! ## All or nothing -/

/-- A call fails at a node as a whole.  Since it came there only new objects were made.  Its events
report nodes before that one, and what these were filled in with is still in its slots, and is
read there if the keys of the path are guarded. -/
def FailsAt (path : Path) (root : Value) (world : World) (index : Nat) (middle : World)
    (guarded : List Key) (reported : Fault → Prop) {α : Type} (work : Session α) : Prop :=
  ∃ fault final, work world = .error fault final ∧ reported fault ∧
    middle.graph.Extends final.graph ∧
    ∃ added, final.events = world.events ++ added ∧ (∀ event ∈ added, event.isOnTheWay = true) ∧
      (∀ report ∈ reports added, report.index < index) ∧
      final.graph.Keeps (path.resolverIn world) 0 (path.nodes.take index) (reports added) ∧
      (Guards guarded (path.steps (path.resolverIn world)) → ∀ report ∈ reports added, ∀ again,
        getValue (path.upTo report.index) root ⟨again, none⟩ final = .ok report.value final)

section Whole

variable {path : Path} {world middle : World} {root target request : Value}
  {arguments : Option ArgumentMap} {supply : Factory} {index : Nat} {asked failed : Graph}
  {grounds : List Value} {guarded : List Key} {writes : Bool} {thrower : Thrower} {thrown : Fault}

theorem within_node (path : Path) (resolver : Resolver) {node : Node} (member : node ∈ path.nodes) :
    Within (path.keys resolver) (node.steps resolver) :=
  fun _ isStep => List.mem_map_of_mem (List.mem_flatMap.2 ⟨node, member, isStep⟩)

/-- A call that has come to a node has kept everything that an evaluation relies on, and what it
has filled in is in its place. -/
theorem ComesTo.settles (came : ComesTo path root arguments supply world index target middle)
    (meets : path.Meets world root) (grounded : path.Grounded world grounds)
    (supplies : (path.scene world root grounds guarded True).Supplies 0 supply arguments) :
    (path.scene world root grounds guarded True).Onward 0 world middle ∧
      (path.scene world root grounds guarded True).Entry 0 middle.graph middle.graph target ∧
      ∃ added, middle.events = world.events ++ added ∧
        (∀ event ∈ added, event.isOnTheWay = true) ∧
        middle.graph.Keeps (path.resolverIn world) 0 (path.nodes.take index) (reports added) ∧
        (Guards guarded (path.steps (path.resolverIn world)) →
          middle.graph.Recalls (path.resolverIn world) root 0 (path.nodes.take index)
            (reports added)) := by
  have parts : path.steps (path.resolverIn world) =
      stepsOf (path.resolverIn world) (path.nodes.take index) ++
        stepsOf (path.resolverIn world) (path.nodes.drop index) := by
    rw [← stepsOf_append, List.take_append_drop]
    rfl
  have within : Within (path.keys (path.resolverIn world)) (path.steps (path.resolverIn world)) :=
    Within.refl _
  rw [parts] at within
  obtain ⟨value, added, arrived, onward, comes, events, onTheWay, keeps, recalls⟩ :=
    Scene.walk_settles path trivial (fun node member => meets.plainPath node (List.take_subset _ _ member))
      (Within.append.1 within).1 supplies meets.quiet (meets.holds grounded guarded True)
      (Nat.zero_le _) meets.known came.present meets.plain came.walked
  cases arrived
  refine ⟨onward, .at_once onward.kept.holds (Nat.zero_le _) comes.known comes.present comes.plain,
    added, events, onTheWay, keeps, fun guards => recalls ?_⟩
  rw [parts] at guards
  exact (Guards.append.1 guards).1

/-- Since a call came to a node, there only are new objects up to what it asks the factory for. -/
theorem Asks.entry (asks : Asks path root arguments supply world index middle request asked writes)
    (meets : path.Meets world root) (grounded : path.Grounded world grounds)
    (supplies : (path.scene world root grounds guarded True).Supplies 0 supply arguments) :
    ∃ target, ComesTo path root arguments supply world index target middle ∧
      (path.scene world root grounds guarded True).Entry 0 middle.graph asked target ∧
      asked.Requested request := by
  cases asks with
  | before came found inside misses requests =>
      obtain ⟨_, entry, _⟩ := came.settles meets grounded supplies
      have member := List.mem_of_getElem? found
      have plainNode := meets.plainPath _ member
      have within := within_node path (path.resolverIn world) member
      obtain ⟨rfl, requested⟩ := entry.misses misses plainNode within
      exact ⟨_, came, Scene.Entry.requests supplies entry requested requests plainNode within⟩
  | last came isLast inside misses wants requests =>
      obtain ⟨onward, entry, _⟩ := came.settles meets grounded supplies
      have sameResolver : path.resolverIn middle = path.resolverIn world :=
        onward.advances.resolver path.compiler
      rw [sameResolver] at misses requests
      have plainNode := meets.plainPath.lastNode
      have within : Within _ (path.lastNode.steps _) :=
        within_node path (path.resolverIn world) (List.getLast_mem path.nodes_ne_nil)
      rw [isLast] at plainNode within
      have withinInner := (Within.append.1 within).1
      obtain ⟨rfl, requested⟩ := entry.misses misses plainNode withinInner
      obtain ⟨entryWanted, requestedWanted⟩ := entry.wants requested wants
      exact ⟨_, came,
        Scene.Entry.requests supplies entryWanted requestedWanted requests plainNode withinInner⟩

theorem Asks.failsAt (asks : Asks path root arguments supply world index middle request asked writes)
    (meets : path.Meets world root) (grounded : path.Grounded world grounds)
    (supplies : (path.scene world root grounds guarded True).Supplies 0 supply arguments)
    (throws : thrower.Throws supply arguments request asked thrown failed)
    (worded : thrower.passesOn thrown = false → Worded failed request thrown) {α : Type}
    {work : Session α}
    (fails : ∀ fault, produce supply request arguments asked = .error fault failed →
      work world = .error fault { middle with graph := failed }) :
    FailsAt path root world index middle guarded (thrower.Reports thrown) work := by
  obtain ⟨target, came, entry, requested⟩ := asks.entry meets grounded supplies
  obtain ⟨onward, _, added, events, onTheWay, keeps, recalls⟩ := came.settles meets grounded supplies
  obtain ⟨cause, fault, raised, ended, reported⟩ := throws.produce_fails worded
  have failure := (supplies entry.holds entry.above requested).error raised
  have extends_ : middle.graph.Extends failed := entry.since.trans failure.extends_
  have sameResolver : path.resolverIn middle = path.resolverIn world :=
    onward.advances.resolver path.compiler
  have closed := onward.kept.holds.sound.toClosed
  have known := onward.kept.grows.knows meets.known
  refine ⟨fault, _, fails fault ended, reported, extends_, added, events, onTheWay, ?_,
    keeps.of_extends extends_, ?_⟩
  · intro report member
    obtain ⟨_, inside⟩ := keeps.inside report member
    rw [Nat.zero_add, List.length_take] at inside
    omega
  · intro guards report member again
    have sameLater : path.resolverIn { middle with graph := failed } = path.resolverIn world :=
      sameResolver
    exact getValue_upTo meets.plainPath sameLater came.dynamic failure.sound.toClassed came.present
      (keeps.of_extends extends_) ((recalls guards).of_extends extends_ closed known) member again

end Whole

/-! ## A factory without arrays -/

deriving instance DecidableEq for Position, Walk

/-- The path of an element of a list behind a slot that is no declared field. -/
def listPath : Path where
  compiler := World.standardPlace
  serial := 0
  source := "free.list[0].name"
  nodes := [.field 0 "free", .array 2 "list[0]" 0 (some (.field 1 "list")), .field 3 "name"]
  nodes_ne_nil := List.cons_ne_nil _ _
  rootType := none

theorem meets_listPath :
    listPath.Meets gridWorld emptyGrid ∧ listPath.Grounded gridWorld sharedValues :=
  Path.meets_of_check (show ∀ node ∈ listPath.nodes, _ by decide)
    (fun _ _ impossible => by cases impossible) sound_gridGraph (by decide +kernel)
    (by decide +kernel)

/-- The default factory, but one that throws for arrays. -/
def listless : Factory :=
  throwing (· ≠ openType) (.raised "no lists") standardFactory

/-- The default factory, but one that empties the free slot of the grid and throws once that slot
is filled. -/
def spoiling : Factory := fun type arguments => do
  if ((← get).member emptyGrid (.name "free")).isMissing then standardFactory type arguments
  else do
    modify (·.store emptyGrid (.name "free") .null)
    throw (.raised "spoiled")

end Session

end ObjectPath
