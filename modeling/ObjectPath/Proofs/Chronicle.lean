import ObjectPath.Proofs.Course
import ObjectPath.Proofs.Footprint

/-!
# What the log says of a walk

A walk reports each missing value that it fills in, with the graph at that moment.  So the log
says where the walk has been, and accounts for all that has changed: an object that was there
before differs afterwards only in slots of nodes that were reported, and since the last report
nothing that is there has changed.
-/

namespace ObjectPath

open Graph

/-! ## Reports of filled nodes -/

/-- The number of the node that an event reports to be filled. -/
def Event.filledIndex? : Event → Option Nat
  | .filled _ _ index _ _ _ _ => some index
  | _ => none

theorem Event.filledIndex?_of_isHandled {event : Event} (isHandled : event.isHandled = true) :
    event.filledIndex? = none := by
  cases event <;> first | rfl | cases isHandled

/-- Where a walk stands when something is reported: the graph, the value that it has come to
and the number of the node that is next. -/
structure Stage where
  graph : Graph
  value : Value
  next : Nat

namespace Stage

/-- The stage that an event leaves.  From a value that was filled in the walk goes on. -/
def after (stage : Stage) : Event → Stage
  | .filled _ _ index _ _ value moment => ⟨moment, value, index + 1⟩
  | _ => stage

theorem after_of_isHandled (stage : Stage) {event : Event} (isHandled : event.isHandled = true) :
    stage.after event = stage := by
  cases event <;> first | rfl | cases isHandled

theorem foldl_after_of_isHandled (stage : Stage) {events : List Event}
    (handled : ∀ event ∈ events, event.isHandled = true) : events.foldl after stage = stage := by
  induction events generalizing stage with
  | nil => rfl
  | cons event rest inductionHypothesis =>
      rw [List.foldl_cons, stage.after_of_isHandled (handled event (List.mem_cons_self ..))]
      exact inductionHypothesis stage fun other member =>
        handled other (List.mem_cons_of_mem event member)

variable (path : Path) (resolver : Resolver)

/-- A slot belongs to a node that comes after a stage: the nodes between lead to a value, and
the steps of the node pass the slot from there. -/
def Owns (stage : Stage) (index place : Nat) (key : Key) : Prop :=
  ∃ node target, path.nodes[index]? = some node ∧
    stage.graph.travel? stage.value
      (stepsOf resolver ((path.nodes.take index).drop stage.next)) = some target ∧
    stage.graph.Passes target (node.steps resolver) place key

/-- A slot belongs to a node that is reported to be filled by events after a stage. -/
def Accounts (place : Nat) (key : Key) : Stage → List Event → Prop
  | _, [] => False
  | stage, event :: rest =>
      (∃ index, event.filledIndex? = some index ∧ stage.Owns path resolver index place key) ∨
        Accounts place key (stage.after event) rest

variable {path resolver}

theorem accounts_append {place : Nat} {key : Key} {stage : Stage} {early late : List Event} :
    Accounts path resolver place key stage (early ++ late) ↔
      Accounts path resolver place key stage early ∨
        Accounts path resolver place key (early.foldl after stage) late := by
  induction early generalizing stage with
  | nil => simp [Accounts]
  | cons event rest inductionHypothesis =>
      simp only [List.cons_append, Accounts, List.foldl_cons, inductionHypothesis, or_assoc]

end Stage

/-- The events after a stage account for what has become of the graph.  They say that nodes
before a limit were filled, and what handlers did. -/
structure Chronicle (path : Path) (resolver : Resolver) (stage : Stage) (events : List Event)
    (limit : Nat) (after : Graph) : Prop where
  onTheWay : ∀ event ∈ events, event.isOnTheWay = true
  below : ∀ event ∈ events, ∀ index, event.filledIndex? = some index → index < limit
  alters : stage.graph.Alters (fun place key => stage.Accounts path resolver place key events) after
  since : (events.foldl Stage.after stage).graph.Extends after

namespace Chronicle

variable {path : Path} {resolver : Resolver} {stage : Stage} {limit : Nat} {after : Graph}

theorem nil (extends_ : stage.graph.Extends after) : Chronicle path resolver stage [] limit after where
  onTheWay := by simp
  below := by simp
  alters := .of_extends extends_
  since := extends_

theorem later {events : List Event} {final : Graph}
    (chronicle : Chronicle path resolver stage events limit after) (extends_ : after.Extends final) :
    Chronicle path resolver stage events limit final where
  onTheWay := chronicle.onTheWay
  below := chronicle.below
  alters := chronicle.alters.trans (.of_extends extends_)
  since := chronicle.since.trans extends_

/-- A report of a filled node, what its handlers did, and what came after that. -/
theorem report {event : Event} {handled rest : List Event} {index : Nat} {moment : Graph}
    (isFilled : event.filledIndex? = some index) (inside : index < limit)
    (sameMoment : (stage.after event).graph = moment)
    (alters : stage.graph.Alters (fun place key => stage.Owns path resolver index place key) moment)
    (allHandled : ∀ event ∈ handled, event.isHandled = true)
    (chronicle : Chronicle path resolver (stage.after event) rest limit after) :
    Chronicle path resolver stage (event :: handled ++ rest) limit after := by
  have settled : handled.foldl Stage.after (stage.after event) = stage.after event :=
    (stage.after event).foldl_after_of_isHandled allHandled
  refine ⟨?_, ?_, ?_, ?_⟩
  · intro other member
    rcases List.mem_append.1 member with early | late
    · rcases List.mem_cons.1 early with rfl | isHandled
      · cases other <;> first | rfl | cases isFilled
      · simp [Event.isOnTheWay, allHandled other isHandled]
    · exact chronicle.onTheWay other late
  · intro other member number same
    rcases List.mem_append.1 member with early | late
    · rcases List.mem_cons.1 early with rfl | isHandled
      · rw [isFilled, Option.some.injEq] at same
        exact same ▸ inside
      · rw [Event.filledIndex?_of_isHandled (allHandled other isHandled)] at same
        cases same
    · exact chronicle.below other late number same
  · have first : stage.graph.Alters
        (fun place key => stage.Accounts path resolver place key (event :: handled ++ rest)) moment :=
      alters.mono fun _ _ _ owns => Or.inl ⟨index, isFilled, owns⟩
    refine first.trans (sameMoment ▸ chronicle.alters.mono fun place key _ accounts => Or.inr ?_)
    exact Stage.accounts_append.2 (Or.inr (settled.symm ▸ accounts))
  · rw [List.foldl_append, List.foldl_cons, settled]
    exact chronicle.since

end Chronicle

/-! ## Nodes in a row -/

theorem stepsOf_append (resolver : Resolver) (first second : List Node) :
    stepsOf resolver (first ++ second) = stepsOf resolver first ++ stepsOf resolver second :=
  List.flatMap_append

/-- The steps of the nodes from one on, up to a node and with it. -/
theorem Path.stepsOf_between {path : Path} {resolver : Resolver} {next index : Nat} {node : Node}
    (found : path.nodes[index]? = some node) (passed : next ≤ index) :
    stepsOf resolver ((path.nodes.take (index + 1)).drop next) =
      stepsOf resolver ((path.nodes.take index).drop next) ++ node.steps resolver := by
  have inside : index < path.nodes.length := (List.getElem?_eq_some_iff.1 found).1
  rw [List.take_add_one, found, Option.toList_some, List.drop_append_of_le_length (by simp; omega),
    stepsOf_append]
  simp [stepsOf]

/-! ## Reports -/

namespace Session

open World

/-- A report that was made, and what its handlers did. -/
def Reported (event : Event) (before after : World) : Prop :=
  ∃ handled, after.events = before.events ++ event :: handled ∧
    ∀ event ∈ handled, event.isHandled = true

theorem reported_of_goesOn {event : Event} {before after : World}
    (goesOn : GoesOn Event.isHandled (before.log event) after) : Reported event before after := by
  obtain ⟨handled, events, allHandled⟩ := goesOn.2.events
  exact ⟨handled, by rw [events, World.log, List.append_assoc]; rfl, allHandled⟩

/-- What is reported of a missing value that was filled in. -/
theorem reportFilled_reports {path : Path} (index : Nat) (node : Node) {type : Value}
    (value : Value) {world : World} (quiet : world.Quiet) (sound : world.graph.Sound)
    (isType : world.graph.IsType type) :
    Ensures (reportFilled path index node type value) world
      (fun _ later => ∃ typeName, Reported (.filled path.compiler path.source index node.text
        typeName value world.graph) world later)
      fun _ _ => True := by
  refine (onGraph_peeks (Run.typeName_peeks sound isType)).ensures_bind ?_ fun _ => trivial
  intro typeName _
  refine Ensures.get_bind ?_
  exact Ensures.mono (emit_ensures path.compiler .filled path.source _ quiet)
    (fun _ _ goesOn => ⟨typeName, reported_of_goesOn goesOn⟩) fun _ _ _ => trivial

/-- The number of the node before which a walk has filled in all that was missing. -/
def Track.limit (number : Nat) : Track → Nat
  | .arrived _ _ => number
  | .stopped index _ => index

end Session

/-! ## Walks -/

namespace Scene

open Session

variable {scene : Scene} {floor : Nat} {target : Value}

/-- The log accounts for what a walk does from some node on.  The walk has come there from an
earlier stage since when nothing was reported. -/
theorem track_chronicle (path : Path) {resolver : Resolver} {supply : Factory}
    {arguments : Option ArgumentMap} {nodes : List Node}
    (plainNodes : ∀ node ∈ nodes, node.isPlain = true)
    (within : Within scene.keys (stepsOf resolver nodes))
    (supplies : scene.Supplies floor supply arguments) {index : Nat} (attached : Bool)
    (segment : ∀ number node, nodes[number]? = some node →
      path.nodes[index + number]? = some node)
    {world : World} (quiet : world.Quiet) (holds : scene.Holds world.graph)
    (above : floor ≤ world.graph.objects.size) (known : world.graph.Knows target)
    (present : target.isMissing = false) (plain : world.graph.Plain scene.keys floor target)
    {stage : Stage} (sameGraph : stage.graph = world.graph) (passed : stage.next ≤ index)
    (came : stage.graph.travel? stage.value
      (stepsOf resolver ((path.nodes.take index).drop stage.next)) = some target) :
    Ensures (track path resolver ⟨arguments, some supply⟩ index (.onValue target) attached nodes)
      world
      (fun arrival later => index ≤ arrival.limit (index + nodes.length) ∧
        arrival.limit (index + nodes.length) ≤ index + nodes.length ∧
        ∃ added, later.events = world.events ++ added ∧
          Chronicle path resolver stage added (arrival.limit (index + nodes.length)) later.graph)
      fun _ _ => True := by
  -- Induction on the nodes that are left. The stage stays behind while values are found, and moves
  -- up to the walk with each value that is filled in and reported.
  induction nodes generalizing floor target index attached world stage with
  | nil =>
      refine ⟨Nat.le_refl _, Nat.le_refl _, [], (List.append_nil _).symm, .nil ?_⟩
      rw [sameGraph]
      exact .refl _
  | cons node rest inductionHypothesis =>
      have plainNode := plainNodes node (List.mem_cons_self ..)
      have plainRest : ∀ other ∈ rest, other.isPlain = true :=
        fun other member => plainNodes other (List.mem_cons_of_mem node member)
      rw [stepsOf_cons] at within
      obtain ⟨withinNode, withinRest⟩ := Within.append.1 within
      have found : path.nodes[index]? = some node := segment 0 node rfl
      have segmentRest : ∀ number other, rest[number]? = some other →
          path.nodes[index + 1 + number]? = some other := by
        intro number other same
        rw [Nat.add_assoc, Nat.add_comm 1 number]
        exact segment (number + 1) other same
      have count : index + (node :: rest).length = index + 1 + rest.length := by
        rw [List.length_cons]
        omega
      have sound := holds.sound
      have entry := Entry.at_once holds above known present plain
      rw [count]
      refine track_cons plainNode withinNode sound present plain (fun _ => trivial) ?_ ?_
      · intro content travelled presentNext
        refine Ensures.mono (inductionHypothesis plainRest withinRest supplies attached segmentRest
          quiet holds above ((Extends.refl _).travel?_known sound.toClosed known travelled)
          presentNext (plain.travel? withinNode travelled) sameGraph (by omega) ?_)
          (fun _ _ => And.imp_left Nat.le_of_succ_le) fun _ _ => id
        rw [Path.stepsOf_between found passed, travel?_append, came, Option.bind_some, sameGraph,
          travelled]
      · intro content travelled missing
        refine Ensures.mono (Ensures.and
          (fill_ensures supplies entry plainNode withinNode travelled missing)
          (fill_alters supplies entry plainNode withinNode travelled missing)) ?_
          fun _ _ _ => trivial
        rintro filling graph ⟨⟨kept, fillsIn⟩, alters⟩
        have quietFilled : World.Quiet { world with graph := graph } := quiet
        cases filling with
        | refused type =>
            refine ⟨Nat.le_refl _, by rw [Track.limit]; omega, [], (List.append_nil _).symm, .nil ?_⟩
            rw [sameGraph]
            exact alters
        | filled type made inPlace =>
            obtain ⟨isType, fills⟩ := fillsIn
            refine Ensures.bind_weaker (Ensures.and
              (reportFilled_ensures index node made quietFilled kept.holds.sound isType)
              (reportFilled_reports index node made quietFilled kept.holds.sound isType))
              (fun _ _ _ => trivial) ?_
            rintro _ reported ⟨goesOn, typeName, handled, events, allHandled⟩
            obtain rfl : reported.graph = graph := goesOn.1
            have stays : reported.graph.travel? made (stepsOf resolver
                ((path.nodes.take (index + 1)).drop (index + 1))) = some made := by
              rw [List.drop_eq_nil_of_le (List.length_take_le _ _)]
              rfl
            refine Ensures.mono (inductionHypothesis plainRest withinRest supplies
              (attached && inPlace) segmentRest (goesOn.2.quiet quietFilled) fills.kept.holds
              (Nat.le_trans above fills.kept.grows.size) fills.known fills.present fills.plain
              (show (Stage.mk reported.graph made (index + 1)).graph = reported.graph from rfl)
              (Nat.le_refl _) stays) ?_ fun _ _ _ => trivial
            rintro arrival final ⟨onward, inside, added, eventsFinal, chronicle⟩
            refine ⟨Nat.le_of_succ_le onward, inside, .filled path.compiler path.source index node.text
              typeName made reported.graph :: handled ++ added, ?_, ?_⟩
            · rw [eventsFinal, events, List.append_assoc]
            · refine Chronicle.report rfl onward rfl ?_ allHandled chronicle
              rw [sameGraph] at came ⊢
              exact alters.mono fun place key _ passes =>
                ⟨node, target, found, sameGraph ▸ came, sameGraph ▸ passes⟩

end Scene

end ObjectPath
