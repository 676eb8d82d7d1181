import ObjectPath.Proofs.Chronicle
import ObjectPath.Proofs.Rewrite

/-!
# Reads with a factory settle

A read with the default factory reports what it fills in, node after node, and once it has ended
the nodes up to each of these lead to the value that was reported.  So nothing is missing before
the last node any more: the same read gives the same value again, with a factory or without one,
and finds nothing to do.

A value that was filled in stays in its slot, whatever is filled in later.  This is more than a way
to it that stays, since the length of an array is found on a way as well and may grow.
-/

namespace ObjectPath

open Graph

/-! ## Slots that stay -/

namespace Graph

variable {guarded : List Key} {before after : Graph}

/-- An object has the members that it has by what it is as long as it is that. -/
theorem intrinsic?_of_nature {object later : Object} {key : Key}
    (nature : Nature object.body later.body) (ordinary : object.intrinsic? key = none) :
    later.intrinsic? key = none := by
  obtain ⟨parent, body, slots, extensible⟩ := object
  obtain ⟨laterParent, laterBody, laterSlots, laterExtensible⟩ := later
  rcases nature with same | ⟨short, long, resizable, isBefore, isAfter⟩
  · cases same
    exact ordinary
  · cases isBefore
    cases isAfter
    simp only [Object.intrinsic?] at ordinary ⊢
    split at ordinary
    · cases ordinary
    · rename_i notLength
      rw [if_neg notLength]

/-- A slot of an object holds a value, and could hold another one. -/
def Stores (graph : Graph) (place : Nat) (key : Key) (content : Value) : Prop :=
  graph.placement (.object place) key = .slot ∧
    ∃ flags, graph.ownAt? place key = some (.data content flags)

theorem stores_store {graph : Graph} {place : Nat} {key : Key} (content : Value)
    (slot : graph.placement (.object place) key = .slot) :
    (graph.store (.object place) key content).Stores place key content := by
  obtain ⟨flags, _, own⟩ := ownAt?_store_self content slot
  exact ⟨placement_store content slot, flags, own⟩

/-- A slot keeps its value while the graph grows. -/
theorem Stores.ownAt?_of_grows {place : Nat} {key : Key} {content : Value}
    (stores : before.Stores place key content) (grows : before.Grows guarded after)
    (present : content.isMissing = false) : after.ownAt? place key = before.ownAt? place key := by
  obtain ⟨slot, flags, own⟩ := stores
  obtain ⟨object, found, ordinary, _⟩ := slot_of_placement slot
  have isSlot : Entries.get? object.slots key = some (.data content flags) := by
    rwa [ownAt?, found, Option.bind_some, Object.own?_eq_slot ordinary] at own
  obtain ⟨later, foundLater, slotLater⟩ := grows.slots found isSlot present
  obtain ⟨other, foundOther, _, _, nature⟩ := grows.toFollows.kept found
  rw [foundLater, Option.some.injEq] at foundOther
  subst foundOther
  rw [own, ownAt?, foundLater, Option.bind_some,
    Object.own?_eq_slot (intrinsic?_of_nature nature ordinary), slotLater]

/-- Steps lead from numbers to the very same value, if there are any steps. -/
theorem travel?_eq_of_like (graph : Graph) {value other : Value} (like : Value.Like value other)
    {steps : List Step} (anySteps : steps ≠ []) :
    graph.travel? other steps = graph.travel? value steps := by
  cases steps with
  | nil => exact absurd rfl anySteps
  | cons step rest => rw [travel?, travel?, like.isMissing, take?_of_like graph like]

/-- The way to a value in a slot leads to that value in a grown graph as well. -/
theorem Leads.travel?_of_grows {root content : Value} {leading : List Step} {final : Step}
    {place : Nat} (leads : before.Leads root leading final place)
    (stores : before.Stores place final.key content) (grows : before.Grows guarded after)
    (guards : Guards guarded (leading ++ [final])) (present : content.isMissing = false) :
    after.travel? root (leading ++ [final]) = some content := by
  have closed := leads.classed.toClosed
  obtain ⟨guardsLeading, guardsFinal⟩ := Guards.append.1 guards
  obtain ⟨holder, travelled, like⟩ := grows.travel? closed leads.known guardsLeading
    (Value.Like.refl root) leads.travelled rfl
  rw [like.eq_of_object rfl] at travelled
  obtain ⟨flags, own⟩ := stores.2
  have looked : after.look? (.object place) final.key = some content := by
    rw [look?, find?, own?, stores.ownAt?_of_grows grows present, own]
  obtain ⟨object, found, _⟩ := slot_of_placement leads.accepts.slot
  have knownHolder : before.Knows (.object place) := knows_object.2 (lt_of_object? found)
  have taken := take?_of_accepts grows.toSteady closed knownHolder guardsFinal leads.opens
    leads.accepts looked
  rw [travel?_append, travelled, Option.bind_some, Graph.travel?, if_neg (by rintro ⟨⟩), taken]
  rfl

end Graph

/-! ## Values that are filled in -/

namespace Scene

variable {scene : Scene} {floor : Nat} {target : Value} {resolver : Resolver}

/-- A missing value that is filled in is put into a slot for the last step of the node.  The other
steps lead there, if nothing was lost on the way. -/
theorem fill_stores {supply : Factory} {arguments : Option ArgumentMap}
    (supplies : scene.Supplies floor supply arguments) {graph : Graph}
    (entry : scene.Entry floor graph graph target) {node : Node} (plainNode : node.isPlain = true)
    (within : Within scene.keys (node.steps resolver)) {content : Value}
    (travelled : graph.travel? target (node.steps resolver) = some content)
    (missing : content.isMissing = true) :
    Ensures (node.fill resolver arguments supply (.onValue target)) graph
      (fun filling later => ∀ type made inPlace, filling = .filled type made inPlace →
        ∃ place, later.Stores place (node.final resolver).key made ∧
          (inPlace = true → Guards scene.guarded (node.steps resolver) →
            later.Leads target (node.leading resolver) (node.final resolver) place))
      fun _ _ => True := by
  have sound := entry.holds.sound
  unfold Node.fill
  refine (Node.typeAt_peeks sound entry.present entry.plain arguments plainNode
    within).ensures_bind ?_ fun _ => trivial
  intro type requested
  refine Ensures.bind_weaker (produce_ensures supplies entry.holds entry.above requested)
    (fun _ _ _ => trivial) ?_
  intro made middle made_
  have since := made_.extends_
  have entryMade := entry.later since made_.sound
  split
  case isTrue => rintro _ _ _ ⟨⟩
  case isFalse =>
    refine Ensures.bind_weaker (approach_ensures supplies entryMade plainNode within)
      (fun _ _ _ => trivial) ?_
    intro arrival later arrives
    cases arrival with
    | refused => rintro _ _ _ ⟨⟩
    | reached holder attached =>
        obtain ⟨kept, reached, vacancy⟩ := arrives
        have vacant := vacancy content
          (since.travel?_of_some sound.toClosed entry.known travelled) missing
        have knownTarget := kept.grows.knows (since.follows.knows entry.known)
        have known := kept.grows.knows made_.known
        have calm : ∀ key ∈ scene.guarded, later.isCallable made = false := by
          intro key isGuarded
          rw [kept.grows.isCallable made_.known]
          exact made_.calm key isGuarded
        have settles := settle_filled plainNode within entryMade.holds kept knownTarget reached
          vacant known (kept.plain (Nat.le_refl floor) made_.known made_.plain) calm
        have named := (Within.append.1 within).2 (node.final resolver) (by simp)
        obtain ⟨found, looked, _⟩ := reached.plain.look? reached.present named
        refine Ensures.bind_weaker (Ensures.and settles (Node.settle_ensures kept.holds.sound made
          plainNode looked vacant.isLength)) (fun _ _ _ => trivial) ?_
        rintro _ final ⟨filled, place, rfl, accepts, rfl⟩ _ _ _ ⟨⟩
        -- The steps lead to the slot only if what holds it was put into its own place.
        refine ⟨place, stores_store made accepts.slot, fun isAttached guards => ?_⟩
        obtain ⟨guardsLeading, _⟩ := Guards.append.1 guards
        have leads : later.Leads target (node.leading resolver) (node.final resolver) place :=
          ⟨kept.holds.sound.toClassed, knownTarget, (reached.way isAttached guardsLeading).1,
            reached.opens, accepts, vacant.untouched isAttached guardsLeading place rfl⟩
        refine (leads.store known fun _ => ?_).1
        rw [show node.leading resolver ++ [node.final resolver] = node.steps resolver from rfl,
          (filled.way isAttached guards).1]
        rfl

end Scene

/-! ## What the log reports -/

/-- What is reported of a missing value that was filled in: the number of the node, the value that
it got, and the graph at that moment. -/
structure Report where
  index : Nat
  value : Value
  moment : Graph

def Event.report? : Event → Option Report
  | .filled _ _ index _ _ value moment => some ⟨index, value, moment⟩
  | _ => none

theorem Event.report?_of_isHandled {event : Event} (isHandled : event.isHandled = true) :
    event.report? = none := by
  cases event <;> first | rfl | cases isHandled

/-- What events report to be filled in, in order. -/
def reports (events : List Event) : List Report :=
  events.filterMap Event.report?

/-- What comes of a report, its handlers and later events. -/
theorem reports_cons {event : Event} {report : Report} (isReport : event.report? = some report)
    {handled : List Event} (allHandled : ∀ event ∈ handled, event.isHandled = true)
    (added : List Event) :
    reports (event :: handled ++ added) = report :: reports added := by
  have silent : handled.filterMap Event.report? = [] :=
    List.filterMap_eq_nil_iff.2 fun other member =>
      Event.report?_of_isHandled (allHandled other member)
  rw [reports, List.cons_append, List.filterMap_cons_some isReport, List.filterMap_append, silent,
    List.nil_append, reports]

namespace Graph

/-- Reports of nodes that follow each other, the first of which has some number: every one is of a
later node than the one before it, and its value is still in the slot that it was put into. -/
structure Keeps (graph : Graph) (resolver : Resolver) (first : Nat) (nodes : List Node)
    (reported : List Report) : Prop where
  ordered : reported.Pairwise fun early late => early.index < late.index
  inside : ∀ report ∈ reported, first ≤ report.index ∧ report.index < first + nodes.length
  present : ∀ report ∈ reported, report.value.isMissing = false
  slots : ∀ report ∈ reported, ∃ node place flags, nodes[report.index - first]? = some node ∧
    report.moment.ownAt? place (node.final resolver).key = some (.data report.value flags) ∧
    graph.ownAt? place (node.final resolver).key = some (.data report.value flags)

/-- The nodes up to each reported one lead to the value that was reported. -/
def Recalls (graph : Graph) (resolver : Resolver) (target : Value) (first : Nat)
    (nodes : List Node) (reported : List Report) : Prop :=
  ∀ report ∈ reported, graph.travel? target
    (stepsOf resolver (nodes.take (report.index + 1 - first))) = some report.value

section Reports

variable {graph : Graph} {resolver : Resolver} {target next : Value} {first : Nat} {node : Node}
  {rest : List Node} {reported : List Report}

theorem Keeps.nil (graph : Graph) (resolver : Resolver) (first : Nat) (nodes : List Node) :
    graph.Keeps resolver first nodes [] :=
  ⟨.nil, nofun, nofun, nofun⟩

/-- What is reported after a node, as seen from before it. -/
theorem Keeps.after_node (keeps : graph.Keeps resolver (first + 1) rest reported) :
    graph.Keeps resolver first (node :: rest) reported where
  ordered := keeps.ordered
  inside := by
    intro report member
    obtain ⟨above, below⟩ := keeps.inside report member
    rw [List.length_cons]
    omega
  present := keeps.present
  slots := by
    intro report member
    obtain ⟨above, _⟩ := keeps.inside report member
    obtain ⟨other, place, flags, found, slots⟩ := keeps.slots report member
    refine ⟨other, place, flags, ?_, slots⟩
    rw [show report.index - first = report.index - (first + 1) + 1 by omega]
    exact found

/-- A node that is filled in, and what is reported after it. -/
theorem Keeps.cons {moment : Graph} (keeps : graph.Keeps resolver (first + 1) rest reported)
    (present : next.isMissing = false) {place : Nat}
    (stores : moment.Stores place (node.final resolver).key next) {guarded : List Key}
    (grows : moment.Grows guarded graph) :
    graph.Keeps resolver first (node :: rest) (⟨first, next, moment⟩ :: reported) where
  ordered := .cons (fun report member => (keeps.inside report member).1) keeps.ordered
  inside := by
    intro report member
    rcases List.mem_cons.1 member with rfl | later
    · exact ⟨Nat.le_refl first, by simp⟩
    · exact keeps.after_node.inside report later
  present := by
    intro report member
    rcases List.mem_cons.1 member with rfl | later
    · exact present
    · exact keeps.present report later
  slots := by
    intro report member
    rcases List.mem_cons.1 member with rfl | later
    · obtain ⟨flags, own⟩ := stores.2
      exact ⟨node, place, flags, by simp, own, (stores.ownAt?_of_grows grows present).trans own⟩
    · exact keeps.after_node.slots report later

theorem Recalls.after_node (recalls : graph.Recalls resolver next (first + 1) rest reported)
    (keeps : graph.Keeps resolver (first + 1) rest reported) {found : Value}
    (travelled : graph.travel? target (node.steps resolver) = some found)
    (like : Value.Like next found) : graph.Recalls resolver target first (node :: rest) reported := by
  intro report member
  obtain ⟨above, below⟩ := keeps.inside report member
  obtain ⟨count, isCount⟩ := Nat.exists_eq_add_of_le above
  have leads := recalls report member
  rw [show report.index + 1 - (first + 1) = count + 1 by omega] at leads
  have anySteps : stepsOf resolver (rest.take (count + 1)) ≠ [] := by
    cases rest with
    | nil => simp at below; omega
    | cons other others => simp [stepsOf, Node.steps]
  rw [show report.index + 1 - first = count + 1 + 1 by omega, List.take_succ_cons, stepsOf_cons,
    travel?_append, travelled, Option.bind_some, graph.travel?_eq_of_like like anySteps, leads]

theorem Recalls.cons {moment : Graph}
    (recalls : graph.Recalls resolver next (first + 1) rest reported)
    (keeps : graph.Keeps resolver (first + 1) rest reported)
    (travelled : graph.travel? target (node.steps resolver) = some next) :
    graph.Recalls resolver target first (node :: rest) (⟨first, next, moment⟩ :: reported) := by
  intro report member
  rcases List.mem_cons.1 member with rfl | later
  · rw [show first + 1 - first = 1 by omega, List.take_succ_cons, List.take_zero, stepsOf_cons]
    simpa [stepsOf] using travelled
  · exact recalls.after_node keeps travelled (Value.Like.refl next) report later

end Reports

end Graph

/-! ## Walks -/

namespace Scene

open Session

variable {scene : Scene} {floor : Nat} {target : Value}

/-- What a walk fills in is where the log says when the walk has ended, and the nodes lead there if
the factory is generous. -/
theorem track_settles (path : Path) {resolver : Resolver} {supply : Factory}
    {arguments : Option ArgumentMap} {nodes : List Node}
    (plainNodes : ∀ node ∈ nodes, node.isPlain = true)
    (within : Within scene.keys (stepsOf resolver nodes))
    (supplies : scene.Supplies floor supply arguments) (index : Nat) (attached : Bool)
    {world : World} (quiet : world.Quiet) (holds : scene.Holds world.graph)
    (above : floor ≤ world.graph.objects.size) (known : world.graph.Knows target)
    (present : target.isMissing = false) (plain : world.graph.Plain scene.keys floor target) :
    Ensures (track path resolver ⟨arguments, some supply⟩ index (.onValue target) attached nodes)
      world
      (fun _ later => ∃ added, later.events = world.events ++ added ∧
        later.graph.Keeps resolver index nodes (reports added) ∧
        (scene.generous → Guards scene.guarded (stepsOf resolver nodes) →
          later.graph.Recalls resolver target index nodes (reports added)))
      fun _ _ => True := by
  -- Induction on the nodes. What is said of the rest of the walk is about its end, so what this
  -- node has got is carried there along with the graph.
  induction nodes generalizing target index attached world with
  | nil => exact ⟨[], (List.append_nil _).symm, .nil .., fun _ _ => nofun⟩
  | cons node rest inductionHypothesis =>
      have plainNode := plainNodes node (List.mem_cons_self ..)
      have plainRest : ∀ other ∈ rest, other.isPlain = true :=
        fun other member => plainNodes other (List.mem_cons_of_mem node member)
      rw [stepsOf_cons] at within ⊢
      obtain ⟨withinNode, withinRest⟩ := Within.append.1 within
      have sound := holds.sound
      have entry := Entry.at_once holds above known present plain
      refine track_cons plainNode withinNode sound present plain (fun _ => trivial) ?_ ?_
      · intro content travelled presentNext
        have knownNext :=
          (Extends.refl world.graph).travel?_known sound.toClosed known travelled
        have plainNext := plain.travel? withinNode travelled
        refine Ensures.mono (Ensures.and
          (track_ensures path plainRest withinRest supplies (index + 1) attached quiet holds above
            knownNext presentNext plainNext)
          (inductionHypothesis plainRest withinRest (index + 1) attached quiet holds above
            knownNext presentNext plainNext)) ?_ fun _ _ _ => trivial
        rintro _ later ⟨⟨onward, _⟩, added, events, keeps, recalls⟩
        refine ⟨added, events, keeps.after_node, fun generous guards => ?_⟩
        obtain ⟨guardsNode, guardsRest⟩ := Guards.append.1 guards
        obtain ⟨found, travelledLater, like⟩ := onward.kept.grows.travel? sound.toClosed known
          guardsNode (Value.Like.refl target) travelled presentNext
        exact (recalls generous guardsRest).after_node keeps travelledLater like
      · intro content travelled missing
        refine Ensures.mono (Ensures.and
          (fill_ensures supplies entry plainNode withinNode travelled missing)
          (fill_stores supplies entry plainNode withinNode travelled missing)) ?_
          fun _ _ _ => trivial
        rintro filling graph ⟨⟨kept, fillsIn⟩, stores⟩
        have quietFilled : World.Quiet { world with graph := graph } := quiet
        cases filling with
        | refused type => exact ⟨[], (List.append_nil _).symm, .nil .., fun _ _ => nofun⟩
        | filled type made inPlace =>
            obtain ⟨isType, fills⟩ := fillsIn
            obtain ⟨place, stored, leads⟩ := stores type made inPlace rfl
            refine Ensures.bind_weaker (Ensures.and
              (reportFilled_ensures index node made quietFilled kept.holds.sound isType)
              (reportFilled_reports index node made quietFilled kept.holds.sound isType))
              (fun _ _ _ => trivial) ?_
            rintro _ reported ⟨goesOn, typeName, handled, events, allHandled⟩
            obtain rfl : reported.graph = graph := goesOn.1
            have quietReported := goesOn.2.quiet quietFilled
            have aboveLater := Nat.le_trans above fills.kept.grows.size
            refine Ensures.mono (Ensures.and
              (track_ensures path plainRest withinRest supplies (index + 1) (attached && inPlace)
                quietReported fills.kept.holds aboveLater fills.known fills.present fills.plain)
              (inductionHypothesis plainRest withinRest (index + 1) (attached && inPlace)
                quietReported fills.kept.holds aboveLater fills.known fills.present
                fills.plain)) ?_ fun _ _ _ => trivial
            rintro _ final ⟨⟨onward, _⟩, added, eventsFinal, keeps, recalls⟩
            have isReported := reports_cons (show (Event.filled path.compiler path.source index
              node.text typeName made reported.graph).report? = some _ from rfl) allHandled added
            refine ⟨.filled path.compiler path.source index node.text typeName made
              reported.graph :: handled ++ added, ?_, ?_, fun generous guards => ?_⟩
            · rw [eventsFinal, events, List.append_assoc]
            · rw [isReported]
              exact keeps.cons fills.present stored onward.kept.grows
            · obtain ⟨guardsNode, guardsRest⟩ := Guards.append.1 guards
              cases inPlace with
              | false => exact absurd generous (fills.lost rfl).1
              | true =>
                  rw [isReported]
                  exact (recalls generous guardsRest).cons keeps ((leads rfl
                    guardsNode).travel?_of_grows stored onward.kept.grows guardsNode fills.present)

/-- A walk with a generous factory that ends normally has come to a value, and has filled in what
was missing on the way to it. -/
theorem walk_settles (path : Path) {resolver : Resolver} {supply : Factory}
    {arguments : Option ArgumentMap} {nodes : List Node} (generous : scene.generous)
    (plainNodes : ∀ node ∈ nodes, node.isPlain = true)
    (within : Within scene.keys (stepsOf resolver nodes))
    (supplies : scene.Supplies floor supply arguments) {world later : World} (quiet : world.Quiet)
    (holds : scene.Holds world.graph) (above : floor ≤ world.graph.objects.size)
    (known : world.graph.Knows target) (present : target.isMissing = false)
    (plain : world.graph.Plain scene.keys floor target) {index : Nat} {walk : Walk}
    (walked : Session.walk path resolver ⟨arguments, some supply⟩ index (.onValue target) nodes
      world = .ok walk later) :
    ∃ value added, walk = .arrived (.onValue value) ∧ scene.Onward floor world later ∧
      scene.Comes floor (scene.Isolates supply arguments) world.graph target
        (stepsOf resolver nodes) true value true later.graph ∧
      later.events = world.events ++ added ∧ (∀ event ∈ added, event.isOnTheWay = true) ∧
      later.graph.Keeps resolver index nodes (reports added) ∧
      (Guards scene.guarded (stepsOf resolver nodes) →
        later.graph.Recalls resolver target index nodes (reports added)) := by
  rw [walk_eq _ _ _ _ _ true plainNodes] at walked
  obtain ⟨arrival, reached, tracked, same⟩ := ok_of_bind walked
  cases same
  obtain ⟨onward, ends⟩ := (track_ensures path plainNodes within supplies index true quiet holds above
    known present plain).ok tracked
  obtain ⟨added, events, keeps, recalls⟩ := (track_settles path plainNodes within supplies index true
    quiet holds above known present plain).ok tracked
  obtain ⟨others, sameEvents, onTheWay⟩ := onward.advances.events
  rw [events, List.append_cancel_left_eq] at sameEvents
  subst sameEvents
  cases arrival with
  | stopped stop type =>
      obtain ⟨_, _, _, notGenerous⟩ := ends
      exact absurd generous notGenerous
  | arrived position inPlace =>
      obtain ⟨value, rfl, comes⟩ := ends
      cases inPlace with
      | true => exact ⟨value, added, rfl, onward, comes, events, onTheWay, keeps, recalls generous⟩
      | false =>
          rcases comes.lost rfl with impossible | ⟨notGenerous, _⟩
          · cases impossible
          · exact absurd generous notGenerous

end Scene

/-! ## Reads -/

namespace Path

/-- The path of the nodes up to one of a path and with it. -/
def upTo (path : Path) (index : Nat) : Path :=
  { path with
    nodes := path.nodes.take (index + 1)
    nodes_ne_nil := by simpa using path.nodes_ne_nil }

theorem IsPlain.upTo {path : Path} (plainPath : path.IsPlain) (index : Nat) :
    (path.upTo index).IsPlain :=
  fun node member => plainPath node (List.take_subset _ _ member)

end Path

namespace Session

variable {path : Path} {world later : World} {root result : Value}

/-- The path of the nodes up to a reported one reads what was reported. -/
theorem getValue_upTo {resolver : Resolver} {count : Nat} {reported : List Report}
    (plainPath : path.IsPlain) (same : path.resolverIn world = resolver)
    (dynamic : path.isStatic = false) (classed : world.graph.Classed)
    (present : root.isMissing = false)
    (keeps : world.graph.Keeps resolver 0 (path.nodes.take count) reported)
    (recalls : world.graph.Recalls resolver root 0 (path.nodes.take count) reported)
    {report : Report} (member : report ∈ reported) (arguments : Option ArgumentMap) :
    getValue (path.upTo report.index) root ⟨arguments, none⟩ world = .ok report.value world := by
  obtain ⟨_, inside⟩ := keeps.inside report member
  rw [Nat.zero_add, List.length_take] at inside
  have leads := recalls report member
  rw [Nat.sub_zero, List.take_take, Nat.min_eq_left (by omega)] at leads
  have isRead : getValue (path.upTo report.index) root ⟨arguments, none⟩ world = _ :=
    getValue_of_travel? (plainPath.upTo report.index) same dynamic classed present leads
  rwa [Value.orNull, keeps.present report member, if_neg Bool.false_ne_true] at isRead

/-- If the nodes before the last one lead to a value, a read gives what the last one leads to from
there, whatever factory it has, and changes nothing. -/
theorem getValue_of_present {options : EvaluateOptions} {resolver : Resolver}
    {middle content : Value} (plainPath : path.IsPlain) (same : path.resolverIn world = resolver)
    (dynamic : path.isStatic = false) (classed : world.graph.Classed)
    (present : root.isMissing = false)
    (travelled : world.graph.travel? root (stepsOf resolver path.nodes.dropLast) = some middle)
    (there : middle.isMissing = false)
    (onward : world.graph.travel? middle (path.lastNode.steps resolver) = some content) :
    getValue path root options world = .ok content.orNull world := by
  have sameResolver : (world.compiler path.compiler).resolver = resolver := same
  have walked : walkPath path (.onValue root) options world =
      .ok (.arrived (.onValue middle)) world := by
    unfold walkPath
    rw [bind_of_ok (resolverOf_eq path world), sameResolver,
      walk_eq _ _ _ _ _ true plainPath.dropLast,
      bind_of_ok (track_of_present classed 0 true plainPath.dropLast present travelled there)]
    rfl
  unfold getValue evaluate
  rw [present, dynamic, if_neg Bool.false_ne_true, if_neg Bool.false_ne_true, bind_of_ok walked]
  dsimp only
  rw [bind_of_ok (resolverOf_eq path world), sameResolver,
    bind_of_ok (read_of_travel? classed plainPath.lastNode there onward)]
  rfl

/-- What a read reports to be filled in comes in the order of the nodes, before the last one, and is
what the nodes up to there read afterwards.  The same read gives its value again, with a factory
or without one, and changes nothing. -/
def SettlesOn (path : Path) (root result : Value) (world later : World) : Prop :=
  (∃ added, later.events = world.events ++ added ∧ (∀ event ∈ added, event.isOnTheWay = true) ∧
      (reports added).Pairwise (fun early late => early.index < late.index) ∧
      ∀ report ∈ reports added, report.index + 1 < path.size ∧ ∀ again,
        getValue (path.upTo report.index) root ⟨again, none⟩ later = .ok report.value later) ∧
    ∀ options, getValue path root options later = .ok result later

/-- A read from a value that is there settles. -/
theorem evaluate_settles (meets : path.Meets world root)
    (grounded : path.Grounded world sharedValues)
    (constructs : (path.standardScene world root).Constructs) (present : root.isMissing = false)
    (dynamic : path.isStatic = false) {arguments : Option ArgumentMap}
    (ended : evaluate path (.onValue root) ⟨arguments, some standardFactory⟩ world =
      .ok result later) :
    SettlesOn path root result world later := by
  have guards := path.guards_fieldKeys (path.resolverIn world)
  have within : Within (path.standardScene world root).keys
      (path.steps (path.resolverIn world)) := Within.refl _
  rw [Path.steps_eq_append] at guards within
  obtain ⟨guardsFirst, _⟩ := Guards.append.1 guards
  obtain ⟨withinFirst, withinLast⟩ := Within.append.1 within
  have supplies : (path.standardScene world root).Supplies 0 standardFactory arguments :=
    Scene.supplies_standard (path.furnished_scene world root _ True) constructs arguments
  have holds : (path.standardScene world root).Holds world.graph :=
    meets.holds grounded (path.fieldKeys (path.resolverIn world)) True
  obtain ⟨walk, middle, walked, reads⟩ := ok_of_bind ended
  unfold walkPath at walked
  rw [bind_of_ok (resolverOf_eq path world)] at walked
  obtain ⟨value, added, rfl, onward, comes, events, onTheWay, keeps, recalls⟩ :=
    Scene.walk_settles path trivial meets.plainPath.dropLast withinFirst supplies meets.quiet holds
      (Nat.zero_le _) meets.known present meets.plain walked
  obtain ⟨found, travelled, like⟩ := (comes.way rfl).2 guardsFirst
  have sound := onward.kept.holds.sound
  have sameResolver : (middle.compiler path.compiler).resolver = path.resolverIn world :=
    onward.advances.resolver path.compiler
  -- The last node is only read.
  dsimp only at reads
  rw [bind_of_ok (resolverOf_eq path middle), sameResolver] at reads
  obtain ⟨content, final, isRead, isResult⟩ := ok_of_bind reads
  cases isResult
  obtain ⟨rfl, isContent⟩ := (onGraph_peeks ((Node.read_answers sound.toClassed comes.present
    arguments meets.plainPath.lastNode withinLast).peeks ⟨sound, comes.plain⟩)).ok isRead
  refine ⟨⟨added, events, onTheWay, keeps.ordered, fun report member => ?_⟩, fun options => ?_⟩
  · obtain ⟨_, inside⟩ := keeps.inside report member
    rw [List.length_dropLast] at inside
    have leads := recalls guardsFirst
    rw [List.dropLast_eq_take] at keeps leads
    exact ⟨by rw [Path.size]; omega, getValue_upTo meets.plainPath sameResolver dynamic
      sound.toClassed present keeps leads member⟩
  · have anySteps : path.lastNode.steps (path.resolverIn world) ≠ [] := by simp [Node.steps]
    refine getValue_of_present meets.plainPath sameResolver dynamic sound.toClassed present travelled
      (like.isMissing.trans comes.present) ?_
    rw [Graph.travel?_eq_of_like _ like anySteps, isContent]

/-- The path of an element of a row of a grid, as a node of its own. -/
def rowPath : Path where
  compiler := World.standardPlace
  serial := 0
  source := "cells[1].[0]"
  nodes := [.array 2 "cells[1]" 1 (some (.field 0 "cells")), .array 1 "[0]" 0 none]
  nodes_ne_nil := List.cons_ne_nil _ _
  rootType := none

/-- The standard graph with a class of makers, which declares a field for a function, and a class
of parts that share a maker.  The last object is a part that holds a record of what parts share. -/
@[irreducible]
def partsGraph : Graph :=
  stateAfter (do
    let maker ← Run.newClass "Maker" none ⟨none, none, []⟩
    Run.declareField (← Run.read maker "prototype") "make" (.object BuiltinClass.function.place)
    let part ← Run.newClass "Part" none ⟨none, none, []⟩
    let shared ← Run.read part "prototype"
    Run.define shared (.name "constructor") maker
    let record ← Run.allocate ⟨some BuiltinClass.object.sharedPlace, .plain,
      Run.dataSlots [(.name "shared", shared)], true⟩
    Run.allocate ⟨shared.place?, .plain,
      Run.dataSlots [(.name "constructor", part), (.name "make", record)], true⟩)
    Graph.standard

/-- The record of what parts share. -/
def partRecord : Value :=
  .object (partsGraph.objects.size - 2)

/-- The part with the record. -/
def part : Value :=
  .object (partsGraph.objects.size - 1)

/-- The path from a part to the name of the function that parts share. -/
def makerPath : Path where
  compiler := World.standardPlace
  serial := 0
  source := "make.shared.make.name"
  nodes := [.field 0 "make", .field 1 "shared", .field 0 "make", .field 2 "name"]
  nodes_ne_nil := List.cons_ne_nil _ _
  rootType := none

end Session

end ObjectPath
