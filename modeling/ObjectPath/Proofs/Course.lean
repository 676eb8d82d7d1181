import ObjectPath.Proofs.Route

/-!
# The course of a walk

A walk with a factory keeps everything that an evaluation relies on, and gives no write up.
The nodes that it has passed lead to the position that it has come to, as long as every array
that was made is in its place.  Where one is not, and the factory only makes values that are
apart from all others, the nodes lead to nothing from then on.
-/

namespace ObjectPath

open Graph

namespace Scene

variable {scene : Scene} {floor : Nat} {target value : Value}

/-- What a session of an evaluation keeps. -/
structure Onward (scene : Scene) (floor : Nat) (before after : World) : Prop where
  kept : scene.Kept floor before.graph after.graph
  advances : World.Advances Event.isOnTheWay before after

theorem Onward.refl {world : World} (holds : scene.Holds world.graph) :
    scene.Onward floor world world :=
  ⟨.refl holds, .refl world⟩

theorem Onward.trans {first second third : World} (left : scene.Onward floor first second)
    (right : scene.Onward floor second third) : scene.Onward floor first third :=
  ⟨left.kept.trans right.kept, left.advances.trans right.advances⟩

theorem Onward.of_graph {world : World} {graph : Graph}
    (kept : scene.Kept floor world.graph graph) :
    scene.Onward floor world { world with graph := graph } :=
  ⟨kept, World.advances_graph _ world graph⟩

theorem Onward.report {first second third : World} (onward : scene.Onward floor first second)
    (goesOn : Session.GoesOn Event.isOnTheWay second third) : scene.Onward floor first third where
  kept := by
    rw [goesOn.1]
    exact onward.kept
  advances := onward.advances.trans goesOn.2

/-- Some steps have been leading to nothing since an earlier graph, which was only added to. -/
structure Strays (scene : Scene) (before : Graph) (target : Value) (steps : List Step)
    (earlier after : Graph) : Prop where
  sound : earlier.Sound
  grows : before.Grows scene.guarded earlier
  extends_ : earlier.Extends after
  nothing : ∃ content, earlier.travel? target steps = some content ∧ content.isMissing = true

/-- A walk has come to a value. -/
structure Comes (scene : Scene) (floor : Nat) (isolated : Prop) (before : Graph)
    (target : Value) (steps : List Step) (attached : Bool) (value : Value) (inPlace : Bool)
    (after : Graph) : Prop where
  known : after.Knows value
  present : value.isMissing = false
  plain : after.Plain scene.keys floor value
  way : inPlace = true → attached = true ∧ (Guards scene.guarded steps →
    ∃ found, after.travel? target steps = some found ∧ Value.Like value found)
  lost : inPlace = false → attached = false ∨ ¬ scene.generous ∧
    (Guards scene.guarded steps → isolated → ∃ earlier, scene.Strays before target steps earlier after ∧
      after.Plain scene.keys earlier.objects.size value)

/-- Where a walk may have ended, if nothing failed. -/
def Ends (scene : Scene) (floor : Nat) (isolated : Prop) (before : Graph) (target : Value)
    (steps : List Step) (attached : Bool) (after : Graph) : Session.Track → Prop
  | .stopped _ type => ∃ requested, type = some requested ∧ after.IsType requested ∧
      ¬ scene.generous
  | .arrived position inPlace => ∃ value, position = .onValue value ∧
      scene.Comes floor isolated before target steps attached value inPlace after

/-! ## Ways in a row -/

/-- A way to a value that goes on from there leads on in a grown graph. -/
theorem travel?_onward {guarded : List Key} {before after : Graph} {middle found : Value}
    {first second : List Step} (grows : before.Grows guarded after) (closed : before.Closed)
    (known : before.Knows target) (guards : Guards guarded first)
    (travelled : before.travel? target first = some middle) (present : middle.isMissing = false)
    (onward : after.travel? middle second = some found) :
    ∃ other, after.travel? target (first ++ second) = some other ∧ Value.Like found other := by
  obtain ⟨later, travelledLater, like⟩ :=
    grows.travel? closed known guards (Value.Like.refl target) travelled present
  rw [travel?_append, travelledLater, Option.bind_some]
  exact after.travel?_of_like like onward

/-- A walk that comes to a value from the value of its first node comes to it from before. -/
theorem Comes.after_node {isolated : Prop} {before middle after : Graph} {next : Value}
    {first second : List Step} {attached attachedNext inPlace : Bool}
    (comes : scene.Comes floor isolated middle next second attachedNext value inPlace after)
    (grows : before.Grows scene.guarded middle) (onward : middle.Grows scene.guarded after)
    (closed : middle.Closed) (known : middle.Knows target) (present : next.isMissing = false)
    (way : attachedNext = true → attached = true ∧
      (Guards scene.guarded first → middle.travel? target first = some next))
    (lost : attachedNext = false → attached = false ∨ ¬ scene.generous ∧
      (isolated → ∃ earlier, scene.Strays before target (first ++ second) earlier after ∧
        after.Plain scene.keys earlier.objects.size value)) :
    scene.Comes floor isolated before target (first ++ second) attached value inPlace after where
  known := comes.known
  present := comes.present
  plain := comes.plain
  way := by
    intro isInPlace
    obtain ⟨isAttached, leads⟩ := comes.way isInPlace
    obtain ⟨attachedBefore, leadsFirst⟩ := way isAttached
    refine ⟨attachedBefore, fun guards => ?_⟩
    obtain ⟨guardsFirst, guardsSecond⟩ := Guards.append.1 guards
    obtain ⟨found, travelled, like⟩ := leads guardsSecond
    obtain ⟨other, travelledAll, likeOther⟩ := travel?_onward onward closed known guardsFirst
      (leadsFirst guardsFirst) present travelled
    exact ⟨other, travelledAll, like.trans likeOther⟩
  lost := by
    intro isLost
    cases isAttached : attachedNext with
    | false => exact (lost isAttached).imp_right fun ⟨notGenerous, strays⟩ =>
        ⟨notGenerous, fun _ => strays⟩
    | true =>
        rcases comes.lost isLost with impossible | ⟨notGenerous, strays⟩
        · rw [isAttached] at impossible
          cases impossible
        · refine Or.inr ⟨notGenerous, fun guards isolated => ?_⟩
          obtain ⟨guardsFirst, guardsSecond⟩ := Guards.append.1 guards
          obtain ⟨earlier, stray, apart⟩ := strays guardsSecond isolated
          obtain ⟨content, travelled, missing⟩ := stray.nothing
          obtain ⟨other, travelledAll, like⟩ := travel?_onward stray.grows closed known guardsFirst
            ((way isAttached).2 guardsFirst) present travelled
          exact ⟨earlier, ⟨stray.sound, grows.trans stray.grows, stray.extends_, other,
            travelledAll, by rw [like.isMissing, missing]⟩, apart⟩

end Scene

/-! ## Reports -/

namespace Session

open World

theorem reportFilled_ensures {path : Path} (index : Nat) (node : Node) {type : Value}
    (value : Value) {world : World} (quiet : world.Quiet) (sound : world.graph.Sound)
    (isType : world.graph.IsType type) :
    Ensures (reportFilled path index node type value) world
      (fun _ later => GoesOn Event.isOnTheWay world later)
      fun _ later => GoesOn Event.isOnTheWay world later := by
  refine (onGraph_peeks (Run.typeName_peeks sound isType)).ensures_bind ?_
    fun _ => ⟨rfl, .refl world⟩
  intro typeName _
  refine Ensures.get_bind ?_
  have goesOn : ∀ {event : Event} {later : World}, event.isFilled = true →
      GoesOn Event.isHandled (world.log event) later → GoesOn Event.isOnTheWay world later := by
    intro event later isFilled handled
    have logged : GoesOn Event.isOnTheWay world (world.log event) :=
      ⟨rfl, advances_log world (by rw [Event.isOnTheWay, isFilled]; rfl)⟩
    exact logged.trans ⟨handled.1, handled.2.mono fun _ isHandled => by
      rw [Event.isOnTheWay, isHandled, Bool.or_true]⟩
  exact Ensures.mono (emit_ensures path.compiler .filled path.source _ quiet)
    (fun _ _ => goesOn rfl) fun _ _ => goesOn rfl

/-- Giving a write up is logged once and leaves the graph alone. -/
theorem abandon_ensures (path : Path) (index : Nat) {type : Value} {world : World}
    (quiet : world.Quiet) (sound : world.graph.Sound) (isType : world.graph.IsType type) :
    Ensures (abandon path index type) world
      (fun _ later => later.graph = world.graph ∧ later.abandonments = world.abandonments + 1)
      fun _ later => later.graph = world.graph := by
  refine (onGraph_peeks (Run.typeName_peeks sound isType)).ensures_bind ?_ fun _ => rfl
  intro typeName _
  refine Ensures.bind_weaker (emit_ensures path.compiler .abandoned path.source _ quiet)
    (fun _ _ goesOn => goesOn.1) ?_
  rintro _ later ⟨sameGraph, handled⟩
  have counted : later.abandonments = world.abandonments + 1 := by
    rw [handled.abandonments fun event isHandled =>
      Event.isAbandoned_of_isOnTheWay (by rw [Event.isOnTheWay, isHandled, Bool.or_true])]
    simp [abandonments, log, List.countP_append, Event.isAbandoned]
  refine Ensures.get_bind ?_
  split
  · have soundLater : later.graph.Sound := sameGraph ▸ sound
    have isTypeLater : later.graph.IsType type := sameGraph ▸ isType
    have fails : Peeks (onGraph (Run.typeName type) >>= fun typeName =>
        onGraph (Run.messageText perform typeName) >>= fun shown =>
          (throw (.instantiation typeName shown none none) : Session Unit)) later
        fun _ => False := by
      refine (onGraph_peeks (Run.typeName_peeks soundLater isTypeLater)).bind ?_
      intro name simple
      exact (onGraph_peeks (Run.messageText_peeks perform simple)).bind fun _ _ => Peeks.throw
    exact fails.ensures (fun _ => False.elim) fun _ => sameGraph
  · exact ⟨sameGraph, counted⟩

end Session

/-! ## Walks -/

namespace Scene

open Session

variable {scene : Scene} {floor : Nat} {target : Value}

theorem Entry.at_once {graph : Graph} (holds : scene.Holds graph)
    (above : floor ≤ graph.objects.size) (known : graph.Knows target)
    (present : target.isMissing = false) (plain : graph.Plain scene.keys floor target) :
    scene.Entry floor graph graph target :=
  ⟨holds, above, holds.sound.toClosed, .refl graph, known, present, plain⟩

/-- A walk that goes on after a missing value was filled in: what the whole of it comes to. -/
theorem Ends.after_fill {isolated : Prop} {before middle after : Graph} {resolver : Resolver}
    {node : Node} {rest : List Step} {made content : Value} {attached inPlace : Bool}
    {arrival : Track} (holds : scene.Holds before) (known : before.Knows target)
    (travelled : before.travel? target (node.steps resolver) = some content)
    (missing : content.isMissing = true)
    (fills : scene.Fills floor isolated before target resolver node made inPlace middle)
    (kept : scene.Kept floor middle after)
    (ends : scene.Ends floor isolated middle made rest (attached && inPlace) after arrival)
    (apart : inPlace = false → isolated →
      scene.Kept before.objects.size middle after ∧
        scene.Ends before.objects.size isolated middle made rest (attached && inPlace) after
          arrival) :
    scene.Ends floor isolated before target (node.steps resolver ++ rest) attached after
      arrival := by
  cases arrival with
  | stopped index type => exact ends
  | arrived position inPlaceAll =>
      obtain ⟨value, rfl, comes⟩ := ends
      refine ⟨value, rfl, comes.after_node fills.kept.grows kept.grows
        fills.kept.holds.sound.toClosed (fills.kept.grows.knows known) fills.present ?_ ?_⟩
      · intro both
        obtain ⟨isAttached, isInPlace⟩ := Bool.and_eq_true_iff.1 both
        exact ⟨isAttached, fills.way isInPlace⟩
      · intro notBoth
        rcases Bool.and_eq_false_iff.1 notBoth with isLost | isLost
        · exact Or.inl isLost
        · obtain ⟨notGenerous, extends_, _⟩ := fills.lost isLost
          refine Or.inr ⟨notGenerous, fun isIsolated => ?_⟩
          obtain ⟨keptApart, other, same, comesApart⟩ := apart isLost isIsolated
          cases same
          obtain ⟨nothing, travelledNothing, nothingMissing⟩ :=
            before.travel?_of_isMissing missing rest
          have travelledAll : before.travel? target (node.steps resolver ++ rest) =
              some nothing := by
            rw [travel?_append, travelled, Option.bind_some, travelledNothing]
          exact ⟨before, ⟨holds.sound, (Extends.refl before).grows holds.sound.toClosed,
            keptApart.above extends_ (Nat.le_refl _), nothing, travelledAll, nothingMissing⟩,
            comesApart.plain⟩

section Cons

variable {path : Path} {resolver : Resolver} {supply : Factory} {arguments : Option ArgumentMap}
  {node : Node} {rest : List Node}

/-- A walk looks at the value of its first node.  If that is there the walk goes on from it, and if
it is missing from what is filled in, after that has been reported. -/
theorem track_cons (plainNode : node.isPlain = true)
    (within : Within scene.keys (node.steps resolver)) {index : Nat} {attached : Bool}
    {world : World} (sound : world.graph.Sound) (present : target.isMissing = false)
    (plain : world.graph.Plain scene.keys floor target) {good : Track → World → Prop}
    {bad : Fault → World → Prop} (unread : ∀ fault, bad fault world)
    (goesOn : ∀ content, world.graph.travel? target (node.steps resolver) = some content →
      content.isMissing = false →
        Ensures (track path resolver ⟨arguments, some supply⟩ (index + 1) (.onValue content)
          attached rest) world good bad)
    (fills : ∀ content, world.graph.travel? target (node.steps resolver) = some content →
      content.isMissing = true →
        Ensures (node.fill resolver arguments supply (.onValue target)) world.graph
          (fun filling graph => match filling with
            | .refused type => good (.stopped index (some type)) { world with graph := graph }
            | .filled type made inPlace =>
                Ensures (reportFilled path index node type made >>= fun _ =>
                  track path resolver ⟨arguments, some supply⟩ (index + 1) (.onValue made)
                    (attached && inPlace) rest) { world with graph := graph } good bad)
          fun fault graph => bad fault { world with graph := graph }) :
    Ensures (track path resolver ⟨arguments, some supply⟩ index (.onValue target) attached
      (node :: rest)) world good bad := by
  unfold track
  refine (onGraph_peeks ((Node.read_answers sound.toClassed present arguments plainNode
    within).peeks ⟨sound, plain⟩)).ensures_bind ?_ unread
  intro content travelled
  split
  case isFalse there => exact goesOn content travelled (by simpa using there)
  case isTrue missing =>
    refine Ensures.bind_weaker (onGraph_ensures (fills content travelled missing)) ?_ ?_
    · rintro fault later ⟨same, failed⟩
      rwa [← same] at failed
    · rintro filling later ⟨same, outcome⟩
      cases filling with
      | refused type => rwa [← same] at outcome
      | filled type made inPlace => rwa [← same] at outcome

end Cons

theorem track_ensures (path : Path) {resolver : Resolver} {supply : Factory}
    {arguments : Option ArgumentMap} {nodes : List Node}
    (plainNodes : ∀ node ∈ nodes, node.isPlain = true)
    (within : Within scene.keys (stepsOf resolver nodes))
    (supplies : scene.Supplies floor supply arguments) (index : Nat) (attached : Bool)
    {world : World} (quiet : world.Quiet) (holds : scene.Holds world.graph)
    (above : floor ≤ world.graph.objects.size) (known : world.graph.Knows target)
    (present : target.isMissing = false) (plain : world.graph.Plain scene.keys floor target) :
    Ensures (track path resolver ⟨arguments, some supply⟩ index (.onValue target) attached nodes)
      world
      (fun arrival later => scene.Onward floor world later ∧
        scene.Ends floor (scene.Isolates supply arguments) world.graph target
          (stepsOf resolver nodes) attached later.graph arrival)
      fun _ later => scene.Onward floor world later := by
  induction nodes generalizing floor target index attached world with
  | nil =>
      refine ⟨.refl holds, target, rfl, known, present, plain, fun isAttached => ?_, Or.inl⟩
      exact ⟨isAttached, fun _ => ⟨target, rfl, Value.Like.refl target⟩⟩
  | cons node rest inductionHypothesis =>
      have plainNode := plainNodes node (List.mem_cons_self ..)
      have plainRest : ∀ other ∈ rest, other.isPlain = true :=
        fun other member => plainNodes other (List.mem_cons_of_mem node member)
      rw [stepsOf_cons] at within
      obtain ⟨withinNode, withinRest⟩ := Within.append.1 within
      have sound := holds.sound
      have entry := Entry.at_once holds above known present plain
      refine track_cons plainNode withinNode sound present plain (fun _ => .refl holds) ?_ ?_
      · intro content travelled presentNext
        refine Ensures.mono (inductionHypothesis plainRest withinRest supplies (index + 1) attached
          quiet holds above ((Extends.refl _).travel?_known sound.toClosed known travelled)
          presentNext (plain.travel? withinNode travelled)) ?_ fun _ _ => id
        rintro arrival later ⟨onward, ends⟩
        refine ⟨onward, ?_⟩
        cases arrival with
        | stopped => exact ends
        | arrived position inPlace =>
            obtain ⟨value, rfl, comes⟩ := ends
            exact ⟨value, rfl, comes.after_node ((Extends.refl _).grows sound.toClosed)
              onward.kept.grows sound.toClosed known presentNext
              (fun isAttached => ⟨isAttached, fun _ => travelled⟩) Or.inl⟩
      · intro content travelled missing
        refine Ensures.mono (fill_ensures supplies entry plainNode withinNode travelled missing) ?_
          fun _ _ => .of_graph
        rintro filling graph ⟨kept, fillsIn⟩
        have filled : scene.Onward floor world { world with graph := graph } := .of_graph kept
        cases filling with
        | refused type => exact ⟨filled, type, rfl, fillsIn⟩
        | filled type made inPlace =>
            obtain ⟨isType, fills⟩ := fillsIn
            refine Ensures.bind_weaker (reportFilled_ensures index node made
              (filled.advances.quiet quiet) kept.holds.sound isType) (fun _ _ => filled.report) ?_
            rintro _ reported goesOn
            obtain rfl : reported.graph = graph := goesOn.1
            have keptReported := (filled.report goesOn).kept
            have quietReported := (filled.report goesOn).advances.quiet quiet
            have aboveAll := fills.kept.grows.size
            have onwards := inductionHypothesis plainRest withinRest supplies
              (index + 1) (attached && inPlace) quietReported keptReported.holds
              (Nat.le_trans above aboveAll) fills.known fills.present fills.plain
            -- If the value is out of place, the rest of the walk stays apart from what was there.
            have apart := Ensures.all
              fun lost : inPlace = false ∧ scene.Isolates supply arguments =>
                inductionHypothesis plainRest withinRest (lost.2 _) (index + 1)
                  (attached && inPlace) quietReported keptReported.holds aboveAll fills.known
                  fills.present ((fills.lost lost.1).2.2 lost.2)
            refine Ensures.mono (Ensures.and onwards apart) ?_ ?_
            · rintro arrival final ⟨⟨onward, ends⟩, endsApart⟩
              refine ⟨(filled.report goesOn).trans onward, ?_⟩
              refine Ends.after_fill holds known travelled missing fills onward.kept
                ends fun isLost isolated => ?_
              exact ⟨(endsApart ⟨isLost, isolated⟩).1.kept, (endsApart ⟨isLost, isolated⟩).2⟩
            · rintro _ final ⟨onward, _⟩
              exact (filled.report goesOn).trans onward

end Scene

end ObjectPath
