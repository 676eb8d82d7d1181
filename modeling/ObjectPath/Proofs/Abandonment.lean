import ObjectPath.Proofs.Chronicle
import ObjectPath.Proofs.Frame

/-!
# Writes that are given up

A write that is given up says so in the log, once and last, and only its handlers are heard
after that.  The log then accounts for all that the write has done: the nodes that it filled in
come before the one at which it was given up, and no slot of an object that was there before
differs but theirs.
-/

namespace ObjectPath

open Graph

theorem Path.size_ne_zero (path : Path) : path.size ≠ 0 :=
  fun empty => path.nodes_ne_nil (List.length_eq_zero_iff.1 empty)

/-- The report that a write of a path was given up at a node. -/
def Path.abandonment (path : Path) (index : Nat) (typeName : Value) : Event :=
  .abandoned path.compiler path.source index ((path.nodes[index]?.map Node.text).getD "") typeName

namespace Session

open World

/-! ## Verdicts -/

/-- A write that is to be given up: the number of the node and the type of the missing value. -/
structure Refusal where
  index : Nat
  type : Value

/-- What becomes of a write at its destination: it is done, or it is to be given up. -/
def verdict (path : Path) (arguments : Option ArgumentMap) (value : Value) :
    Destination → Session (Option Refusal)
  | .stopped index type => pure (some ⟨index, type⟩)
  | .refused position => do
      let type ← onGraph (path.lastNode.typeAt (← resolverOf path) arguments position)
      pure (some ⟨path.size - 1, ← onGraph (Run.arrayOf type)⟩)
  | .reached holder _ => do
      onGraph (path.lastNode.settle (← resolverOf path) holder value)
      pure none

/-- A write without its report that it was given up. -/
def attempt (path : Path) (root value : Value) (options : EvaluateOptions) :
    Session (Option Refusal) := do
  if root.isMissing then
    pure (some ⟨0, openType⟩)
  else
    let world ← get
    approach path (.onValue root) options.arguments (factoryOf path options world) >>=
      verdict path options.arguments value

/-- Ends a write that was attempted. -/
def close (path : Path) : Option Refusal → Session Unit
  | none => pure ()
  | some refusal => abandon path refusal.index refusal.type

theorem setValue_eq {path : Path} (plain : path.IsPlain) (notStatic : path.isStatic = false)
    (root value : Value) (options : EvaluateOptions) (world : World) :
    setValue path root value options world =
      (attempt path root value options >>= close path) world := by
  have concludes : ∀ destination, conclude path options.arguments value destination =
      verdict path options.arguments value destination >>= close path := by
    intro destination
    cases destination with
    | stopped index type => rfl
    | refused position => simp only [conclude, verdict, bind_assoc, pure_bind, close]
    | reached holder attached =>
        simp only [conclude, verdict, bind_assoc, pure_bind, close]
        congr 1
        funext resolver
        exact (bind_pure _).symm
  unfold setValue attempt
  rw [notStatic, if_neg Bool.false_ne_true]
  cases missing : root.isMissing with
  | true => rfl
  | false =>
      simp only [Bool.false_eq_true, if_false, bind_assoc]
      rw [assign_eq plain, bind_get]
      exact congrFun (congrArg _ (funext concludes)) world

/-! ## Reports of writes that were given up -/

/-- Reports that a write is given up, and gives the name of the type in the report. -/
def announce (path : Path) (index : Nat) (type : Value) : Session Value := do
  let typeName ← onGraph (Run.typeName type)
  emit path.compiler .abandoned path.source (path.abandonment index typeName)
  pure typeName

/-- The fault of a strict write that was given up.  A symbol has no text to name a type by. -/
def unmade (typeName : Value) : Fault :=
  match typeName with
  | .symbol _ _ => .use .symbolAsText
  | name => .instantiation name (name.simpleText?.getD "") none none

variable {path : Path} {world : World}

theorem announce_ensures (path : Path) (index : Nat) {type : Value} (quiet : world.Quiet)
    (sound : world.graph.Sound) (isType : world.graph.IsType type) :
    Ensures (announce path index type) world
      (fun typeName later => typeName.isObject = false ∧
        Run.typeName type world.graph = .ok typeName world.graph ∧
        GoesOn Event.isHandled (world.log (path.abandonment index typeName)) later)
      fun _ later => later = world ∨ ∃ typeName,
        GoesOn Event.isHandled (world.log (path.abandonment index typeName)) later := by
  have named := Run.typeName_peeks sound isType
  unfold announce
  cases ended : Run.typeName type world.graph with
  | error fault graph =>
      have same : graph = world.graph := Ensures.error named ended
      have failed : onGraph (Run.typeName type) world = .error fault world := by
        simp only [onGraph, ended, same]
      unfold Ensures
      rw [bind_of_error failed]
      exact Or.inl rfl
  | ok typeName graph =>
      obtain ⟨same, simple⟩ := Ensures.ok named ended
      rw [same] at ended ⊢
      refine Ensures.ok_bind (onGraph_of_ok ended) ?_
      refine Ensures.bind_weaker (emit_ensures path.compiler .abandoned path.source _ quiet)
        (fun _ _ goesOn => Or.inr ⟨typeName, goesOn⟩) ?_
      intro _ final goesOn
      exact ⟨simple, rfl, goesOn⟩

/-- What a strict compiler adds to the report of a write that was given up. -/
def insist (path : Path) (type : Value) : Session Unit := do
  if ((← get).compiler path.compiler).strictWrites then
    let typeName ← onGraph (Run.typeName type)
    throw (.instantiation typeName (← onGraph (Run.messageText perform typeName)) none none)

theorem insist_eq (path : Path) {type typeName : Value} (simple : typeName.isObject = false)
    (named : Run.typeName type world.graph = .ok typeName world.graph) :
    insist path type world =
      if (world.compiler path.compiler).strictWrites then .error (unmade typeName) world
      else .ok () world := by
  unfold insist
  rw [bind_get]
  cases (world.compiler path.compiler).strictWrites with
  | false => rfl
  | true =>
      simp only [if_true]
      rw [bind_of_ok (onGraph_of_ok named)]
      cases typeName <;> first | rfl | cases simple

/-- Giving a write up is reporting it and, with a strict compiler, failing. -/
theorem abandon_eq (path : Path) (index : Nat) {type : Value} (quiet : world.Quiet)
    (sound : world.graph.Sound) (isType : world.graph.IsType type) :
    abandon path index type world = match announce path index type world with
      | .error fault later => .error fault later
      | .ok typeName later =>
          if (world.compiler path.compiler).strictWrites then .error (unmade typeName) later
          else .ok () later := by
  have parts : abandon path index type =
      announce path index type >>= fun _ => insist path type := by
    simp only [abandon, announce, insist, bind_assoc, pure_bind, Path.abandonment]
  rw [parts]
  cases ended : announce path index type world with
  | error fault later => exact bind_of_error ended
  | ok typeName later =>
      obtain ⟨simple, named, sameGraph, advances⟩ :=
        (announce_ensures path index quiet sound isType).ok ended
      have strict : (later.compiler path.compiler).strictWrites =
          (world.compiler path.compiler).strictWrites := advances.strict path.compiler
      -- The type has the same name after the report, for the graph is the same.
      have named : Run.typeName type later.graph = .ok typeName later.graph := by
        rw [sameGraph]
        exact named
      rw [bind_of_ok ended, insist_eq path simple named, strict]

/-! ## What the log says of an attempt -/

/-- The node before which all that was missing has been filled in, if a write is to be given up
at its destination. -/
def Destination.limit? (path : Path) : Destination → Option Nat
  | .stopped index _ => some index
  | .refused _ => some (path.size - 1)
  | .reached _ _ => none

/-- The events since an earlier world account for what has become of its graph. -/
def Chronicled (path : Path) (root : Value) (limit : Nat) (before after : World) : Prop :=
  ∃ added, after.events = before.events ++ added ∧
    Chronicle path (path.resolverIn before) ⟨before.graph, root, 0⟩ added limit after.graph

variable {root : Value} {grounds : List Value} {options : EvaluateOptions}

theorem approach_chronicled (meets : path.Meets world root)
    (grounded : path.Grounded world grounds) (present : root.isMissing = false)
    {supply : Factory} {arguments : Option ArgumentMap}
    (supplies : (path.scene world root grounds [] False).Supplies 0 supply arguments) :
    Ensures (approach path (.onValue root) arguments supply) world
      (fun destination later => ∀ limit, destination.limit? path = some limit →
        limit < path.size ∧ Chronicled path root limit world later)
      fun _ _ => True := by
  have holds := meets.holds grounded [] False
  have within : Within (path.scene world root grounds [] False).keys
      (path.steps (path.resolverIn world)) := Within.refl _
  rw [Path.steps_eq_append] at within
  obtain ⟨withinFirst, withinLast⟩ := Within.append.1 within
  have segment : ∀ number node, path.nodes.dropLast[number]? = some node →
      path.nodes[0 + number]? = some node := by
    intro number node found
    rw [Nat.zero_add]
    rw [List.getElem?_dropLast] at found
    split at found
    · exact found
    · cases found
  have lastIndex : path.size - 1 < path.size := Nat.sub_one_lt path.size_ne_zero
  have tracks := Scene.track_ensures path meets.plainPath.dropLast withinFirst supplies 0 true
    meets.quiet holds (Nat.zero_le _) meets.known present meets.plain
  have tells := Scene.track_chronicle path meets.plainPath.dropLast withinFirst supplies true
    segment meets.quiet holds (Nat.zero_le _) meets.known present meets.plain
    (show (Stage.mk world.graph root 0).graph = world.graph from rfl) (Nat.le_refl 0) rfl
  unfold approach
  refine Ensures.ok_bind (resolverOf_eq path world) ?_
  refine Ensures.bind_weaker (Ensures.and tracks tells) (fun _ _ _ => trivial) ?_
  rintro arrival middle ⟨⟨onward, ends⟩, _, inside, added, events, chronicle⟩
  cases arrival with
  | stopped index type =>
      rintro limit ⟨⟩
      rw [Nat.zero_add, List.length_dropLast] at inside
      exact ⟨Nat.lt_of_le_of_lt inside lastIndex, added, events, chronicle⟩
  | arrived position inPlace =>
      obtain ⟨value, rfl, comes⟩ := ends
      refine Ensures.ok_bind (resolverOf_eq path middle) ?_
      rw [onward.advances.resolver]
      refine Ensures.bind_weaker (onGraph_ensures (Scene.approach_ensures supplies
        (Scene.Entry.at_once onward.kept.holds (Nat.zero_le _) comes.known comes.present
        comes.plain) meets.plainPath.lastNode withinLast)) (fun _ _ _ => trivial) ?_
      rintro arrival later ⟨same, kept, arrives⟩
      cases arrival with
      | refused =>
          rintro limit ⟨⟩
          rw [show Track.limit (0 + path.nodes.dropLast.length) (.arrived (.onValue value) inPlace) =
            path.size - 1 from by rw [Track.limit, Nat.zero_add, List.length_dropLast]; rfl]
            at chronicle
          exact ⟨lastIndex, added, by rw [same, ← events], chronicle.later arrives.2⟩
      | reached holder attached =>
          rintro limit ⟨⟩

/-- What a write leaves behind up to its end. -/
structure Attempted (path : Path) (root : Value) (before : World) (refusal? : Option Refusal)
    (after : World) : Prop where
  advances : Advances Event.isOnTheWay before after
  refused : ∀ refusal, refusal? = some refusal →
    after.graph.Sound ∧ after.graph.IsType refusal.type ∧
      refusal.index < path.size ∧ Chronicled path root refusal.index before after ∧
      (root.isMissing = true → refusal.index = 0 ∧ after = before)

theorem onGraph_advances {α : Type} (run : Run α) (kinds : Event → Bool) (world : World) :
    Ensures (onGraph run) world (fun _ later => Advances kinds world later)
      fun _ later => Advances kinds world later := by
  unfold Ensures onGraph
  cases run world.graph <;> exact advances_graph kinds world _

theorem attempt_ensures (meets : path.Meets world root) (grounded : path.Grounded world grounds)
    (supplies : (path.scene world root grounds [] False).Supplies 0 (factoryOf path options world)
      options.arguments) (value : Value) :
    Ensures (attempt path root value options) world
      (fun refusal? later => Attempted path root world refusal? later)
      fun _ later => Advances Event.isOnTheWay world later := by
  unfold attempt
  cases missing : root.isMissing with
  | true =>
      refine ⟨.refl world, ?_⟩
      rintro refusal ⟨⟩
      exact ⟨meets.sound, Or.inl meets.sound.openType, Nat.pos_of_ne_zero path.size_ne_zero,
        ⟨[], (List.append_nil _).symm, .nil (Extends.refl _)⟩, fun _ => ⟨rfl, rfl⟩⟩
  | false =>
      have within : Within (path.scene world root grounds [] False).keys
        (path.steps (path.resolverIn world)) := Within.refl _
      have goes := Ensures.and (Scene.destination_ensures meets.plainPath within supplies rfl
        meets.quiet (meets.holds grounded [] False) meets.known missing meets.plain)
        (approach_chronicled meets grounded missing supplies)
      rw [Path.steps_eq_append] at within
      have withinLast := (Within.append.1 within).2
      simp only [Bool.false_eq_true, if_false]
      refine Ensures.get_bind ?_
      refine Ensures.bind_weaker goes (fun _ _ failed => failed.1.advances) ?_
      rintro destination middle ⟨⟨onward, destined⟩, tells⟩
      have isThere : ¬ root.isMissing = true := by simp [missing]
      -- The write is given up on the way, at the array of the last node, or not at all.
      cases destination with
      | stopped index type =>
          refine ⟨onward.advances, ?_⟩
          rintro refusal ⟨⟩
          obtain ⟨inside, chronicled⟩ := tells index rfl
          exact ⟨onward.kept.holds.sound, destined.1, inside, chronicled,
            fun isMissing => absurd isMissing isThere⟩
      | refused position =>
          obtain ⟨target, rfl, present, plain, _⟩ := destined
          refine Ensures.ok_bind (resolverOf_eq path middle) ?_
          rw [onward.advances.resolver]
          have sound := onward.kept.holds.sound
          refine (onGraph_peeks (Node.typeAt_peeks sound present plain options.arguments
            meets.plainPath.lastNode withinLast)).ensures_bind ?_ fun _ => onward.advances
          intro type requested
          refine Ensures.bind_of_never (Ensures.mono (onGraph_ensures (Run.arrayOf_ensures sound
            (sound.isType requested))) (fun _ _ => id) fun _ _ => And.right) ?_
          rintro arrayType later ⟨same, extends_, soundLater, isArrayType, _⟩
          refine ⟨?_, ?_⟩
          · rw [same]
            exact onward.advances.trans (advances_graph _ _ _)
          · rintro refusal ⟨⟩
            obtain ⟨inside, added, events, chronicle⟩ := tells _ rfl
            exact ⟨soundLater, Or.inr isArrayType, inside,
              ⟨added, by rw [same, ← events], chronicle.later extends_⟩,
              fun isMissing => absurd isMissing isThere⟩
      | reached holder attached =>
          refine Ensures.ok_bind (resolverOf_eq path middle) ?_
          refine Ensures.bind (Ensures.mono (onGraph_advances _ Event.isOnTheWay middle)
            (fun _ _ => onward.advances.trans) fun _ _ => onward.advances.trans) ?_
          intro _ later advances
          exact ⟨advances, by rintro refusal ⟨⟩⟩

/-! ## What the log says of a write -/

/-- A write was given up.  Its report is the last one, but for what its handlers did, and names
a node after all that were filled in.  The events before it account for what has become of the
graph.  Nothing happens before the write on a missing root is given up at the first node. -/
def GivesUp (path : Path) (root : Value) (before : World) (events : List Event) (after : Graph) :
    Prop :=
  ∃ early index typeName late, events = early ++ path.abandonment index typeName :: late ∧
    (∀ event ∈ late, event.isHandled = true) ∧
    index < path.size ∧
    Chronicle path (path.resolverIn before) ⟨before.graph, root, 0⟩ early index after ∧
    (root.isMissing = true → index = 0 ∧ early = [])

/-- The events of a write report no write that was given up, or that it was itself. -/
def Accounted (path : Path) (root : Value) (before after : World) : Prop :=
  ∃ added, after.events = before.events ++ added ∧
    ((∀ event ∈ added, event.isOnTheWay = true) ∨ GivesUp path root before added after.graph)

theorem Attempted.accounted {refusal? : Option Refusal} {later : World}
    (attempted : Attempted path root world refusal? later) : Accounted path root world later := by
  obtain ⟨added, events, onTheWay⟩ := attempted.advances.events
  exact ⟨added, events, Or.inl onTheWay⟩

/-- A report that a write was given up, after an attempt. -/
theorem Attempted.accounted_report {refusal : Refusal} {middle later : World} {typeName : Value}
    (attempted : Attempted path root world (some refusal) middle)
    (goesOn : GoesOn Event.isHandled (middle.log (path.abandonment refusal.index typeName)) later) :
    Accounted path root world later := by
  obtain ⟨_, _, inside, ⟨added, events, chronicle⟩, atOnce⟩ := attempted.refused refusal rfl
  obtain ⟨handled, eventsLater, allHandled⟩ := reported_of_goesOn goesOn
  refine ⟨added ++ path.abandonment refusal.index typeName :: handled, ?_, Or.inr ⟨added,
    refusal.index, typeName, handled, rfl, allHandled, inside, goesOn.1 ▸ chronicle, ?_⟩⟩
  · rw [eventsLater, events, List.append_assoc]
  · intro missing
    obtain ⟨first, rfl⟩ := atOnce missing
    exact ⟨first, List.append_right_eq_self.1 events.symm⟩

theorem close_ensures {refusal? : Option Refusal} {middle : World}
    (attempted : Attempted path root world refusal? middle) (quiet : middle.Quiet) :
    Ensures (close path refusal?) middle (fun _ later => Accounted path root world later)
      fun _ later => Accounted path root world later := by
  cases refusal? with
  | none => exact attempted.accounted
  | some refusal =>
      obtain ⟨sound, isType, _⟩ := attempted.refused refusal rfl
      have announces := announce_ensures path refusal.index quiet sound isType
      change Ensures (abandon path refusal.index refusal.type) middle _ _
      unfold Ensures
      rw [abandon_eq path refusal.index quiet sound isType]
      cases ended : announce path refusal.index refusal.type middle with
      | error fault later =>
          rcases announces.error ended with rfl | ⟨typeName, goesOn⟩
          · exact attempted.accounted
          · exact attempted.accounted_report goesOn
      | ok typeName later =>
          have accounted := attempted.accounted_report (announces.ok ended).2.2
          cases (middle.compiler path.compiler).strictWrites with
          | false => exact accounted
          | true => exact accounted

/-- The log accounts for a write, however it ends. -/
theorem setValue_accounted (meets : path.Meets world root)
    (grounded : path.Grounded world grounds)
    (supplies : (path.scene world root grounds [] False).Supplies 0 (factoryOf path options world)
      options.arguments) (value : Value) :
    Accounted path root world (stateAfter (setValue path root value options) world) := by
  cases isStatic : path.isStatic with
  | true =>
      unfold setValue
      rw [isStatic, if_pos rfl]
      exact ⟨[], (List.append_nil _).symm, Or.inl (by simp)⟩
  | false =>
      rw [stateAfter, setValue_eq meets.plainPath isStatic, ← stateAfter]
      have attempts := attempt_ensures meets grounded supplies value
      have closes : Ensures (attempt path root value options >>= close path) world
          (fun _ later => Accounted path root world later)
          fun _ later => Accounted path root world later := by
        refine Ensures.bind_weaker attempts ?_ ?_
        · rintro _ later advances
          obtain ⟨added, events, onTheWay⟩ := advances.events
          exact ⟨added, events, Or.inl onTheWay⟩
        · intro refusal? middle attempted
          exact close_ensures attempted (attempted.advances.quiet meets.quiet)
      exact closes.stateAfter

end Session

end ObjectPath
