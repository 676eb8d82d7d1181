import ObjectPath.Evaluation
import ObjectPath.Proofs.Outcome

/-!
# Worlds that go on

While a path is evaluated the graph changes and the log gets longer, and handlers may remove
one another.  Everything else stays: the compilers work with the same resolvers, and the same
handlers stand behind the same names.
-/

namespace ObjectPath

/-! ## Events -/

namespace Event

/-- Whether an event reports that a write was given up. -/
def isAbandoned : Event → Bool
  | .abandoned _ _ _ _ _ => true
  | _ => false

/-- Whether an event reports that a missing value was filled in. -/
def isFilled : Event → Bool
  | .filled _ _ _ _ _ _ _ => true
  | _ => false

/-- Whether an event only says that a handler ran. -/
def isHandled : Event → Bool
  | .handled _ _ _ => true
  | _ => false

/-- Whether an event is one that is reported while a path is walked. -/
def isOnTheWay (event : Event) : Bool :=
  event.isFilled || event.isHandled

theorem isAbandoned_of_isOnTheWay {event : Event} (onTheWay : event.isOnTheWay = true) :
    event.isAbandoned = false := by
  cases event <;> first | rfl | cases onTheWay

end Event

namespace World

/-- The number of writes that were given up so far. -/
def abandonments (world : World) : Nat :=
  world.events.countP Event.isAbandoned

/-- Whether no handler compiles anything. -/
def Quiet (world : World) : Prop :=
  ∀ name handler, Entries.get? world.handlers name = some handler →
    ∀ compiler text, handler.action ≠ .compile compiler text

/-- A world that came about from another one by changes of the graph, by events of some kinds
and by handlers that remove one another. -/
structure Advances (kinds : Event → Bool) (before after : World) : Prop where
  resolver : ∀ place, (after.compiler place).resolver = (before.compiler place).resolver
  strict : ∀ place, (after.compiler place).strictWrites = (before.compiler place).strictWrites
  handlers : after.handlers = before.handlers
  events : ∃ added, after.events = before.events ++ added ∧ ∀ event ∈ added, kinds event = true

namespace Advances

variable {kinds : Event → Bool} {first second third : World}

theorem refl (world : World) : Advances kinds world world where
  resolver := fun _ => rfl
  strict := fun _ => rfl
  handlers := rfl
  events := ⟨[], (List.append_nil _).symm, by simp⟩

theorem trans (left : Advances kinds first second) (right : Advances kinds second third) :
    Advances kinds first third where
  resolver := fun place => (right.resolver place).trans (left.resolver place)
  strict := fun place => (right.strict place).trans (left.strict place)
  handlers := right.handlers.trans left.handlers
  events := by
    obtain ⟨early, earlyEvents, earlyKinds⟩ := left.events
    obtain ⟨late, lateEvents, lateKinds⟩ := right.events
    refine ⟨early ++ late, by rw [lateEvents, earlyEvents, List.append_assoc], ?_⟩
    intro event member
    rcases List.mem_append.1 member with isEarly | isLate
    · exact earlyKinds event isEarly
    · exact lateKinds event isLate

theorem mono {other : Event → Bool} (advances : Advances kinds first second)
    (weaker : ∀ event, kinds event = true → other event = true) : Advances other first second where
  resolver := advances.resolver
  strict := advances.strict
  handlers := advances.handlers
  events := by
    obtain ⟨added, events, ofKinds⟩ := advances.events
    exact ⟨added, events, fun event member => weaker event (ofKinds event member)⟩

theorem quiet (advances : Advances kinds first second) (isQuiet : first.Quiet) :
    second.Quiet := by
  unfold Quiet
  rw [advances.handlers]
  exact isQuiet

/-- Events of other kinds leave the number of writes that were given up alone. -/
theorem abandonments (advances : Advances kinds first second)
    (others : ∀ event, kinds event = true → event.isAbandoned = false) :
    second.abandonments = first.abandonments := by
  obtain ⟨added, events, ofKinds⟩ := advances.events
  have none : added.countP Event.isAbandoned = 0 := by
    rw [List.countP_eq_zero]
    intro event member
    rw [others event (ofKinds event member)]
    exact Bool.false_ne_true
  rw [World.abandonments, World.abandonments, events, List.countP_append, none, Nat.add_zero]

end Advances

/-- Another graph is all that a run on the graph changes. -/
theorem advances_graph (kinds : Event → Bool) (world : World) (graph : Graph) :
    Advances kinds world { world with graph := graph } where
  resolver := fun _ => rfl
  strict := fun _ => rfl
  handlers := rfl
  events := ⟨[], (List.append_nil _).symm, by simp⟩

theorem advances_log {kinds : Event → Bool} (world : World) {event : Event}
    (ofKind : kinds event = true) : Advances kinds world (world.log event) where
  resolver := fun _ => rfl
  strict := fun _ => rfl
  handlers := rfl
  events := ⟨[event], rfl, by simpa using ofKind⟩

theorem compiler_modifyCompiler (world : World) (place other : Nat) (change : Compiler → Compiler) :
    (world.modifyCompiler place change).compiler other = world.compiler other ∨
      (world.modifyCompiler place change).compiler other = change (world.compiler other) := by
  unfold compiler modifyCompiler
  simp only [Array.getD_eq_getD_getElem?, Array.getElem?_modify]
  split
  · cases world.compilers[other]? with
    | none => exact Or.inl rfl
    | some found => exact Or.inr rfl
  · exact Or.inl rfl

theorem advances_unsubscribe (kinds : Event → Bool) (world : World) (place : Nat)
    (kind : EventKind) (handler : String) :
    Advances kinds world (world.modifyCompiler place (·.unsubscribe kind handler)) where
  resolver := fun other => by
    rcases compiler_modifyCompiler world place other (·.unsubscribe kind handler) with same | same <;>
      rw [same]
    rfl
  strict := fun other => by
    rcases compiler_modifyCompiler world place other (·.unsubscribe kind handler) with same | same <;>
      rw [same]
    rfl
  handlers := rfl
  events := ⟨[], (List.append_nil _).symm, by simp⟩

end World

/-! ## Runs on the graph -/

namespace Session

open World

theorem onGraph_ensures {α : Type} {run : Run α} {world : World} {good : α → Graph → Prop}
    {bad : Fault → Graph → Prop} (ensures : Ensures run world.graph good bad) :
    Ensures (onGraph run) world
      (fun value later => later = { world with graph := later.graph } ∧ good value later.graph)
      fun fault later => later = { world with graph := later.graph } ∧ bad fault later.graph := by
  unfold Ensures at ensures
  unfold Ensures onGraph
  split at ensures <;> rename_i ended <;> simp only [ended] <;> exact ⟨trivial, ensures⟩

theorem onGraph_of_ok {α : Type} {run : Run α} {world : World} {value : α} {graph : Graph}
    (ended : run world.graph = .ok value graph) :
    onGraph run world = .ok value { world with graph := graph } := by
  simp only [onGraph, ended]

theorem onGraph_of_error {α : Type} {run : Run α} {world : World} {fault : Fault} {graph : Graph}
    (ended : run world.graph = .error fault graph) :
    onGraph run world = .error fault { world with graph := graph } := by
  simp only [onGraph, ended]

theorem onGraph_congr {α : Type} {run other : Run α} {world : World}
    (same : run world.graph = other world.graph) : onGraph run world = onGraph other world := by
  rw [onGraph, same, onGraph]

theorem ok_of_onGraph {α : Type} {run : Run α} {world later : World} {value : α}
    (ended : onGraph run world = .ok value later) :
    ∃ graph, run world.graph = .ok value graph ∧ later = { world with graph := graph } := by
  unfold onGraph at ended
  cases ran : run world.graph with
  | ok given graph =>
      rw [ran] at ended
      cases ended
      exact ⟨graph, rfl, rfl⟩
  | error fault graph =>
      rw [ran] at ended
      cases ended

theorem onGraph_answers {α : Type} {run : Run α} {world : World} {firm : Prop}
    {expected : Option α} (answers : Answers run world.graph firm expected) :
    Answers (onGraph run) world firm expected := by
  cases expected with
  | some value => exact onGraph_of_ok answers
  | none =>
      intro isFirm
      obtain ⟨fault, ended⟩ := answers isFirm
      refine ⟨fault, ?_⟩
      simp only [onGraph, ended]

theorem onGraph_peeks {α : Type} {run : Run α} {world : World} {gives : α → Prop}
    (peeks : Peeks run world.graph gives) : Peeks (onGraph run) world gives := by
  refine Ensures.mono (onGraph_ensures peeks) ?_ ?_
  · rintro value later ⟨same, sameGraph, holds⟩
    rw [sameGraph] at same
    exact ⟨same, holds⟩
  · rintro fault later ⟨same, sameGraph⟩
    rw [sameGraph] at same
    exact same

/-! ## Handlers -/

/-- A handler that compiles nothing leaves the graph alone. -/
theorem act_ensures (recompile : Nat → String → Session Unit) {world : World}
    {action : HandlerAction} (quiet : ∀ compiler text, action ≠ .compile compiler text) :
    Ensures (act recompile action) world
      (fun _ later => later.graph = world.graph ∧ Advances Event.isHandled world later)
      fun _ later => later.graph = world.graph ∧ Advances Event.isHandled world later := by
  cases action with
  | nothing => exact ⟨rfl, .refl world⟩
  | raise message => exact ⟨rfl, .refl world⟩
  | compile compiler text => exact absurd rfl (quiet compiler text)
  | remove name kind handler =>
      exact ⟨rfl, advances_unsubscribe _ world _ kind handler⟩

/-- What a session leaves when it only goes on: the same graph, and a world that advanced. -/
def GoesOn (kinds : Event → Bool) (before after : World) : Prop :=
  after.graph = before.graph ∧ Advances kinds before after

theorem GoesOn.trans {kinds : Event → Bool} {first second third : World}
    (left : GoesOn kinds first second) (right : GoesOn kinds second third) :
    GoesOn kinds first third :=
  ⟨right.1.trans left.1, left.2.trans right.2⟩

theorem runHandlers_ensures (recompile : Nat → String → Session Unit) (compiler : Nat)
    (kind : EventKind) (expression : String) (names : List String) {world : World}
    (quiet : world.Quiet) :
    Ensures (runHandlers recompile compiler kind expression names) world
      (fun _ later => GoesOn Event.isHandled world later)
      fun _ later => GoesOn Event.isHandled world later := by
  induction names generalizing world with
  | nil => exact ⟨rfl, .refl world⟩
  | cons name rest inductionHypothesis =>
      unfold runHandlers
      refine Ensures.get_bind ?_
      have onward : ∀ later, GoesOn Event.isHandled world later →
          Ensures (runHandlers recompile compiler kind expression rest) later
            (fun _ final => GoesOn Event.isHandled world final)
            fun _ final => GoesOn Event.isHandled world final := fun later goesOn =>
        Ensures.mono (inductionHypothesis (goesOn.2.quiet quiet)) (fun _ _ => goesOn.trans)
          fun _ _ => goesOn.trans
      split
      · split
        · exact onward world ⟨rfl, .refl world⟩
        · rename_i handler found
          -- A handler that is run is logged first.
          have logged : GoesOn Event.isHandled world
              (world.log (.handled name handler.kind expression)) := ⟨rfl, advances_log world rfl⟩
          have acted : Ensures (act recompile handler.action)
              (world.log (.handled name handler.kind expression))
              (fun _ later => GoesOn Event.isHandled world later)
              fun _ later => GoesOn Event.isHandled world later :=
            Ensures.mono (act_ensures recompile (quiet name handler found))
              (fun _ _ => logged.trans) fun _ _ => logged.trans
          change Ensures (act recompile handler.action >>= fun _ =>
            runHandlers recompile compiler kind expression rest) (world.log _) _ _
          exact Ensures.bind acted fun _ later => onward later
      · exact onward world ⟨rfl, .refl world⟩

/-- Reporting an event leaves the graph alone, whatever the handlers raise. -/
theorem emit_ensures (compiler : Nat) (kind : EventKind) (expression : String) (event : Event)
    {world : World} (quiet : world.Quiet) :
    Ensures (emit compiler kind expression event) world
      (fun _ later => GoesOn Event.isHandled (world.log event) later)
      fun _ later => GoesOn Event.isHandled (world.log event) later := by
  have quietLater : (world.log event).Quiet := quiet
  exact runHandlers_ensures _ compiler kind expression _ quietLater

end Session

end ObjectPath
