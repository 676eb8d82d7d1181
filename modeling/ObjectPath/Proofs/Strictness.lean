import ObjectPath.Proofs.Abandonment
import ObjectPath.Proofs.Twins

/-!
# Strict writes

Being strict only adds a fault to a write that is given up.  A strict compiler and a lenient one
do the same up to the report.  Where the handlers of the report let the lenient one end normally,
the strict one fails with the type that the report names.
-/

namespace ObjectPath

open Graph

/-- The type that the report of a write that was given up names. -/
def Event.givenUpType? : Event → Option Value
  | .abandoned _ _ _ _ typeName => some typeName
  | _ => none

namespace World

/-- The world with one of its compilers made lenient. -/
def lenient (world : World) (place : Nat) : World :=
  world.modifyCompiler place (·.beStrict false)

theorem twins_lenient (world : World) (place : Nat) :
    Twins False Eq world.events world (world.lenient place) where
  rest := rfl
  size := (size_modifyCompiler ..).symm
  compiler := by
    intro other
    rw [lenient, compiler_modifyCompiler_eq]
    split <;> rfl
  strict := False.elim
  events := ⟨[], [], (List.append_nil _).symm, (List.append_nil _).symm, .nil⟩

theorem lenient_strictWrites (world : World) {place : Nat} (inside : place < world.compilers.size) :
    ((world.lenient place).compiler place).strictWrites = false := by
  rw [lenient, compiler_modifyCompiler_eq, if_pos ⟨rfl, inside⟩]
  rfl

/-- Only a compiler that was made can be strict. -/
theorem lt_of_strictWrites {world : World} {place : Nat}
    (strict : (world.compiler place).strictWrites = true) : place < world.compilers.size := by
  by_contra outside
  rw [compiler, Array.getD_eq_getD_getElem?, Array.getElem?_eq_none (by omega)] at strict
  cases strict

end World

namespace Session

open World

/-! ## Strict and lenient compilers -/

section Strictness

variable {equally : Prop} {base : List Event}

theorem echoes_eq : Echoes (Eq : Event → Event → Prop) where
  compiled := fun _ _ _ _ => rfl
  handled := fun _ _ _ => rfl

theorem parallel_resolverOf (path : Path) :
    Parallel (Twins equally Eq base) (resolverOf path) (resolverOf path) := by
  intro first second twins
  rw [resolverOf_eq, resolverOf_eq, twins.compiler]
  exact .ok twins

theorem parallel_reportFilled (path : Path) (index : Nat) (node : Node) (type value : Value) :
    Parallel (Twins equally Eq base) (reportFilled path index node type value)
      (reportFilled path index node type value) := by
  refine (parallel_onGraph _).bind fun typeName => Parallel.get_bind fun first second twins => ?_
  rw [twins.graph]
  exact parallel_emit echoes_eq _ _ rfl (fun _ _ => rfl) first second twins

theorem parallel_announce (path : Path) (index : Nat) (type : Value) :
    Parallel (Twins equally Eq base) (announce path index type) (announce path index type) :=
  (parallel_onGraph _).bind fun _ =>
    (parallel_emit echoes_eq _ _ rfl fun _ _ => rfl).bind fun _ => Parallel.pure _

theorem parallel_track (path : Path) (resolver : Resolver) (options : EvaluateOptions)
    (index : Nat) (position : Position) (attached : Bool) (nodes : List Node) :
    Parallel (Twins equally Eq base) (track path resolver options index position attached nodes)
      (track path resolver options index position attached nodes) := by
  induction nodes generalizing index position attached with
  | nil => exact Parallel.pure _
  | cons node rest inductionHypothesis =>
      unfold track
      refine (parallel_onGraph _).bind fun value => ?_
      split
      · cases options.factory with
        | none => exact Parallel.pure _
        | some supply =>
            refine (parallel_onGraph _).bind fun filling => ?_
            cases filling with
            | refused type => exact Parallel.pure _
            | filled type made inPlace =>
                exact (parallel_reportFilled path index node type made).bind fun _ =>
                  inductionHypothesis _ _ _
      · exact inductionHypothesis _ _ _

theorem parallel_approach (path : Path) (start : Position) (arguments : Option ArgumentMap)
    (supply : Factory) :
    Parallel (Twins equally Eq base) (approach path start arguments supply)
      (approach path start arguments supply) := by
  refine (parallel_resolverOf path).bind fun resolver =>
    (parallel_track path resolver _ 0 start true _).bind fun arrival => ?_
  cases arrival with
  | stopped index type => exact Parallel.pure _
  | arrived position attached =>
      refine (parallel_resolverOf path).bind fun resolver => (parallel_onGraph _).bind fun last => ?_
      cases last <;> exact Parallel.pure _

theorem parallel_verdict (path : Path) (arguments : Option ArgumentMap) (value : Value)
    (destination : Destination) :
    Parallel (Twins equally Eq base) (verdict path arguments value destination)
      (verdict path arguments value destination) := by
  cases destination with
  | stopped index type => exact Parallel.pure _
  | refused position =>
      exact (parallel_resolverOf path).bind fun _ => (parallel_onGraph _).bind fun _ =>
        (parallel_onGraph _).bind fun _ => Parallel.pure _
  | reached holder attached =>
      exact (parallel_resolverOf path).bind fun _ => (parallel_onGraph _).bind fun _ =>
        Parallel.pure _

theorem parallel_attempt (path : Path) (root value : Value) (options : EvaluateOptions) :
    Parallel (Twins equally Eq base) (attempt path root value options)
      (attempt path root value options) := by
  unfold attempt
  split
  · exact Parallel.pure _
  · refine Parallel.get_bind fun first second twins => ?_
    have same : factoryOf path options first = factoryOf path options second := by
      rw [factoryOf, factoryOf, twins.compiler, twins.factory]
      rfl
    rw [same]
    exact ((parallel_approach path _ _ _).bind fun _ => parallel_verdict path _ _ _) first second twins

end Strictness

/-! ## Endings -/

/-- How a session ends, whatever it leaves behind. -/
def outcome {α : Type} (work : Session α) (world : World) : Except Fault α :=
  match work world with
  | .ok value _ => .ok value
  | .error fault _ => .error fault

theorem outcome_of_ok {α : Type} {work : Session α} {world later : World} {value : α}
    (ended : work world = .ok value later) : outcome work world = .ok value := by
  rw [outcome, ended]

theorem outcome_of_error {α : Type} {work : Session α} {world later : World} {fault : Fault}
    (ended : work world = .error fault later) : outcome work world = .error fault := by
  rw [outcome, ended]

/-- How a strict write ends where a lenient one ends normally: by the fault that names the type
of the report, if the write was given up. -/
def sentence (events : List Event) : Except Fault Unit :=
  match events.findSome? Event.givenUpType? with
  | none => .ok ()
  | some typeName => .error (unmade typeName)

theorem findSome?_givenUpType? {events : List Event}
    (onTheWay : ∀ event ∈ events, event.isOnTheWay = true) :
    events.findSome? Event.givenUpType? = none := by
  rw [List.findSome?_eq_none_iff]
  intro event member
  have isOnTheWay := onTheWay event member
  cases event <;> first | rfl | cases isOnTheWay

theorem sentence_of_onTheWay {events : List Event}
    (onTheWay : ∀ event ∈ events, event.isOnTheWay = true) : sentence events = .ok () := by
  rw [sentence, findSome?_givenUpType? onTheWay]

variable {path : Path} {world : World} {root : Value} {grounds : List Value}
  {options : EvaluateOptions}

/-- A write that was given up is sentenced by its report. -/
theorem Attempted.sentence {refusal : Refusal} {middle later : World} {typeName : Value}
    (attempted : Attempted path root world (some refusal) middle)
    (goesOn : GoesOn Event.isHandled (middle.log (path.abandonment refusal.index typeName)) later)
    {added : List Event} (events : later.events = world.events ++ added) :
    sentence added = .error (unmade typeName) := by
  obtain ⟨early, eventsMiddle, onTheWay⟩ := attempted.advances.events
  obtain ⟨handled, eventsLater, _⟩ := reported_of_goesOn goesOn
  rw [eventsLater, eventsMiddle, List.append_assoc, List.append_cancel_left_eq] at events
  rw [← events, Session.sentence, List.findSome?_append, findSome?_givenUpType? onTheWay]
  rfl

/-! ## A strict write and a lenient one -/

theorem resolverIn_lenient (path : Path) (world : World) (place : Nat) :
    path.resolverIn (world.lenient place) = path.resolverIn world := by
  rw [Path.resolverIn, Path.resolverIn, (world.twins_lenient place).compiler]
  rfl

theorem meets_lenient (meets : path.Meets world root) (place : Nat) :
    path.Meets (world.lenient place) root where
  plainPath := meets.plainPath
  quiet := meets.quiet
  sound := meets.sound
  known := meets.known
  plain := by
    rw [resolverIn_lenient]
    exact meets.plain

/-- What becomes of a write in the world with its compiler made lenient. -/
theorem attempt_lenient_ensures (meets : path.Meets world root)
    (grounded : path.Grounded world grounds)
    (supplies : (path.scene world root grounds [] False).Supplies 0 (factoryOf path options world)
      options.arguments) (value : Value) :
    Ensures (attempt path root value options) (world.lenient path.compiler)
      (fun _ later => Advances Event.isOnTheWay (world.lenient path.compiler) later)
      fun _ later => Advances Event.isOnTheWay (world.lenient path.compiler) later := by
  have twins := world.twins_lenient path.compiler
  have sameFactory : factoryOf path options (world.lenient path.compiler) =
      factoryOf path options world := by
    rw [factoryOf, factoryOf, twins.compiler, twins.factory]
    rfl
  have sameScene : path.scene (world.lenient path.compiler) root grounds [] False =
      path.scene world root grounds [] False := by
    rw [Path.scene, Path.scene, resolverIn_lenient]
    rfl
  have groundedLenient : path.Grounded (world.lenient path.compiler) grounds := by
    intro ground member
    rw [resolverIn_lenient]
    exact grounded ground member
  rw [← sameFactory, ← sameScene] at supplies
  exact Ensures.mono (attempt_ensures (meets_lenient meets path.compiler) groundedLenient supplies
    value) (fun _ _ => Attempted.advances) fun _ _ => id

/-- Closing an attempt with a strict compiler and with a lenient one. -/
theorem close_ends {refusal? : Option Refusal} {later laterOther : World}
    (attempted : Attempted path root world refusal? later) (quiet : later.Quiet)
    (twins : Twins False Eq world.events later laterOther)
    (strict : (later.compiler path.compiler).strictWrites = true)
    (lenient : (laterOther.compiler path.compiler).strictWrites = false) {added : List Event}
    (events : (stateAfter (close path refusal?) later).events = world.events ++ added) :
    Twins False Eq world.events (stateAfter (close path refusal?) later)
        (stateAfter (close path refusal?) laterOther) ∧
      outcome (close path refusal?) later =
        (outcome (close path refusal?) laterOther).bind fun _ => sentence added := by
  cases refusal? with
  | none =>
      obtain ⟨before, eventsLater, onTheWay⟩ := attempted.advances.events
      have same : before = added :=
        List.append_cancel_left (eventsLater.symm.trans (show later.events = _ from events))
      refine ⟨twins, ?_⟩
      rw [← same, sentence_of_onTheWay onTheWay]
      rfl
  | some refusal =>
      obtain ⟨sound, isType, _⟩ := attempted.refused refusal rfl
      have announces := announce_ensures path refusal.index quiet sound isType
      have mirrored := parallel_announce path refusal.index refusal.type _ _ twins
      have first := abandon_eq path refusal.index quiet sound isType
      have second : abandon path refusal.index refusal.type laterOther = _ :=
        abandon_eq path refusal.index
          (show laterOther.Quiet by rw [Quiet, ← twins.handlers]; exact quiet)
          (twins.graph ▸ sound) (twins.graph ▸ isType)
      simp only [strict, if_true] at first
      simp only [lenient, Bool.false_eq_true, if_false] at second
      change (stateAfter (abandon path refusal.index refusal.type) later).events = _ at events
      change Twins False Eq world.events (stateAfter (abandon path refusal.index refusal.type) later)
        (stateAfter (abandon path refusal.index refusal.type) laterOther) ∧
        outcome (abandon path refusal.index refusal.type) later =
          (outcome (abandon path refusal.index refusal.type) laterOther).bind _
      -- A handler that fails ends both runs alike; only where all return does strictness add its
      -- fault.
      cases ended : announce path refusal.index refusal.type later with
      | error fault final =>
          rw [ended] at mirrored first
          generalize announce path refusal.index refusal.type laterOther = other
            at mirrored second
          cases mirrored with
          | error finalTwins =>
              rw [stateAfter_of_error first, stateAfter_of_error second, outcome_of_error first,
                outcome_of_error second]
              exact ⟨finalTwins, rfl⟩
      | ok typeName final =>
          rw [ended] at mirrored first
          generalize announce path refusal.index refusal.type laterOther = other
            at mirrored second
          cases mirrored with
          | ok finalTwins =>
              rw [stateAfter_of_error first] at events ⊢
              rw [stateAfter_of_ok second, outcome_of_error first, outcome_of_ok second]
              refine ⟨finalTwins, ?_⟩
              rw [Except.bind, attempted.sentence (announces.ok ended).2.2 events]

theorem strict_write_ends (meets : path.Meets world root)
    (grounded : path.Grounded world grounds)
    (supplies : (path.scene world root grounds [] False).Supplies 0 (factoryOf path options world)
      options.arguments) (value : Value)
    (strict : (world.compiler path.compiler).strictWrites = true) {added : List Event}
    (events : (stateAfter (setValue path root value options) world).events =
      world.events ++ added) :
    Twins False Eq world.events (stateAfter (setValue path root value options) world)
        (stateAfter (setValue path root value options) (world.lenient path.compiler)) ∧
      outcome (setValue path root value options) world =
        (outcome (setValue path root value options) (world.lenient path.compiler)).bind
          fun _ => sentence added := by
  have twins := world.twins_lenient path.compiler
  cases isStatic : path.isStatic with
  | true =>
      have refused : ∀ start : World, setValue path root value options start =
          .error (refuseRoot path) start := by
        intro start
        unfold setValue
        rw [isStatic, if_pos rfl]
        rfl
      rw [stateAfter_of_error (refused world), stateAfter_of_error (refused _),
        outcome_of_error (refused world), outcome_of_error (refused _)]
      exact ⟨twins, rfl⟩
  | false =>
      have parts := setValue_eq meets.plainPath isStatic root value options
      have attempts := attempt_ensures meets grounded supplies value
      have attemptsLenient := attempt_lenient_ensures meets grounded supplies value
      -- Both runs attempt the write in step, since the setting is not looked at before the write is
      -- given up.
      have mirrored := parallel_attempt path root value options _ _ twins
      cases ended : attempt path root value options world with
      | error fault later =>
          rw [ended] at mirrored
          generalize endedOther : attempt path root value options (world.lenient path.compiler) =
            other at mirrored
          cases mirrored with
          | error laterTwins =>
              have first := (parts world).trans (bind_of_error ended)
              have second := (parts _).trans (bind_of_error endedOther)
              rw [stateAfter_of_error first, stateAfter_of_error second, outcome_of_error first,
                outcome_of_error second]
              exact ⟨laterTwins, rfl⟩
      | ok refusal? later =>
          rw [ended] at mirrored
          generalize endedOther : attempt path root value options (world.lenient path.compiler) =
            other at mirrored
          cases mirrored with
          | ok laterTwins =>
              have first := (parts world).trans (bind_of_ok ended)
              have second := (parts _).trans (bind_of_ok endedOther)
              have attempted := attempts.ok ended
              have lenient := (attemptsLenient.ok endedOther).strict path.compiler
              rw [world.lenient_strictWrites (lt_of_strictWrites strict)] at lenient
              have closes : ∀ {start middle : World},
                  setValue path root value options start = close path refusal? middle →
                  stateAfter (setValue path root value options) start =
                      stateAfter (close path refusal?) middle ∧
                    outcome (setValue path root value options) start =
                      outcome (close path refusal?) middle := by
                intro start middle same
                rw [stateAfter, outcome, same]
                exact ⟨rfl, rfl⟩
              rw [(closes first).1] at events
              rw [(closes first).1, (closes first).2, (closes second).1, (closes second).2]
              exact close_ends attempted (attempted.advances.quiet meets.quiet) laterTwins
                ((attempted.advances.strict path.compiler).trans strict) lenient events

/-- A world with a grid and a strict compiler. -/
def strictGridWorld : World :=
  gridWorld.modifyCompiler World.standardPlace (·.beStrict true)

/-- The path of the first of the cells of what is free on a grid. -/
def freeCellPath : Path where
  compiler := World.standardPlace
  serial := 2
  source := "free.cells[0]"
  nodes := [.field 3 "free", .array 5 "cells[0]" 0 (some (.field 4 "cells"))]
  nodes_ne_nil := List.cons_ne_nil _ _
  rootType := none

/-- The default factory, but only for objects of no class of their own. -/
def plainly : EvaluateOptions :=
  ⟨none, some (withholding (· != openType) standardFactory)⟩

/-- A world with a grid, a strict compiler, and a handler that fails when a write is given up. -/
def loudGridWorld : World :=
  { gridWorld with
    handlers := [("complain", ⟨.abandoned, .raise "no"⟩)]
    compilers := gridWorld.compilers.modify World.standardPlace fun compiler =>
      { compiler.beStrict true with handlers := fun _ => ["complain"] } }

end Session

end ObjectPath
