import ObjectPath.Proofs.Changes

/-!
# Worlds that compilers cannot tell apart

Compiling and reporting read neither the log nor whether a compiler is strict.  So in two worlds
that differ in nothing else they do the same, whatever the handlers do in turn: they give the same
or fail with the same fault, add events that correspond, and leave two worlds that again differ in
nothing else.
-/

namespace ObjectPath

/-! ## Computations that mirror one another -/

section Mirrors

variable {σ α β : Type} {related : σ → σ → Prop}

/-- Two outcomes are the same value or the same fault, and the states that are left are related. -/
inductive Mirrors (related : σ → σ → Prop) :
    EStateM.Result Fault σ α → EStateM.Result Fault σ α → Prop
  | ok {value : α} {first second : σ} : related first second →
      Mirrors related (.ok value first) (.ok value second)
  | error {fault : Fault} {first second : σ} : related first second →
      Mirrors related (.error fault first) (.error fault second)

/-- From related states two computations come to outcomes that mirror one another. -/
def Parallel (related : σ → σ → Prop) (work other : EStateM Fault σ α) : Prop :=
  ∀ first second, related first second → Mirrors related (work first) (other second)

namespace Parallel

theorem pure (value : α) : Parallel related (pure value) (pure value) :=
  fun _ _ => .ok

theorem throw (fault : Fault) :
    Parallel related (throw fault : EStateM Fault σ α) (throw fault) :=
  fun _ _ => .error

theorem bind {work other : EStateM Fault σ α} {next onward : α → EStateM Fault σ β}
    (start : Parallel related work other)
    (rest : ∀ value, Parallel related (next value) (onward value)) :
    Parallel related (work >>= next) (other >>= onward) := by
  intro first second twins
  have mirrored := start first second twins
  cases ended : work first with
  | ok value later =>
      rw [ended] at mirrored
      generalize endedOther : other second = outcome at mirrored
      cases mirrored with
      | ok laterTwins =>
          rw [bind_of_ok ended, bind_of_ok endedOther]
          exact rest value _ _ laterTwins
  | error fault later =>
      rw [ended] at mirrored
      generalize endedOther : other second = outcome at mirrored
      cases mirrored with
      | error laterTwins =>
          rw [bind_of_error ended, bind_of_error endedOther]
          exact .error laterTwins

/-- Two computations that look at their states first. -/
theorem get_bind {next onward : σ → EStateM Fault σ α}
    (rest : ∀ first second, related first second →
      Mirrors related (next first first) (onward second second)) :
    Parallel related (get >>= next) (get >>= onward) :=
  rest

theorem tryCatch {work other : EStateM Fault σ α} {handle care : Fault → EStateM Fault σ α}
    (start : Parallel related work other)
    (rest : ∀ fault, Parallel related (handle fault) (care fault)) :
    Parallel related (tryCatch work handle) (tryCatch other care) := by
  intro first second twins
  have mirrored := start first second twins
  cases ended : work first with
  | ok value later =>
      rw [ended] at mirrored
      generalize endedOther : other second = outcome at mirrored
      cases mirrored with
      | ok laterTwins =>
          rw [tryCatch_of_ok ended, tryCatch_of_ok endedOther]
          exact .ok laterTwins
  | error fault later =>
      rw [ended] at mirrored
      generalize endedOther : other second = outcome at mirrored
      cases mirrored with
      | error laterTwins =>
          rw [tryCatch_of_error ended, tryCatch_of_error endedOther]
          exact rest fault _ _ laterTwins

end Parallel

theorem Mirrors.stateAfter {work other : EStateM Fault σ α} {first second : σ}
    (mirrors : Mirrors related (work first) (other second)) :
    related (stateAfter work first) (stateAfter other second) := by
  unfold ObjectPath.stateAfter
  generalize work first = outcome at mirrors ⊢
  generalize other second = outcomeOther at mirrors ⊢
  cases mirrors with
  | ok twins => exact twins
  | error twins => exact twins

end Mirrors

/-! ## Twins -/

/-- A compiler that is strict or not as it is told. -/
def Compiler.beStrict (compiler : Compiler) (strict : Bool) : Compiler :=
  { compiler with strictWrites := strict }

/-- A change of a compiler that has nothing to do with strictness. -/
structure Compiler.Neutral (change : Compiler → Compiler) : Prop where
  beStrict : ∀ compiler strict,
    change (compiler.beStrict strict) = (change compiler).beStrict strict
  strictWrites : ∀ compiler, (change compiler).strictWrites = compiler.strictWrites

namespace World

/-- Two worlds that differ in their logs since an earlier one and in how strict compilers are.
The logs correspond event by event.  If the worlds are equally strict they differ in their logs
alone. -/
structure Twins (equally : Prop) (tells : Event → Event → Prop) (base : List Event)
    (first second : World) : Prop where
  rest : first = { second with compilers := first.compilers, events := first.events }
  size : first.compilers.size = second.compilers.size
  compiler : ∀ place, first.compiler place =
    (second.compiler place).beStrict (first.compiler place).strictWrites
  strict : equally → ∀ place,
    (first.compiler place).strictWrites = (second.compiler place).strictWrites
  events : ∃ added others, first.events = base ++ added ∧ second.events = base ++ others ∧
    List.Forall₂ tells added others

namespace Twins

variable {equally : Prop} {tells : Event → Event → Prop} {base : List Event}
  {first second : World} (twins : Twins equally tells base first second)

theorem refl (world : World) : Twins equally tells world.events world world where
  rest := rfl
  size := rfl
  compiler := fun _ => rfl
  strict := fun _ _ => rfl
  events := ⟨[], [], (List.append_nil _).symm, (List.append_nil _).symm, .nil⟩

include twins

theorem graph : first.graph = second.graph := by
  rw [twins.rest]

theorem handlers : first.handlers = second.handlers := by
  rw [twins.rest]

theorem registry (name : String) : first.registry name = second.registry name := by
  rw [twins.rest]
  rfl

theorem factory (place : Nat) : first.factory place = second.factory place := by
  rw [twins.rest]
  rfl

theorem compilerNamed? (name : String) : first.compilerNamed? name = second.compilerNamed? name := by
  rw [twins.rest]
  rfl

theorem setGraph (graph : Graph) :
    Twins equally tells base { first with graph := graph } { second with graph := graph } where
  rest := by
    conv_lhs => rw [twins.rest]
  size := twins.size
  compiler := twins.compiler
  strict := twins.strict
  events := twins.events

theorem log {event other : Event} (corresponds : tells event other) :
    Twins equally tells base (first.log event) (second.log other) where
  rest := by
    conv_lhs => rw [World.log, twins.rest]
    rfl
  size := twins.size
  compiler := twins.compiler
  strict := twins.strict
  events := by
    obtain ⟨added, others, firstEvents, secondEvents, all⟩ := twins.events
    refine ⟨added ++ [event], others ++ [other], ?_, ?_, List.rel_append all (.cons corresponds .nil)⟩
    · rw [World.log, firstEvents, List.append_assoc]
    · rw [World.log, secondEvents, List.append_assoc]

end Twins

theorem compiler_modifyCompiler_eq (world : World) (place other : Nat)
    (change : Compiler → Compiler) :
    (world.modifyCompiler place change).compiler other =
      if other = place ∧ place < world.compilers.size then change (world.compiler other)
      else world.compiler other := by
  split
  · rename_i changed
    obtain ⟨rfl, present⟩ := changed
    exact compiler_modifyCompiler_self present change
  · rename_i kept
    unfold compiler modifyCompiler
    simp only [Array.getD_eq_getD_getElem?, Array.getElem?_modify]
    split
    · rename_i same
      subst same
      have absent : world.compilers[place]? = none := by
        rw [Array.getElem?_eq_none_iff]
        omega
      rw [absent]
      rfl
    · rfl

namespace Twins

variable {equally : Prop} {tells : Event → Event → Prop} {base : List Event}
  {first second : World}

theorem modifyCompiler (twins : Twins equally tells base first second) (place : Nat)
    {change : Compiler → Compiler} (neutral : Compiler.Neutral change) :
    Twins equally tells base (first.modifyCompiler place change)
      (second.modifyCompiler place change) where
  rest := by
    conv_lhs => rw [World.modifyCompiler, twins.rest]
    rfl
  size := by rw [size_modifyCompiler, size_modifyCompiler, twins.size]
  compiler := by
    intro other
    rw [compiler_modifyCompiler_eq, compiler_modifyCompiler_eq, twins.size]
    split
    · rw [twins.compiler other, neutral.beStrict]
      rfl
    · exact twins.compiler other
  strict := by
    intro equal other
    rw [compiler_modifyCompiler_eq, compiler_modifyCompiler_eq, twins.size]
    split
    · rw [neutral.strictWrites, neutral.strictWrites, twins.strict equal]
    · exact twins.strict equal other
  events := twins.events

end Twins

end World

/-! ## Compiling in twins -/

namespace Session

open World

/-- Events that correspond to themselves wherever compilers are not told apart: new paths, and
handlers of any report. -/
structure Echoes (tells : Event → Event → Prop) : Prop where
  compiled : ∀ compiler expression nodes rootType,
    tells (.compiled compiler expression nodes rootType)
      (.compiled compiler expression nodes rootType)
  handled : ∀ name kind expression,
    tells (.handled name kind expression) (.handled name kind expression)

section Compiling

variable {equally : Prop} {tells : Event → Event → Prop} {base : List Event}

theorem parallel_onGraph {α : Type} (run : Run α) :
    Parallel (Twins equally tells base) (onGraph run) (onGraph run) := by
  intro first second twins
  unfold onGraph
  rw [twins.graph]
  cases run second.graph with
  | ok value graph => exact .ok (twins.setGraph graph)
  | error fault graph => exact .error (twins.setGraph graph)

theorem parallel_lift {α : Type} (result : Except Fault α) :
    Parallel (Twins equally tells base) (lift result) (lift result) := by
  cases result with
  | ok value => exact Parallel.pure value
  | error fault => exact Parallel.throw fault

theorem parallel_modifyCompiler (place : Nat) {change : Compiler → Compiler}
    (neutral : Compiler.Neutral change) :
    Parallel (Twins equally tells base) (modify (·.modifyCompiler place change))
      (modify (·.modifyCompiler place change)) :=
  fun _ _ twins => .ok (twins.modifyCompiler place neutral)

theorem parallel_log {event other : Event} (corresponds : tells event other) :
    Parallel (Twins equally tells base) (modify (·.log event)) (modify (·.log other)) :=
  fun _ _ twins => .ok (twins.log corresponds)

/-! ### Handlers -/

section Handlers

variable {recompile : Nat → String → Session Unit}
  (recompiles : ∀ place text,
    Parallel (Twins equally tells base) (recompile place text) (recompile place text))

include recompiles

theorem parallel_act (action : HandlerAction) :
    Parallel (Twins equally tells base) (act recompile action) (act recompile action) := by
  have named : ∀ name, Parallel (Twins equally tells base) (compilerNamed name)
      (compilerNamed name) := by
    intro name first second twins
    have same : (first.compilerNamed? name).getD standardPlace =
        (second.compilerNamed? name).getD standardPlace := by rw [twins.compilerNamed?]
    change Mirrors _ (.ok _ first) (.ok _ second)
    rw [same]
    exact .ok twins
  cases action with
  | nothing => exact Parallel.pure ()
  | raise message => exact Parallel.throw _
  | compile name text => exact (named name).bind fun place => recompiles place text
  | remove name kind handler =>
      exact (named name).bind fun place => parallel_modifyCompiler place ⟨fun _ _ => rfl, fun _ => rfl⟩

theorem parallel_runHandlers (compiler : Nat) (kind : EventKind) {expression other : String}
    (corresponds : ∀ name made,
      tells (.handled name made expression) (.handled name made other)) (names : List String) :
    Parallel (Twins equally tells base) (runHandlers recompile compiler kind expression names)
      (runHandlers recompile compiler kind other names) := by
  induction names with
  | nil => exact Parallel.pure ()
  | cons name rest inductionHypothesis =>
      refine Parallel.get_bind fun first second twins => ?_
      have same : (first.compiler compiler).handlers = (second.compiler compiler).handlers := by
        rw [twins.compiler]
        rfl
      rw [same, twins.handlers]
      cases ((second.compiler compiler).handlers kind).contains name with
      | false => exact inductionHypothesis first second twins
      | true =>
          cases Entries.get? second.handlers name with
          | none => exact inductionHypothesis first second twins
          | some handler =>
              exact ((parallel_log (corresponds name handler.kind)).bind fun _ =>
                (parallel_act recompiles handler.action).bind fun _ => inductionHypothesis)
                  first second twins

theorem parallel_emitWith (compiler : Nat) (kind : EventKind) {expression expressionOther : String}
    {event other : Event} (corresponds : tells event other)
    (handled : ∀ name made,
      tells (.handled name made expression) (.handled name made expressionOther)) :
    Parallel (Twins equally tells base) (emitWith recompile compiler kind expression event)
      (emitWith recompile compiler kind expressionOther other) := by
  refine (parallel_log corresponds).bind fun _ => Parallel.get_bind fun first second twins => ?_
  have same : (first.compiler compiler).handlers = (second.compiler compiler).handlers := by
    rw [twins.compiler]
    rfl
  rw [same]
  exact parallel_runHandlers recompiles compiler kind handled _ first second twins

end Handlers

/-! ### New paths -/

theorem parallel_rootTypeOf (compiler : Nat) (source : String)
    (parts : Option PathText.StaticParts) :
    Parallel (Twins equally tells base) (rootTypeOf compiler source parts)
      (rootTypeOf compiler source parts) := by
  cases parts with
  | none => exact Parallel.pure none
  | some parts =>
      refine Parallel.get_bind fun first second twins => ?_
      have same : (first.compiler compiler).registry = (second.compiler compiler).registry := by
        rw [twins.compiler]
        rfl
      rw [same, twins.registry]
      cases (second.registry (second.compiler compiler).registry).resolve parts.typeName with
      | ok owner => exact .ok twins
      | error cause => exact .error twins

theorem parallel_nodeOf (compiler : Nat) (source segment : String) :
    Parallel (Twins equally tells base) (nodeOf compiler source segment)
      (nodeOf compiler source segment) := by
  refine Parallel.get_bind fun first second twins => ?_
  have same : (first.compiler compiler).nodeTable = (second.compiler compiler).nodeTable := by
    rw [twins.compiler]
    rfl
  rw [same]
  cases (second.compiler compiler).nodeTable.node segment.toList with
  | ok made => exact .ok (twins.modifyCompiler compiler ⟨fun _ _ => rfl, fun _ => rfl⟩)
  | error cause => exact .error twins

theorem parallel_nodesOf (compiler : Nat) (source : String) (segments : List String) :
    Parallel (Twins equally tells base) (nodesOf compiler source segments)
      (nodesOf compiler source segments) := by
  induction segments with
  | nil => exact Parallel.pure []
  | cons segment rest inductionHypothesis =>
      exact (parallel_nodeOf compiler source segment).bind fun node =>
        inductionHypothesis.bind fun nodes => Parallel.pure (node :: nodes)

theorem parallel_checkRoot (compiler : Nat) (source : String) (rootType : Option Value)
    (parts : Option PathText.StaticParts) (nodes : List Node) :
    Parallel (Twins equally tells base) (checkRoot compiler source rootType parts nodes)
      (checkRoot compiler source rootType parts nodes) := by
  unfold checkRoot
  split
  · unfold checkTypes
    split
    · exact Parallel.pure ()
    · refine Parallel.get_bind fun first second twins => ?_
      have same : (first.compiler compiler).resolver = (second.compiler compiler).resolver := by
        rw [twins.compiler]
        rfl
      rw [same]
      exact (((parallel_onGraph _).bind fun _ => Parallel.pure ()).tryCatch fun _ =>
        Parallel.throw _) first second twins
  · exact Parallel.pure ()

theorem parallel_enterPath (compiler : Nat) (source : String) (nodes : List Node)
    (rootType : Option Value) :
    Parallel (Twins equally tells base) (enterPath compiler source nodes rootType)
      (enterPath compiler source nodes rootType) := by
  unfold enterPath
  split
  · refine Parallel.get_bind fun first second twins => ?_
    have same : (first.compiler compiler).nextSerial = (second.compiler compiler).nextSerial := by
      rw [twins.compiler]
      rfl
    rw [same]
    exact .ok (twins.modifyCompiler compiler ⟨fun _ _ => rfl, fun _ => rfl⟩)
  · exact Parallel.throw _

theorem parallel_checkCount (compiler : Nat) (source : String) (count : Nat) :
    Parallel (Twins equally tells base) (checkCount compiler source count)
      (checkCount compiler source count) := by
  refine Parallel.get_bind fun first second twins => ?_
  have same : (first.compiler compiler).maxNodes = (second.compiler compiler).maxNodes := by
    rw [twins.compiler]
    rfl
  rw [same]
  refine ((parallel_onGraph _).bind fun below => ?_) first second twins
  split
  · exact (parallel_onGraph _).bind fun shown => Parallel.throw _
  · exact Parallel.pure ()

theorem parallel_newPath (compiler : Nat) (source : String) :
    Parallel (Twins equally tells base) (newPath compiler source) (newPath compiler source) :=
  (parallel_lift _).bind fun _ => (parallel_rootTypeOf _ _ _).bind fun _ =>
    (parallel_lift _).bind fun _ => (parallel_checkCount _ _ _).bind fun _ =>
      (parallel_nodesOf _ _ _).bind fun _ => (parallel_checkRoot _ _ _ _ _).bind fun _ =>
        (parallel_enterPath _ _ _ _).bind fun _ => Parallel.pure _

/-! ### Compiling and reporting -/

variable (echoes : Echoes tells)

include echoes

theorem parallel_compileWithin (depth compiler : Nat) (text : String) :
    Parallel (Twins equally tells base) (compileWithin depth compiler text)
      (compileWithin depth compiler text) := by
  induction depth generalizing compiler text with
  | zero => exact Parallel.throw _
  | succ depth inductionHypothesis =>
      rw [compileWithin]
      unfold compileWith
      dsimp only
      split
      · exact Parallel.throw _
      · refine Parallel.get_bind fun first second twins => ?_
        have same : (first.compiler compiler).expressions =
            (second.compiler compiler).expressions := by
          rw [twins.compiler]
          rfl
        rw [same]
        cases Entries.get? (second.compiler compiler).expressions (Text.trim text) with
        | some path => exact .ok twins
        | none =>
            refine ((parallel_newPath _ _).bind fun made => ?_) first second twins
            refine (parallel_emitWith (fun place nested => ?_) compiler .compiled
              (echoes.compiled ..) fun _ _ => echoes.handled ..).bind fun _ => Parallel.pure _
            exact (inductionHypothesis place nested).bind fun _ => Parallel.pure ()

theorem parallel_compile (compiler : Nat) (text : String) :
    Parallel (Twins equally tells base) (compile compiler text) (compile compiler text) := by
  refine Parallel.get_bind fun first second twins => ?_
  have same : nesting first = nesting second := by rw [nesting, twins.handlers, nesting]
  rw [same]
  exact parallel_compileWithin echoes _ compiler text first second twins

/-- Two reports that correspond are handled alike. -/
theorem parallel_emit (compiler : Nat) (kind : EventKind) {expression expressionOther : String}
    {event other : Event} (corresponds : tells event other)
    (handled : ∀ name made,
      tells (.handled name made expression) (.handled name made expressionOther)) :
    Parallel (Twins equally tells base) (emit compiler kind expression event)
      (emit compiler kind expressionOther other) :=
  parallel_emitWith (fun place text => (parallel_compile echoes place text).bind fun _ =>
    Parallel.pure ()) compiler kind corresponds handled

end Compiling

end Session

end ObjectPath
