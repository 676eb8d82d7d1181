import ObjectPath.Evaluation
import ObjectPath.Proofs.Compiling

/-!
# Worlds between evaluations

An evaluation makes nothing but changes as compiling does, so caches stay sound and paths stay
cached.  What paths are evaluated with stays as well.  Compiling a path that starts from a root
leaves the graph alone, as long as the limit of the compiler is a number and no handler compiles
anything.
-/

namespace ObjectPath

namespace World

/-! ## What paths are evaluated with -/

/-- A later world has the same handlers and factories, and its compilers the same resolvers and
factories. -/
structure Furnishes (world later : World) : Prop where
  resolver : ∀ place, (later.compiler place).resolver = (world.compiler place).resolver
  factory : ∀ place, (later.compiler place).factory = (world.compiler place).factory
  factories : later.factories = world.factories
  handlers : later.handlers = world.handlers

namespace Furnishes

variable {first second third : World}

theorem refl (world : World) : Furnishes world world :=
  ⟨fun _ => rfl, fun _ => rfl, rfl, rfl⟩

theorem trans (left : Furnishes first second) (right : Furnishes second third) :
    Furnishes first third where
  resolver := fun place => (right.resolver place).trans (left.resolver place)
  factory := fun place => (right.factory place).trans (left.factory place)
  factories := right.factories.trans left.factories
  handlers := right.handlers.trans left.handlers

/-- A compiler that keeps its resolver and its factory may be changed. -/
theorem of_modifyCompiler (world : World) (place : Nat) {change : Compiler → Compiler}
    (resolver : ∀ compiler, (change compiler).resolver = compiler.resolver)
    (factory : ∀ compiler, (change compiler).factory = compiler.factory) :
    Furnishes world (world.modifyCompiler place change) where
  resolver := fun other => by
    rcases compiler_modifyCompiler world place other change with same | same <;> rw [same]
    exact resolver _
  factory := fun other => by
    rcases compiler_modifyCompiler world place other change with same | same <;> rw [same]
    exact factory _
  factories := rfl
  handlers := rfl

theorem quiet (furnishes : Furnishes first second) (isQuiet : first.Quiet) : second.Quiet := by
  unfold Quiet
  rw [furnishes.handlers]
  exact isQuiet

end Furnishes

theorem Change.furnishes {world later : World} (change : Change world later) :
    Furnishes world later := by
  cases change with
  | prepare preparation =>
      cases preparation with
      | graph => exact ⟨fun _ => rfl, fun _ => rfl, rfl, rfl⟩
      | intern => exact .of_modifyCompiler world _ (fun _ => rfl) fun _ => rfl
  | @enter place path typeName =>
      have furnishes : Furnishes world (world.enter place path) :=
        .of_modifyCompiler world place (fun _ => rfl) fun _ => rfl
      exact ⟨furnishes.resolver, furnishes.factory, furnishes.factories, furnishes.handlers⟩
  | remark => exact ⟨fun _ => rfl, fun _ => rfl, rfl, rfl⟩
  | unsubscribe => exact .of_modifyCompiler world _ (fun _ => rfl) fun _ => rfl
  | register => exact ⟨fun _ => rfl, fun _ => rfl, rfl, rfl⟩

theorem Changes.furnishes {world later : World} (changes : Changes world later) :
    Furnishes world later :=
  changes.keeps (Furnishes world) (fun _ _ change furnishes => furnishes.trans change.furnishes)
    (.refl world)

end World

namespace Session

open World

variable {world : World} {place : Nat}

/-! ## Evaluations as changes -/

theorem Changing.bind {α β : Type} {work : Session α} {next : α → Session β}
    (first : Changing work) (rest : ∀ value, Changing (next value)) : Changing (work >>= next) :=
  fun base _ changed => Ensures.bind (first base _ changed) fun value _ later =>
    rest value base _ later

theorem Changing.get_bind {α : Type} {next : World → Session α}
    (rest : ∀ world, Changing (next world)) : Changing (get >>= next) :=
  fun base _ changed => Ensures.get_bind (rest _ base _ changed)

theorem changing_pure {α : Type} (value : α) : Changing (pure value) :=
  fun _ _ => id

theorem changing_throw {α : Type} (fault : Fault) : Changing (throw fault : Session α) :=
  fun _ _ => id

theorem changing_onGraph {α : Type} (run : Run α) : Changing (onGraph run) :=
  fun _ _ changed => (onGraph_prepares run .refl).mono
    (fun _ _ prepares => changed.trans prepares.changes) fun _ _ prepares =>
      changed.trans prepares.changes

theorem changing_reportFilled (path : Path) (index : Nat) (node : Node) (type value : Value) :
    Changing (reportFilled path index node type value) :=
  (changing_onGraph _).bind fun _ => .get_bind fun _ => changing_emit _ _ _ fun _ => rfl

theorem changing_walk (path : Path) (resolver : Resolver) (options : EvaluateOptions)
    (nodes : List Node) (index : Nat) (position : Position) :
    Changing (walk path resolver options index position nodes) := by
  induction nodes generalizing index position with
  | nil => exact changing_pure _
  | cons node rest inductionHypothesis =>
      unfold walk
      refine (changing_onGraph _).bind fun value => ?_
      split
      · split
        · exact changing_pure _
        · refine (changing_onGraph _).bind fun type => (changing_onGraph _).bind fun made => ?_
          split
          · exact changing_pure _
          · refine (changing_onGraph _).bind fun written => ?_
            split
            · exact (changing_reportFilled _ _ _ _ _).bind fun _ => inductionHypothesis _ _
            · exact changing_pure _
      · exact inductionHypothesis _ _

theorem changing_walkPath (path : Path) (start : Position) (options : EvaluateOptions) :
    Changing (walkPath path start options) :=
  .get_bind fun _ => changing_walk _ _ _ _ _ _

theorem changing_abandon (path : Path) (index : Nat) (type : Value) :
    Changing (abandon path index type) := by
  refine (changing_onGraph _).bind fun typeName =>
    (changing_emit _ _ _ fun _ => rfl).bind fun _ => .get_bind fun world => ?_
  split
  · exact (changing_onGraph _).bind fun _ => (changing_onGraph _).bind fun _ => changing_throw _
  · exact changing_pure _

theorem changing_assign (path : Path) (start : Position) (value : Value)
    (options : EvaluateOptions) : Changing (assign path start value options) := by
  refine .get_bind fun world => (changing_walkPath _ _ _).bind fun arrival => ?_
  cases arrival with
  | stopped index type => exact changing_abandon _ _ _
  | arrived position =>
      refine .get_bind fun _ => (changing_onGraph _).bind fun written => ?_
      split
      · exact changing_pure _
      · exact (changing_onGraph _).bind fun _ => (changing_onGraph _).bind fun _ =>
          changing_abandon _ _ _

/-- All that a write does to a world is a row of changes. -/
theorem changing_setValue (path : Path) (root value : Value) (options : EvaluateOptions) :
    Changing (setValue path root value options) := by
  unfold setValue
  split
  · exact changing_throw _
  · split
    · exact changing_abandon _ _ _
    · exact changing_assign _ _ _ _

/-! ## Compilations that leave the graph alone -/

theorem checkCount_still {limit : Number} (limited : (world.compiler place).maxNodes = .number limit)
    (source : String) (count : Nat) :
    Ensures (checkCount place source count) world (fun _ later => later = world)
      fun _ _ => True := by
  refine Ensures.get_bind ?_
  rw [limited]
  refine Ensures.ok_bind (onGraph_of_ok (Run.isBelow_number limit count world.graph)) ?_
  split
  · exact Ensures.ok_bind (onGraph_of_ok (Run.messageText_number limit world.graph))
      (Ensures.throw trivial)
  · rfl

theorem nodesOf_still (source : String) (segments : List String) :
    Ensures (nodesOf place source segments) world (fun _ later => later.graph = world.graph)
      fun _ _ => True := by
  induction segments generalizing world with
  | nil => rfl
  | cons segment rest inductionHypothesis =>
      have still : Ensures (nodeOf place source segment) world
          (fun _ later => later.graph = world.graph) fun _ _ => True := by
        refine Ensures.get_bind ?_
        cases (world.compiler place).nodeTable.node segment.toList with
        | error cause => trivial
        | ok result => rfl
      unfold nodesOf
      refine Ensures.bind still fun node middle same => ?_
      refine Ensures.bind inductionHypothesis fun nodes later sameLater => ?_
      exact sameLater.trans same

/-- A new path that starts from a root is made without a look at the graph. -/
theorem newPath_still {limit : Number} (limited : (world.compiler place).maxNodes = .number limit)
    (source : String) :
    Ensures (newPath place source) world
      (fun made later => made.1.rootType = none → later.graph = world.graph)
      fun _ _ => True := by
  unfold newPath
  refine (lift_peeks _ world).ensures_bind (fun parts parsed => ?_) fun _ => trivial
  refine (rootTypeOf_peeks place source parts world).ensures_bind (fun rootType resolved => ?_)
    fun _ => trivial
  refine (lift_peeks _ world).ensures_bind (fun segments split => ?_) fun _ => trivial
  refine Ensures.bind (checkCount_still limited source segments.length) ?_
  rintro _ _ rfl
  refine Ensures.bind (nodesOf_still source segments) fun nodes interned same => ?_
  have checked : Ensures (checkRoot place source rootType parts nodes) interned
      (fun _ later => rootType = none → later.graph = interned.graph) fun _ _ => True := by
    cases rootType with
    | none => exact fun _ => rfl
    | some owner =>
        exact (checkRoot_prepares place source (some owner) parts nodes .refl).mono
          (fun _ _ _ => nofun) fun _ _ _ => trivial
  refine Ensures.bind checked fun _ walked sameWalked => ?_
  refine Ensures.bind ((enterPath_ensures place source nodes rootType walked).mono (fun _ _ => id)
    fun _ _ _ => trivial) ?_
  rintro path later ⟨rfl, _, _, _, rfl⟩
  exact fun noType => (sameWalked noType).trans same

/-- Compiling a path that starts from a root leaves the graph as it is. -/
theorem graph_of_compile {limit : Number} (limited : (world.compiler place).maxNodes = .number limit)
    (quiet : world.Quiet) {text : String} {path : Path} {later : World}
    (compiled : compile place text world = .ok path later) (noType : path.rootType = none) :
    later.graph = world.graph := by
  by_cases empty : Text.trim text = ""
  · cases (compile_of_empty empty).symm.trans compiled
  cases found : world.cached? place (Text.trim text) with
  | some cached =>
      cases (compile_of_cached empty found).symm.trans compiled
      rfl
  | none =>
      rw [compile_eq, compileWith, if_neg empty, bind_get] at compiled
      rw [World.cached?] at found
      rw [found] at compiled
      obtain ⟨⟨made, typeName⟩, middle, isNew, reported⟩ := ok_of_bind compiled
      obtain ⟨_, final, emitted, returned⟩ := ok_of_bind reported
      cases returned
      have same := (newPath_still limited (Text.trim text)).ok isNew noType
      have quietMiddle : ∀ event, (middle.log event).Quiet := by
        intro event
        unfold World.Quiet
        rw [show (middle.log event).handlers = world.handlers from (newPath_handlers isNew).1]
        exact quiet
      exact ((runHandlers_ensures _ _ _ _ _ (quietMiddle _)).ok emitted).1.trans same

end Session

end ObjectPath
