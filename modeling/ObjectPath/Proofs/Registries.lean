import ObjectPath.Graph.Standard
import ObjectPath.Proofs.Compiling

/-!
# Calls on registries

Registries are called directly, and by compilers that bind texts to classes.  Whatever the calls
are, and however they end, a name resolves to the class that has this name, no binding is lost,
and a call binds nothing but what it is about.
-/

namespace ObjectPath

namespace Registry

theorem resolve_eq_ok_iff {registry : Registry} {name : String} {type : Value} :
    registry.resolve name = .ok type ↔ registry.type? (.string name) = some type := by
  unfold resolve
  split <;> rename_i found <;> rw [found]
  · exact ⟨fun same => congrArg some (Except.ok.inj same),
      fun same => congrArg Except.ok (Option.some.inj same)⟩
  · exact ⟨nofun, nofun⟩

/-- A name resolves to a class exactly if it is the name of the class. -/
theorem Matched.resolve_iff {registry : Registry} (matched : registry.Matched) {name : String}
    {place : Nat} :
    registry.resolve name = .ok (.object place) ↔
      registry.name? (.object place) = some (.string name) :=
  resolve_eq_ok_iff.trans ⟨matched.name?_of_type?, matched.type?_of_name?⟩

end Registry

namespace World

/-- The name of a class can be told without a trace: the class is registered, or reading its own
name leaves the graph as it is. -/
def Steady (world : World) (registry : String) (place : Nat) : Prop :=
  (world.registry registry).name? (.object place) = none →
    Peeks (Run.step (.object place) "name") world.graph fun _ => True

/-- A world has the registries of another one, save that a type may have been registered in one
of them. -/
def Enrolled (registry : String) (type : Value) (world later : World) : Prop :=
  later.registries = world.registries ∨
    ∃ name result, Registry.Registers (world.registry registry) name type result ∧
      later.registries = (world.setRegistry registry result).registries

theorem registry_of_registries {world later : World} (same : later.registries = world.registries)
    (name : String) : later.registry name = world.registry name := by
  rw [registry, same, registry]

theorem Enrolled.onward {registry : String} {type : Value} {world middle later : World}
    (enrolled : Enrolled registry type world middle)
    (same : later.registries = middle.registries) : Enrolled registry type world later := by
  rcases enrolled with kept | ⟨name, result, registers, changed⟩
  · exact Or.inl (same.trans kept)
  · exact Or.inr ⟨name, result, registers, same.trans changed⟩

/-- Only the registry that a type was registered in may have changed. -/
theorem Enrolled.registry_eq {enrolling registry : String} {type : Value} {world later : World}
    (enrolled : Enrolled enrolling type world later) :
    later.registry registry = world.registry registry ∨ enrolling = registry ∧
      ∃ name, Registry.Registers (world.registry registry) name type (later.registry registry) := by
  rcases enrolled with same | ⟨name, result, registers, same⟩
  · exact Or.inl (registry_of_registries same registry)
  · rw [registry_of_registries same, registry_setRegistry]
    split
    · rename_i isSame
      subst isSame
      exact Or.inr ⟨rfl, name, registers⟩
    · exact Or.inl rfl

end World

namespace Session

open World

variable {α β : Type} {world : World}

/-! ## Work that registers nothing -/

/-- Work that leaves the registries as they are, however it ends. -/
def Sparing (work : Session α) : Prop :=
  ∀ world, Ensures work world (fun _ later => later.registries = world.registries)
    fun _ later => later.registries = world.registries

theorem Sparing.bind {work : Session α} {next : α → Session β} (first : Sparing work)
    (rest : ∀ value, Sparing (next value)) : Sparing (work >>= next) :=
  fun world => Ensures.bind (first world) fun value later same =>
    (rest value later).mono (fun _ _ again => again.trans same) fun _ _ again => again.trans same

theorem sparing_pure (value : α) : Sparing (pure value) :=
  fun _ => rfl

theorem sparing_throw (fault : Fault) : Sparing (throw fault : Session α) :=
  fun _ => rfl

theorem sparing_onGraph (run : Run α) : Sparing (onGraph run) := by
  intro world
  have always : Gives run fun _ => True := fun _ _ _ _ => trivial
  refine (onGraph_gives always world).mono ?_ ?_
  · rintro _ _ ⟨_, _, rfl⟩
    rfl
  · rintro _ _ ⟨_, rfl⟩
    rfl

theorem sparing_lift (result : Except Fault α) : Sparing (lift result) := by
  cases result with
  | ok value => exact sparing_pure value
  | error fault => exact sparing_throw fault

theorem sparing_compile (place : Nat) (text : String) : Sparing (compile place text) :=
  fun world => (compile_ensures place text world).mono (fun _ _ ended => ended.1.registries)
    fun _ _ makes => makes.registries

/-! ## Work that registers one type -/

/-- Work registers a type in a registry at most, however it ends. -/
def Enrolls (registry : String) (type : Value) (work : Session α) (world : World) : Prop :=
  Ensures work world (fun _ later => Enrolled registry type world later)
    fun _ later => Enrolled registry type world later

section Enrolls

variable {registry : String} {type : Value} {work : Session α}

theorem Sparing.onward (sparing : Sparing work) {base : World}
    (enrolled : Enrolled registry type base world) :
    Ensures work world (fun _ later => Enrolled registry type base later)
      fun _ later => Enrolled registry type base later :=
  (sparing world).mono (fun _ _ => enrolled.onward) fun _ _ => enrolled.onward

theorem Enrolls.bind {next : α → Session β} (first : Enrolls registry type work world)
    (rest : ∀ value, Sparing (next value)) : Enrolls registry type (work >>= next) world :=
  Ensures.bind first fun value _ enrolled => (rest value).onward enrolled

theorem Enrolls.tryCatch {handle : Fault → Session α} (first : Enrolls registry type work world)
    (rest : ∀ fault, Sparing (handle fault)) :
    Enrolls registry type (tryCatch work handle) world :=
  Ensures.tryCatch first fun fault _ enrolled => (rest fault).onward enrolled

end Enrolls

theorem enrolls_nameOf (registry : String) (type : Value) (world : World) :
    Enrolls registry type (nameOf registry type) world := by
  refine Ensures.get_bind (Ensures.bind
    ((onGraph_gives (Registry.nameOf_gives _ type) world).mono (fun _ _ => id) ?_) ?_)
  · rintro _ _ ⟨_, rfl⟩
    exact Or.inl rfl
  · rintro ⟨known, result⟩ _ ⟨⟨name, registers⟩, graph, rfl⟩
    have enrolled : Enrolled registry type world
        ({ world with graph := graph }.setRegistry registry result) :=
      Or.inr ⟨name, result, registers, rfl⟩
    cases known with
    | some name => exact enrolled
    | none => exact (sparing_onGraph _).onward enrolled

/-- Whatever text a type is bound to, the type is named at most. -/
theorem enrolls_requestedText (compiler place : Nat) (text : Value) (world : World) :
    Enrolls (world.compiler compiler).registry (.object place)
      (requestedText compiler [.object place, text]) world := by
  have named := enrolls_nameOf (world.compiler compiler).registry (.object place) world
  have bound : ∀ source, Enrolls (world.compiler compiler).registry (.object place)
      (boundText compiler (.object place) source) world := fun source =>
    Ensures.get_bind ((named.tryCatch fun _ => sparing_throw _).bind fun _ =>
      (sparing_onGraph _).bind fun _ => sparing_lift _)
  have boundValue : Enrolls (world.compiler compiler).registry (.object place)
      (boundValueText compiler (.object place) text) world :=
    Ensures.get_bind ((named.tryCatch fun _ => (sparing_onGraph _).bind sparing_throw).bind fun _ =>
      (sparing_onGraph _).bind fun _ => (sparing_onGraph _).bind fun _ => sparing_pure _)
  unfold requestedText
  dsimp only [List.getD_cons_zero, List.getD_cons_succ]
  cases text with
  | undefined => exact Or.inl rfl
  | string source => exact bound source
  | _ => exact boundValue

/-! ## Calls -/

/-- A call in which a registry takes part: directly, or by compiling a text, or a value in the
place of one, bound to a class. -/
inductive RegistryCall
  | register (registry name : String) (place : Nat)
  | nameOf (registry : String) (place : Nat)
  | resolve (registry name : String)
  | compile (compiler place : Nat) (text : Value)

namespace RegistryCall

/-- Makes a call, for its effect. -/
def run : RegistryCall → Session Unit
  | register registry name place => Session.register registry name (.object place)
  | nameOf registry place => do
      let _ ← Session.nameOf registry (.object place)
      pure ()
  | resolve registry name => do
      let _ ← lift (((← get).registry registry).resolve name)
      pure ()
  | compile compiler place text => do
      let _ ← compileValues compiler [.object place, text]
      pure ()

/-- What a call may bind in a registry. -/
def MayBind (world : World) (registry name : String) (place : Nat) : RegistryCall → Prop
  | register other given type => other = registry ∧ given = name ∧ type = place
  | nameOf other type => other = registry ∧ type = place
  | resolve _ _ => False
  | compile compiler type _ => (world.compiler compiler).registry = registry ∧ type = place

/-- What a call makes of a registry: it leaves the registry alone, or it registers a class that
it may bind there. -/
def Affects (call : RegistryCall) (registry : String) (world later : World) : Prop :=
  later.registry registry = world.registry registry ∨
    ∃ name place, (∀ text, name = .string text → call.MayBind world registry text place) ∧
      Registry.Registers (world.registry registry) name (.object place) (later.registry registry)

end RegistryCall

theorem register_ensures (registry name : String) (type : Value) (world : World) :
    Ensures (register registry name type) world
      (fun _ later => ∃ result,
        Registry.Registers (world.registry registry) (.string name) type result ∧
          later.registries = (world.setRegistry registry result).registries)
      fun _ later => later.registries = world.registries := by
  refine Ensures.get_bind (Ensures.bind
    ((onGraph_gives (Registry.register_gives _ (.string name) type) world).mono (fun _ _ => id) ?_)
    ?_)
  · rintro _ _ ⟨_, rfl⟩
    rfl
  · rintro result _ ⟨registers, _, rfl⟩
    exact ⟨result, registers, rfl⟩

/-- What one call makes of a registry. -/
theorem RegistryCall.affects (call : RegistryCall) (registry : String) (world : World) :
    call.Affects registry world (stateAfter call.run world) := by
  have about : ∀ (enrolling : String) (place : Nat) {later : World},
      (enrolling = registry → ∀ text, call.MayBind world registry text place) →
        Enrolled enrolling (.object place) world later → call.Affects registry world later := by
    intro enrolling place later mayBind enrolled
    rcases (enrolled.registry_eq : later.registry registry = _ ∨ _) with same | ⟨isSame, name, registers⟩
    · exact Or.inl same
    · exact Or.inr ⟨name, place, fun text _ => mayBind isSame text, registers⟩
  cases call with
  | register enrolling name place =>
      refine Ensures.stateAfter ((register_ensures enrolling name (.object place) world).mono ?_ ?_)
      · rintro _ later ⟨result, registers, same⟩
        rw [RegistryCall.Affects, registry_of_registries same, registry_setRegistry]
        split
        · rename_i isSame
          subst isSame
          refine Or.inr ⟨.string name, place, fun text isText => ?_, registers⟩
          exact ⟨rfl, Value.string.inj isText, rfl⟩
        · exact Or.inl rfl
      · exact fun _ later same => Or.inl (registry_of_registries same registry)
  | nameOf enrolling place =>
      have enrolls := (enrolls_nameOf enrolling (.object place) world).bind
        fun _ => sparing_pure ()
      exact about enrolling place (fun isSame _ => ⟨isSame, rfl⟩) enrolls.stateAfter
  | resolve enrolling name =>
      have sparing : Sparing (RegistryCall.resolve enrolling name).run := fun other =>
        Ensures.get_bind ((sparing_lift _).bind (fun _ => sparing_pure ()) other)
      exact Or.inl (registry_of_registries (sparing world).stateAfter registry)
  | compile compiler place text =>
      have enrolls := ((enrolls_requestedText compiler place text world).bind
        fun source => sparing_compile compiler source).bind fun _ => sparing_pure ()
      exact about _ place (fun isSame _ => ⟨isSame, rfl⟩) enrolls.stateAfter

/-! ## Rows of calls -/

/-- Calls in which a registry takes part are made one after the other; between them anything may
happen that leaves the registry as it is. -/
inductive Calls (registry : String) (start : World) : World → Prop
  | done : Calls registry start start
  | call {world : World} (call : RegistryCall) : Calls registry start world →
      Calls registry start (stateAfter call.run world)
  | beside {world later : World} : later.registry registry = world.registry registry →
      Calls registry start world → Calls registry start later

section Calls

variable {registry : String} {start world : World}

/-- What registering keeps, calls keep. -/
theorem Calls.keeps (holds : Registry → Prop)
    (each : ∀ before name type after, Registry.Registers before name type after →
      holds before → holds after)
    (calls : Calls registry start world) (started : holds (start.registry registry)) :
    holds (world.registry registry) := by
  induction calls with
  | done => exact started
  | call call _ inductionHypothesis =>
      rcases call.affects registry _ with same | ⟨name, place, _, registers⟩
      · rwa [same]
      · exact each _ _ _ _ registers inductionHypothesis
  | beside same _ inductionHypothesis => rwa [same]

theorem Calls.matched (calls : Calls registry start world)
    (matched : (start.registry registry).Matched) : (world.registry registry).Matched :=
  calls.keeps Registry.Matched (fun _ _ _ _ registers => registers.matched) matched

/-- A name keeps its type. -/
theorem Calls.resolve (calls : Calls registry start world) {name : String} {type : Value}
    (found : (start.registry registry).resolve name = .ok type) :
    (world.registry registry).resolve name = .ok type :=
  Registry.resolve_eq_ok_iff.2 (calls.keeps (·.type? (.string name) = some type)
    (fun _ _ _ _ registers => registers.type?) (Registry.resolve_eq_ok_iff.1 found))

/-- A type keeps its name. -/
theorem Calls.name? (calls : Calls registry start world) {type name : Value}
    (found : (start.registry registry).name? type = some name) :
    (world.registry registry).name? type = some name :=
  calls.keeps (·.name? type = some name) (fun _ _ _ _ registers => registers.name?) found

end Calls

/-! ## Outcomes of calls -/

section Outcomes

variable {registry : String} {place : Nat}

/-- A name that a call gives a class is one that the call is about. -/
theorem RegistryCall.mayBind_of_resolve (call : RegistryCall) {name : String}
    (found : ((stateAfter call.run world).registry registry).resolve name = .ok (.object place)) :
    (world.registry registry).resolve name = .ok (.object place) ∨
      call.MayBind world registry name place := by
  rcases call.affects registry world with same | ⟨given, type, mayBind, registers⟩
  · exact Or.inl (same ▸ found)
  · rcases registers.eq_of_type? (Registry.resolve_eq_ok_iff.1 found) with before | ⟨isName, isType⟩
    · exact Or.inl (Registry.resolve_eq_ok_iff.2 before)
    · obtain rfl := Value.object.inj isType
      exact Or.inr (mayBind name isName.symm)

/-- A class is registered under a name, or the registries are left alone. -/
theorem register_resolves (registry name : String) (place : Nat) (world : World) :
    Ensures (register registry name (.object place)) world
      (fun _ later => (later.registry registry).resolve name = .ok (.object place))
      fun _ later => later.registries = world.registries := by
  refine Ensures.get_bind (Ensures.bind
    ((onGraph_gives (Registry.register_binds _ (.string name) place) world).mono (fun _ _ => id) ?_)
    ?_)
  · rintro _ _ ⟨_, rfl⟩
    rfl
  · rintro result _ ⟨binds, graph, rfl⟩
    change (({ world with graph := graph }.setRegistry registry result).registry registry).resolve
      name = _
    rw [registry_setRegistry, if_pos rfl]
    exact Registry.resolve_eq_ok_iff.2 binds

/-- A class whose name can be told without a trace is registered under the name that is given,
or the registries are left alone. -/
theorem nameOf_resolves (matched : (world.registry registry).Matched)
    (steady : Steady world registry place) :
    Ensures (nameOf registry (.object place)) world
      (fun name later => (later.registry registry).type? name = some (.object place))
      fun _ later => later.registries = world.registries := by
  refine Ensures.get_bind (Ensures.bind
    ((onGraph_ensures (Registry.nameOf_of_steady matched steady)).mono (fun _ _ => id) ?_) ?_)
  · rintro _ later ⟨same, _⟩
    rw [same]
  · rintro ⟨known, result⟩ later ⟨same, sameGraph, name, bound, own⟩
    rw [sameGraph] at same
    subst same
    have isBound : ((world.setRegistry registry result).registry registry).type? name =
        some (.object place) := by
      rwa [registry_setRegistry, if_pos rfl]
    rcases own with ⟨isKnown, _⟩ | ⟨isUnknown, _, read⟩
    · dsimp only at isKnown
      subst isKnown
      exact isBound
    · dsimp only at isUnknown
      subst isUnknown
      exact Ensures.ok_bind rfl (Ensures.of_ok (onGraph_of_ok read) isBound)

end Outcomes

/-- After any calls on a registry that was empty at the start: a name resolves to a class exactly
if it is the name of the class, and different names resolve to different classes.  What a name
resolves to, and the name of a class, never change from there on, and a call binds nothing but
what it is about.  A class that could be registered is what its name resolves to, and so is a
class whose name was given, where reading its own name leaves no trace; a call of either kind that
fails leaves the registries as they were. -/
theorem registry_is_one_to_one {registry : String} {start : World}
    (empty : start.registry registry = .empty) (calls : Calls registry start world) :
    (∀ name place, (world.registry registry).resolve name = .ok (.object place) ↔
      (world.registry registry).name? (.object place) = some (.string name)) ∧
    (∀ name place other second, (world.registry registry).resolve name = .ok (.object place) →
      (world.registry registry).resolve other = .ok (.object second) →
        (name = other ↔ place = second)) ∧
    (∀ later, Calls registry world later →
      (∀ name type, (world.registry registry).resolve name = .ok type →
        (later.registry registry).resolve name = .ok type) ∧
      ∀ type name, (world.registry registry).name? type = some name →
        (later.registry registry).name? type = some name) ∧
    (∀ (call : RegistryCall) name place,
      ((stateAfter call.run world).registry registry).resolve name = .ok (.object place) →
        (world.registry registry).resolve name = .ok (.object place) ∨
          call.MayBind world registry name place) ∧
    (∀ name place, Ensures (register registry name (.object place)) world
      (fun _ later => (later.registry registry).resolve name = .ok (.object place))
      fun _ later => later.registries = world.registries) ∧
    ∀ place, Steady world registry place → Ensures (nameOf registry (.object place)) world
      (fun name later => (later.registry registry).type? name = some (.object place) ∧
        ∀ text, name = .string text → (later.registry registry).resolve text = .ok (.object place))
      fun _ later => later.registries = world.registries := by
  have matched : (world.registry registry).Matched :=
    calls.matched (by rw [empty]; exact Registry.matched_empty)
  refine ⟨fun name place => matched.resolve_iff, ?_, fun later onward =>
    ⟨fun name type => onward.resolve, fun type name => onward.name?⟩,
    fun call name place => call.mayBind_of_resolve,
    fun name place => register_resolves registry name place world, fun place steady => ?_⟩
  · intro name place other second found foundOther
    constructor
    · rintro rfl
      exact Value.object.inj (Except.ok.inj (found.symm.trans foundOther))
    · rintro rfl
      have same := (matched.resolve_iff.1 found).symm.trans (matched.resolve_iff.1 foundOther)
      exact Value.string.inj (Option.some.inj same)
  · refine (nameOf_resolves matched steady).mono (fun name later bound => ⟨bound, ?_⟩)
      fun _ _ => id
    rintro text rfl
    exact Registry.resolve_eq_ok_iff.2 bound

theorem registry_is_one_to_one_of_string :
    let start := World.initial .standard
    let world := stateAfter (RegistryCall.register World.standardRegistry "A"
      BuiltinClass.string.place).run start
    start.registry World.standardRegistry = .empty ∧ Calls World.standardRegistry start world ∧
      (world.registry World.standardRegistry).name? (.object BuiltinClass.string.place) =
        some (.string "A") ∧
      Steady world World.standardRegistry BuiltinClass.number.place ∧
      ∃ later, nameOf World.standardRegistry (.object BuiltinClass.number.place) world =
          .ok (.string "Number") later ∧
        (later.registry World.standardRegistry).resolve "Number" =
          .ok (.object BuiltinClass.number.place) := by
  intro start world
  have empty : start.registry World.standardRegistry = .empty := rfl
  have calls : Calls World.standardRegistry start world := .call _ .done
  have resolved : (world.registry World.standardRegistry).resolve "A" =
      .ok (.object BuiltinClass.string.place) := rfl
  have steady : Steady world World.standardRegistry BuiltinClass.number.place := fun _ => by
    have read : Run.step (.object BuiltinClass.number.place) "name" world.graph =
        .ok (.string "Number") world.graph := rfl
    rw [Peeks, Ensures, read]
    exact ⟨rfl, trivial⟩
  have named : nameOf World.standardRegistry (.object BuiltinClass.number.place) world =
      .ok (.string "Number") _ := rfl
  obtain ⟨oneToOne, _, _, _, _, naming⟩ := registry_is_one_to_one empty calls
  exact ⟨empty, calls, (oneToOne "A" _).1 resolved, steady, _, named,
    ((naming _ steady).ok named).2 "Number" rfl⟩

/-! ## A name that changes while it is read -/

/-- The body of a getter that adds to a text whenever it is read. -/
def turningBody : List Statement :=
  [.increment "turn", .return (.slot .receiver "turn")]

/-- The place of the class whose name turns. -/
def turningPlace : Nat :=
  Graph.standard.objects.size

/-- A graph with a class whose name is another one whenever it is read. -/
def turningGraph (turn : String) : Graph :=
  { Graph.standard with
    objects := Graph.standard.objects ++ #[
      ⟨some BuiltinClass.function.sharedPlace, .function (.definedClass false ⟨none, none, []⟩),
        [(.name "turn", .data (.string turn) .plain),
          (.name "name", .accessor (some (turningPlace + 1)) none false true)], true⟩,
      ⟨some BuiltinClass.function.sharedPlace, .function (.script turningBody false), [], true⟩] }

theorem increase_string (invoke : Invoker) {text : String} (graph : Graph)
    (short : Text.unitLength (text ++ "1") ≤ Run.greatestTextLength) :
    increase invoke (.string text) graph = .ok (.string (text ++ "1")) graph := by
  have simple : Run.simplify invoke .either (.string text) graph = .ok (.string text) graph := rfl
  have within : Run.bounded (text ++ "1") graph = .ok (text ++ "1") graph := by
    rw [Run.bounded, if_neg (Nat.not_lt.2 short)]
    rfl
  unfold increase
  rw [bind_of_ok simple]
  dsimp only
  rw [bind_of_ok within]
  rfl

/-- Reading the name changes it. -/
theorem step_turning {turn : String}
    (short : Text.unitLength (turn ++ "1") ≤ Run.greatestTextLength) :
    Run.step (.object turningPlace) "name" (turningGraph turn) =
      .ok (.string (turn ++ "1")) (turningGraph (turn ++ "1")) := by
  have called : Run.step (.object turningPlace) "name" (turningGraph turn) =
      runBody (performWithin (depthLimit - 1)) ⟨.object turningPlace, []⟩ turningBody
        (turningGraph turn) := rfl
  have increments : (Statement.increment "turn").execute (performWithin (depthLimit - 1))
      ⟨.object turningPlace, []⟩ (turningGraph turn) =
        .ok none (turningGraph (turn ++ "1")) := by
    rw [Statement.execute]
    dsimp only
    have reads : Run.readWith (performWithin (depthLimit - 1)) (.object turningPlace)
        (.ofText "turn") (turningGraph turn) = .ok (.string turn) (turningGraph turn) := rfl
    rw [bind_of_ok reads, bind_of_ok (increase_string _ _ short)]
    rfl
  have returns : (Statement.return (.slot .receiver "turn")).execute
      (performWithin (depthLimit - 1)) ⟨.object turningPlace, []⟩ (turningGraph (turn ++ "1")) =
        .ok (some (.string (turn ++ "1"))) (turningGraph (turn ++ "1")) := by
    simp only [Statement.execute, Expression.evaluate]
    rfl
  rw [called, turningBody, runBody, bind_of_ok increments]
  dsimp only
  rw [runBody, bind_of_ok returns]
  rfl

/-- The name that is given to a class is read once more after the class was registered. -/
theorem given_name_is_not_registered :
    let world := World.initial (turningGraph "N")
    world.registry World.standardRegistry = .empty ∧
      ∃ later, nameOf World.standardRegistry (.object turningPlace) world =
          .ok (.string "N111") later ∧
        (later.registry World.standardRegistry).name? (.object turningPlace) =
          some (.string "N11") ∧
        (later.registry World.standardRegistry).resolve "N111" = .error (.unknownType "N111") := by
  intro world
  have first : Run.step (.object turningPlace) "name" (turningGraph "N") =
      .ok (.string "N1") (turningGraph "N1") := step_turning (by decide)
  have second : Run.step (.object turningPlace) "name" (turningGraph "N1") =
      .ok (.string "N11") (turningGraph "N11") := step_turning (by decide)
  have third : Run.step (.object turningPlace) "name" (turningGraph "N11") =
      .ok (.string "N111") (turningGraph "N111") := step_turning (by decide)
  have registered : Registry.empty.nameOf (.object turningPlace) (turningGraph "N") =
      .ok (none, Registry.empty.bind (.string "N11") (.object turningPlace))
        (turningGraph "N11") := by
    change (Run.step (.object turningPlace) "name" >>= _) _ = _
    rw [bind_of_ok first]
    change (Run.step (.object turningPlace) "name" >>= _) _ = _
    rw [bind_of_ok second]
    rfl
  let middle := ({ world with graph := turningGraph "N11" } : World).setRegistry
    World.standardRegistry (Registry.empty.bind (.string "N11") (.object turningPlace))
  have readAgain : onGraph (Run.step (.object turningPlace) "name") middle =
      .ok (.string "N111") { middle with graph := turningGraph "N111" } := onGraph_of_ok third
  refine ⟨rfl, { middle with graph := turningGraph "N111" }, ?_, rfl, rfl⟩
  unfold nameOf
  rw [bind_get]
  change (onGraph (Registry.empty.nameOf (.object turningPlace)) >>= _) world = _
  rw [bind_of_ok (onGraph_of_ok registered)]
  exact readAgain

end Session

end ObjectPath
