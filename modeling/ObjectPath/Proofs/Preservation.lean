import ObjectPath.Proofs.Resizing
import ObjectPath.Proofs.Surveying

/-!
# Writes that preserve declared types

A write with the default factory leaves values conforming, however it ends.  What it makes on
the way suits the slots that it is put into, and the value is put into a slot of the type that
the last node of the path has.
-/

namespace ObjectPath

open Graph

namespace Graph

/-- Some values conform, possibly together with others. -/
def ConformsOver (graph : Graph) (steps : List Step) (inside : Value → Prop) : Prop :=
  ∃ larger : Value → Prop, (∀ value, inside value → larger value) ∧
    graph.Conforming steps (fun _ => False) larger

end Graph

namespace Scene

open Session

variable {scene : Scene} {steps : List Step} {base typing : Typing} {path : Path}
  {target value : Value} {values : Value → Prop} {arguments : Option ArgumentMap}
  {supply : Factory} {world : World} {graph after : Graph}

/-- The values of the default factory join those that are there. -/
theorem provides_of_bears (soundStart : scene.start.Sound) (constructs : scene.Constructs)
    (bears : scene.Bears steps base.inside) (welcomes : scene.start.Welcomes steps base.inside)
    (arguments : Option ArgumentMap) : scene.Provides steps base standardFactory arguments :=
  fun stage requested => provides_standard stage.holds soundStart constructs bears welcomes
    stage.typed stage.since requested arguments

/-- Wherever an evaluation comes to, what was there conforms together with what it made and what
is brought in. -/
theorem Stage.conforming (stage : scene.Stage steps base graph typing)
    (soundStart : scene.start.Sound) (brought : scene.start.Brought steps base.inside values) :
    graph.Conforming steps (fun _ => False) fun value => typing.inside value ∨ values value :=
  stage.typed.settled.conforming brought stage.since soundStart stage.holds.sound.toClosed

theorem Unfolds.conformsOver {comes : Typing → Prop} (soundStart : scene.start.Sound)
    (brought : scene.start.Brought steps base.inside values)
    (unfolds : scene.Unfolds steps base graph typing after comes) :
    after.ConformsOver steps fun value => base.inside value ∨ values value := by
  obtain ⟨final, stage, _, _⟩ := unfolds
  exact ⟨_, fun value => Or.imp_left stage.since.inside, stage.conforming soundStart brought⟩

/-- A value that is stored in the slot of a typed set to which a write has come conforms there. -/
theorem Stage.store_conforms (stage : scene.Stage steps base graph typing)
    (soundStart : scene.start.Sound) (lettered : scene.start.Lettered steps)
    (brought : scene.start.Brought steps base.inside values) (isValue : values value)
    (listed : path.final (path.resolverIn world) ∈ steps) {place : Nat}
    (targets : scene.Targets steps base path target arguments supply world (.object place) graph
      typing)
    (conforms : ∀ type middle, AsksFor path target arguments supply world type middle →
      middle.graph.Conforms type value)
    (opens : graph.Opens (.object place) (path.final (path.resolverIn world)))
    (accepts : graph.Accepts place (path.final (path.resolverIn world)))
    (spares : graph.SparesComponents place (path.final (path.resolverIn world)).key) :
    (graph.store (.object place) (path.final (path.resolverIn world)).key value).ConformsOver
      steps fun value => base.inside value ∨ values value := by
  obtain ⟨isInside, type, middle, between, asks, stageMiddle, onward, knownType, slotType⟩ :=
    targets
  have sound := stage.holds.sound
  have known := stage.since.same.knows (brought.conforming.known isValue)
  have names : graph.Names steps (.object place) (path.final (path.resolverIn world)) := by
    cases isStep : path.final (path.resolverIn world) with
    | field name => exact Or.inl (isStep ▸ listed)
    | element index => exact accepts.array index isStep
  have same := sameTypes_store accepts.slot known opens.not_mem_classKeys spares
  have closedAfter := sound.toClosed.store accepts.slot known
  have since := stage.since.trans soundStart (.store accepts.slot isInside same)
  -- The elements of arrays that are brought in are the same throughout.
  have elements : ∀ {array : Value}, values array → middle.graph.isArray array = true →
      ∀ index, (graph.store (.object place) (path.final (path.resolverIn world)).key value).member
          array (.ofIndex index) = middle.graph.member array (.ofIndex index) ∧
        values (middle.graph.member array (.ofIndex index)) := by
    intro array isValue isArray index
    rw [stageMiddle.since.same.isArray (brought.conforming.known isValue)] at isArray
    have closedStart := soundStart.toClosed
    obtain ⟨sameMiddle, isElement⟩ := brought.element stageMiddle.since closedStart
      stageMiddle.holds.sound.toClosed isValue isArray index
    rw [sameMiddle, (brought.element since closedStart closedAfter isValue isArray index).1]
    exact ⟨rfl, isElement⟩
  have suits := Conforms.carry (onward.same.trans stageMiddle.holds.sound.toClosed same)
    stageMiddle.holds.sound
    (fun isValue => stageMiddle.since.same.knows (brought.conforming.known isValue)) elements
    knownType isValue (conforms type middle asks)
  rw [← slotType names] at suits
  have settled := stage.typed.settled_store sound
    (stage.since.same.lettered soundStart.toClosed lettered) accepts.slot isInside names isValue
    same suits
  exact ⟨_, fun value => Or.imp_left stage.since.inside,
    settled.conforming brought since soundStart closedAfter⟩

/-- An array of a typed set that gets another length leaves everything conforming. -/
theorem Stage.resized_conforms (stage : scene.Stage steps base graph typing)
    (soundStart : scene.start.Sound) (brought : scene.start.Brought steps base.inside values)
    {place : Nat} (isInside : typing.inside (.object place))
    (isArray : graph.isArray (.object place) = true) (nothing : base.inside .undefined)
    (length : Nat) :
    (graph.resized place length).ConformsOver steps
      fun value => base.inside value ∨ values value := by
  have since := stage.since
  refine ⟨_, fun value => Or.imp_left since.inside,
    (stage.conforming soundStart brought).resized length stage.holds.sound ?_
      (fun other above => stage.typed.elements isInside isArray above) (Or.inl (since.inside nothing))⟩
  rintro value (isInsideValue | isValue) above
  · rw [(stage.typed.heirs isInsideValue isInside above).2.1] at isArray
    cases isArray
  · have known := brought.conforming.known isValue
    rw [since.same.ancestors soundStart.toClosed known] at above
    have inside := soundStart.toClosed.ancestors_lt value place above
    rw [since.same.isArray (knows_object.2 inside),
      (brought.heirs isValue (since.old isInside inside) above).2.1] at isArray
    cases isArray

theorem Stage.extends_conforms (stage : scene.Stage steps base graph typing)
    (soundStart : scene.start.Sound) (brought : scene.start.Brought steps base.inside values)
    (extends_ : graph.Extends after) :
    after.ConformsOver steps fun value => base.inside value ∨ values value :=
  ⟨_, fun _ => Or.imp_left stage.since.inside,
    (stage.conforming soundStart brought).extends stage.holds.sound extends_⟩

/-- However a write ends that has come to a slot or was given up, everything conforms. -/
theorem conclude_conforms {isolated : Prop} {start : Graph} {later : World}
    (soundStart : scene.start.Sound) (lettered : scene.start.Lettered steps)
    (keys : scene.keys = steps.map Step.key)
    (brought : scene.start.Brought steps base.inside values) (isValue : values value)
    (nothing : base.inside .undefined) (plainPath : path.IsPlain)
    (listed : path.steps (path.resolverIn world) ⊆ steps)
    (same : path.resolverIn later = path.resolverIn world) (quiet : later.Quiet)
    {destination : Destination} (destined : scene.Destined isolated start target
      (path.resolverIn world) path later.graph destination)
    (stage : scene.Stage steps base later.graph typing)
    (targets : ∀ holder attached, destination = .reached holder attached →
      scene.Targets steps base path target arguments supply world holder later.graph typing)
    (conforms : ∀ type middle, AsksFor path target arguments supply world type middle →
      middle.graph.Conforms type value)
    (simpleLength : ∀ holder attached, destination = .reached holder attached →
      later.graph.isLength holder (path.final (path.resolverIn world)).key = true →
        value.isObject = false)
    (spares : ∀ place attached, destination = .reached (.object place) attached →
      later.graph.SparesComponents place (path.final (path.resolverIn world)).key) :
    Ensures (conclude path arguments value destination) later
      (fun _ final => final.graph.ConformsOver steps fun value => base.inside value ∨ values value)
      fun _ final => final.graph.ConformsOver steps fun value =>
        base.inside value ∨ values value := by
  have within : Within scene.keys (path.steps (path.resolverIn world)) := by
    intro step member
    rw [keys]
    exact List.mem_map_of_mem (listed member)
  have listedFinal : path.final (path.resolverIn world) ∈ steps :=
    listed (by simp [Path.steps_eq])
  -- A length is no slot: what it drops was typed, so what is left of the array still is.
  by_cases isLength : ∃ holder attached, destination = .reached holder attached ∧
      later.graph.isLength holder (path.final (path.resolverIn world)).key = true
  · obtain ⟨holder, attached, rfl, isLength⟩ := isLength
    refine Ensures.ok_bind (resolverOf_eq path later) ?_
    rw [show (later.compiler path.compiler).resolver = path.resolverIn world from same]
    refine Ensures.mono (onGraph_ensures (Node.settle_length_ensures plainPath.lastNode isLength
      (simpleLength holder attached rfl isLength))) ?_ ?_
    · rintro _ final ⟨_, place, length, rfl, resized⟩
      rw [resized]
      exact stage.resized_conforms soundStart brought (targets _ attached rfl).isInside
        (Bool.and_eq_true_iff.1 isLength).1 nothing length
    · rintro _ final ⟨_, unchanged⟩
      rw [unchanged]
      exact stage.extends_conforms soundStart brought (.refl _)
  · refine Ensures.mono (conclude_ensures plainPath within value same quiet stage.holds destined
      fun holder attached isReached => Bool.eq_false_iff.2 fun found =>
        isLength ⟨holder, attached, isReached, found⟩) ?_ ?_
    · intro _ final concluded
      cases destination with
      | stopped index type => exact stage.extends_conforms soundStart brought concluded.1
      | refused position => exact stage.extends_conforms soundStart brought concluded.1
      | reached holder attached =>
          obtain ⟨place, rfl, accepts, rfl⟩ := concluded
          exact stage.store_conforms soundStart lettered brought isValue listedFinal
            (targets _ attached rfl) conforms destined.opens accepts (spares place attached rfl)
    · intro _ final extends_
      exact stage.extends_conforms soundStart brought extends_

end Scene

/-! ## Writes -/

/-- A path of rooted field and array nodes fills in values under a root in a sound graph where no
handler compiles anything.  The root belongs to a conforming set of values in which no two slots
hold one array, and what the default factory makes conforms as well.  The grounds are what the
new values inherit from. -/
structure Path.Cultivates (path : Path) (world : World) (root : Value) (grounds : List Value)
    (inside : Value → Prop) : Prop where
  plainPath : path.IsPlain
  rooted : ∀ node ∈ path.nodes, node.isRooted = true
  quiet : world.Quiet
  sound : world.graph.Sound
  lettered : world.graph.Lettered (path.steps (path.resolverIn world))
  belongs : inside root
  conforming : world.graph.Conforming (path.steps (path.resolverIn world)) (fun _ => False) inside
  unshared : world.graph.Unshared (path.steps (path.resolverIn world)) inside
  furnished : sharedValues ⊆ grounds
  grounded : path.Grounded world grounds
  welcomes : world.graph.Welcomes (path.steps (path.resolverIn world)) inside
  constructs : (path.scene world root grounds [] False).Constructs
  bears : (path.scene world root grounds [] False).Bears (path.steps (path.resolverIn world)) inside

namespace Session

variable {path : Path} {world : World} {root value : Value} {options : EvaluateOptions}
  {grounds : List Value}
  {inside values : Value → Prop}

/-- A write that comes to the length of an array has a simple value. -/
def LengthsSimply (path : Path) (root value : Value) (options : EvaluateOptions) (world : World) :
    Prop :=
  ∀ holder attached middle, Reaches path root options world holder attached middle →
    middle.graph.isLength holder (path.final (path.resolverIn world)).key = true →
      value.isObject = false

/-- No type of arrays finds its component in the slot that a write puts its value into. -/
def SparesTypes (path : Path) (root : Value) (options : EvaluateOptions) (world : World) : Prop :=
  ∀ place attached middle, Reaches path root options world (.object place) attached middle →
    middle.graph.SparesComponents place (path.final (path.resolverIn world)).key

theorem lengthsSimply_of_ne
    (notLength : (path.final (path.resolverIn world)).key ≠ .name "length") :
    LengthsSimply path root value options world := by
  intro holder attached middle came isLength
  rw [sparesLength_of_ne notLength holder attached middle came] at isLength
  cases isLength

theorem sparesTypes_of_ne
    (notComponent : (path.final (path.resolverIn world)).key ≠ .name "componentType") :
    SparesTypes path root options world :=
  fun _ _ _ _ isComponent => absurd isComponent notComponent

/-- A world with a person without an address in it. -/
def peopleWorld : World :=
  .initial peopleGraph

/-- The path of one code of the address of a person. -/
def codePath : Path where
  compiler := World.standardPlace
  serial := 0
  source := "home.codes[1][0]"
  nodes := [.field 0 "home",
    .array 3 "codes[1][0]" 0 (some (.array 2 "codes[1]" 1 (some (.field 1 "codes"))))]
  nodes_ne_nil := List.cons_ne_nil _ _
  rootType := none

/-- What new values inherit from where a code is written. -/
def personGrounds : List Value :=
  sharedValues ++ [peopleGraph.member addressClass (.name "prototype")]

theorem cultivates_lonePerson :
    codePath.Cultivates peopleWorld lonePerson personGrounds (Among personValues) := by
  have plainPath : codePath.IsPlain := show ∀ node ∈ codePath.nodes, _ by decide
  have quiet : peopleWorld.Quiet := fun _ _ impossible => by cases impossible
  have flat : peopleGraph.isFlat (codePath.steps (codePath.resolverIn peopleWorld)) personValues =
      true := by decide +kernel
  have makes : (codePath.scene peopleWorld lonePerson personGrounds [] False).Makes
      (codePath.steps (codePath.resolverIn peopleWorld)) (Among personValues) :=
    @Scene.makes_of_check _ personTypes _ _ sound_peopleGraph (by decide +kernel)
  have meets : codePath.Meets peopleWorld lonePerson ∧ codePath.Grounded peopleWorld personGrounds :=
    Path.meets_of_check plainPath quiet sound_peopleGraph (by decide +kernel) (by decide +kernel)
  exact {
    plainPath := plainPath
    rooted := by decide
    quiet := quiet
    sound := sound_peopleGraph
    lettered := lettered_of_isLettered (by decide +kernel)
    belongs := .listed (List.mem_cons_self ..)
    conforming := conforming_of_isFlat flat
    unshared := unshared_of_isFlat flat
    furnished := List.subset_append_left _ _
    grounded := meets.2
    welcomes := welcomes_of_isWelcoming (by decide +kernel)
    constructs := Scene.constructs_of_makes makes sound_peopleGraph
    bears := Scene.bears_of_makes makes sound_peopleGraph }

/-- The standard graph with a class of shelves, which have a number as their label.  The last
objects are a shelf without a label, an empty array, a function and a record.  Whoever asks the
record for its value makes the record the label of the shelf. -/
@[irreducible]
def shelfGraph : Graph :=
  stateAfter (do
    let owner ← Run.newClass "Shelf" none ⟨none, none, [⟨"label", none, .null⟩]⟩
    let shared ← Run.read owner "prototype"
    Run.declareField shared "label" (.object BuiltinClass.number.place)
    let shelf ← Run.allocate
      ⟨shared.place?, .plain, Run.dataSlots [(.name "label", .null)], true⟩
    let _ ← Run.newArray []
    let relabel ← Run.newFunction "valueOf"
      [.assignOn (.slot .receiver "shelf") "label" .receiver, .return (.slot .receiver "count")]
    Run.newRecord [(.name "valueOf", relabel), (.name "shelf", shelf), (.name "count", .ofNat 0)])
    Graph.standard

/-- A world with a shelf in it. -/
def shelfWorld : World :=
  .initial shelfGraph

/-- The shelf, the array and the record. -/
def shelf : Value :=
  .object (shelfGraph.objects.size - 4)

@[inherit_doc shelf]
def emptyList : Value :=
  .object (shelfGraph.objects.size - 3)

@[inherit_doc shelf]
def labeller : Value :=
  .object (shelfGraph.objects.size - 1)

/-- What is found on the shelf, on the array and on new objects. -/
def foundValues : List Value :=
  [.undefined, .null, .number (.ofNat 0), .boolean false, .string ""]

/-- The path of a length. -/
def lengthPath : Path where
  compiler := World.standardPlace
  serial := 0
  source := "length"
  nodes := [.field 0 "length"]
  nodes_ne_nil := List.cons_ne_nil _ _
  rootType := none

theorem cultivates_emptyList :
    lengthPath.Cultivates shelfWorld emptyList sharedValues
      (Among (emptyList :: shelf :: foundValues)) := by
  have plainPath : lengthPath.IsPlain := show ∀ node ∈ lengthPath.nodes, _ by decide
  have quiet : shelfWorld.Quiet := fun _ _ impossible => by cases impossible
  have sound : shelfGraph.Sound := sound_of_check (by decide +kernel)
  have flat : shelfGraph.isFlat (lengthPath.steps (lengthPath.resolverIn shelfWorld))
      (emptyList :: shelf :: foundValues) = true := by decide +kernel
  have makes : (lengthPath.scene shelfWorld emptyList sharedValues [] False).Makes
      (lengthPath.steps (lengthPath.resolverIn shelfWorld))
      (Among (emptyList :: shelf :: foundValues)) :=
    @Scene.makes_of_check _ [openType, .object BuiltinClass.number.place] _ _ sound
      (by decide +kernel)
  have meets : lengthPath.Meets shelfWorld emptyList ∧
      lengthPath.Grounded shelfWorld (sharedValues ++ [.number (.ofNat 0)]) :=
    Path.meets_of_check plainPath quiet sound (by decide +kernel) (by decide +kernel)
  exact {
    plainPath := plainPath
    rooted := by decide
    quiet := quiet
    sound := sound
    lettered := lettered_of_isLettered (by decide +kernel)
    belongs := .listed (List.mem_cons_self ..)
    conforming := conforming_of_isFlat flat
    unshared := unshared_of_isFlat flat
    furnished := List.Subset.refl _
    grounded := fun value listed => meets.2 value (List.mem_append_left _ listed)
    welcomes := welcomes_of_isWelcoming (by decide +kernel)
    constructs := Scene.constructs_of_makes makes sound
    bears := Scene.bears_of_makes makes sound }

end Session

end ObjectPath
