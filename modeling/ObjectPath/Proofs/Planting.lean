import ObjectPath.Proofs.ReadBack
import ObjectPath.Proofs.Tending

/-!
# Values in trees

A line of steps carries a value if it leads from a root to a slot of a tree that holds the value.
A write of a simple value leaves trees in which its own line carries the value, and every line
that forks from it carries what it carried before.
-/

namespace ObjectPath

open Graph Session

/-- Two lines of steps fork: neither begins the other. -/
def Forks (line other : List Step) : Prop :=
  ¬ line.map Step.key <+: other.map Step.key ∧ ¬ other.map Step.key <+: line.map Step.key

theorem Forks.symm {line other : List Step} (forks : Forks line other) : Forks other line :=
  And.symm forks

namespace Graph

/-- A line of steps leads from a root to a slot of a tree that holds a value. -/
def Carries (graph : Graph) (inside : Nat → Prop) (root : Value) (line : List Step)
    (content : Value) : Prop :=
  ∃ lead step place flags, line = lead ++ [step] ∧ inside place ∧
    graph.travel? root lead = some (.object place) ∧
      graph.ownAt? place step.key = some (.data content flags) ∧
        graph.take? (.object place) step = some content

theorem isCallable_of_isObject_eq_false {graph : Graph} {value : Value}
    (simple : value.isObject = false) : graph.isCallable value = false := by
  cases value with
  | object => cases simple
  | _ => rfl

theorem look?_of_ownAt? {graph : Graph} {place : Nat} {key : Key} {content : Value} {flags : Flags}
    (own : graph.ownAt? place key = some (.data content flags)) :
    graph.look? (.object place) key = some content := by
  rw [look?, find?, own?, own]

/-- What a line carries is what it leads to. -/
theorem Carries.travel? {graph : Graph} {inside : Nat → Prop} {root content : Value}
    {line : List Step} (carries : graph.Carries inside root line content) :
    graph.travel? root line = some content := by
  obtain ⟨lead, step, place, _, rfl, _, toPlace, _, taken⟩ := carries
  rw [travel?_append, toPlace, Option.bind_some, Graph.travel?, taken]
  rfl

/-- A line to a slot of a tree carries what it leads to, if that is in the slot. -/
theorem carries_of_travel? {graph : Graph} {inside : Nat → Prop} {root content : Value}
    {lead : List Step} {last : Step} {place : Nat} {flags : Flags} (isInside : inside place)
    (toPlace : graph.travel? root lead = some (.object place))
    (own : graph.ownAt? place last.key = some (.data content flags))
    (travelled : graph.travel? root (lead ++ [last]) = some content) :
    graph.Carries inside root (lead ++ [last]) content := by
  rw [travel?_append, toPlace, Option.bind_some, Graph.travel?, if_neg (by rintro ⟨⟩)] at travelled
  obtain ⟨found, taken, same⟩ := Option.bind_eq_some_iff.1 travelled
  cases same
  exact ⟨lead, last, place, flags, rfl, isInside, toPlace, own, taken⟩

end Graph

namespace Garden

variable {garden : Garden} {graph before after : Graph} {inside later : Nat → Prop}
  {root content value : Value} {line other lead : List Step} {last : Step} {place : Nat}

/-- A line carries what it carried after a write has proceeded along another one, unless it begins
that one. -/
theorem Proceeds.carries (proceeds : garden.Proceeds root line before inside after later)
    (stands : garden.Stands before inside) (known : before.Knows root) (listed : other ⊆ garden.steps)
    (off : ¬ other.map Step.key <+: line.map Step.key)
    (carries : before.Carries inside root other content) :
    after.Carries later root other content := by
  obtain ⟨lead, step, place, flags, rfl, isInside, toPlace, own, taken⟩ := carries
  have closed := stands.sound.toClosed
  have guards := Guards.append.1 (guards_of_listed listed)
  obtain ⟨found, toFound, like⟩ :=
    proceeds.grows.travel? closed known guards.1 (Value.Like.refl root) toPlace rfl
  rw [like.eq_of_object rfl] at toFound
  have ownLater : after.ownAt? place step.key = some (.data content flags) :=
    (proceeds.spares isInside listed toPlace off).trans own
  exact ⟨lead, step, place, flags, rfl, proceeds.grown isInside, toFound, ownLater,
    proceeds.grows.toSteady.take? closed (knows_object.2 (stands.forest.known isInside)) guards.2 taken
      (look?_of_ownAt? ownLater)⟩

section Slot

variable (fenced : garden.Fenced) (stands : garden.Stands graph inside)
  (stem : graph.Stem garden.keys garden.around inside root) (isInside : inside place)
  (listed : lead ++ [last] ⊆ garden.steps) (toPlace : graph.travel? root lead = some (.object place))
include fenced stands stem isInside listed toPlace

/-- A way asks an object of a tree only if the way to that object begins it. -/
theorem Stands.begins_of_asks {steps : List Step} (listedSteps : steps ⊆ garden.steps) {found : Value}
    (travelled : graph.travel? root steps = some found) (present : found.isMissing = false)
    (asks : graph.Asks root steps place last.key) :
    (lead ++ [last]).map Step.key <+: steps.map Step.key := by
  have surrounds := stands.surrounds fenced
  obtain ⟨first, step, rest, rfl, toFirst, sameKey⟩ := stem.belongs.passes stands.forest surrounds
    (named_of_listed listedSteps) travelled present isInside asks
  have sameWay := stem.unique stands.forest surrounds isInside
    (named_of_listed fun step member => listed (List.mem_append_left _ member))
    (named_of_listed fun step member => listedSteps (List.mem_append_left _ member)) toPlace toFirst
  refine ⟨rest.map Step.key, ?_⟩
  rw [List.map_append, sameWay, List.map_singleton, ← sameKey, List.map_append, List.map_cons,
    List.append_assoc, List.singleton_append]

/-- The way to a slot of a tree does not ask for it. -/
theorem Stands.apart : ¬ graph.Asks root lead place last.key := by
  intro asks
  have begins := stands.begins_of_asks fenced stem isInside listed toPlace
    (fun step member => listed (List.mem_append_left _ member)) toPlace rfl asks
  have longer := begins.length_le
  simp only [List.length_map, List.length_append, List.length_singleton] at longer
  omega

/-- A line that forks from another one carries what it carried after a simple value was stored in
the slot of that one. -/
theorem Stands.carries_store (accepted : graph.placement (.object place) last.key = .slot)
    (noClass : last.key ∉ classKeys) (simple : value.isObject = false)
    (listedOther : other ⊆ garden.steps) (forks : Forks (lead ++ [last]) other)
    (carries : graph.Carries inside root other content) :
    (graph.store (.object place) last.key value).Carries inside root other content := by
  obtain ⟨way, step, holder, flags, rfl, isHolder, toHolder, own, taken⟩ := carries
  have closed := stands.sound.toClosed
  have guards := Guards.append.1 (guards_of_listed listedOther)
  have listedWay : way ⊆ garden.steps :=
    fun step member => listedOther (List.mem_append_left _ member)
  have steady : graph.Steady garden.keys (graph.store (.object place) last.key value) :=
    steady_store accepted (knows_of_isObject_eq_false simple) noClass
      fun _ => isCallable_of_isObject_eq_false simple
  have untouched : ¬ graph.Asks root way place last.key := fun asks =>
    forks.1 ((stands.begins_of_asks fenced stem isInside listed toPlace listedWay toHolder rfl
      asks).trans ((List.prefix_append way [step]).map Step.key))
  obtain ⟨found, toFound, like⟩ := travel?_store steady closed (stands.knows fenced stem.belongs)
    guards.1 (Value.Like.refl root) toHolder untouched
  rw [like.eq_of_object rfl] at toFound
  have ownLater : (graph.store (.object place) last.key value).ownAt? holder step.key =
      some (.data content flags) := by
    rw [← own]
    by_cases sameKey : step.key = last.key
    · refine ownAt?_store_of_ne_place graph last.key value step.key ?_
      rintro rfl
      have sameWay := stem.unique stands.forest (stands.surrounds fenced) isInside
        (named_of_listed fun step member => listed (List.mem_append_left _ member))
        (named_of_listed listedWay) toPlace toHolder
      have sameLast : [step].map Step.key = [last].map Step.key := by
        rw [List.map_singleton, List.map_singleton, sameKey]
      have sameLine : (way ++ [step]).map Step.key = (lead ++ [last]).map Step.key := by
        rw [List.map_append, List.map_append, sameWay, sameLast]
      exact forks.1 (sameLine ▸ List.prefix_rfl)
    · refine ownAt?_store_of_ne_key graph place holder value sameKey ?_
      intro isLength
      refine fenced.noLength ?_
      rw [← isLength]
      exact List.mem_map_of_mem (listedOther (by simp))
  exact ⟨way, step, holder, flags, rfl, isHolder, toFound, ownLater,
    steady.take? closed (knows_object.2 (stands.forest.known isHolder)) guards.2 taken
      (look?_of_ownAt? ownLater)⟩

end Slot

/-! ## One write -/

/-- A write of a simple value among trees with the default factory, if it ends normally, leaves
trees in which its line carries the value.  Lines that fork from it carry what they carried. -/
theorem setValue_carries (fenced : garden.Fenced) (constructs : garden.Constructs)
    (bears : garden.Bears) {path : Path} (plainPath : path.IsPlain) {world final : World}
    (listed : path.steps (path.resolverIn world) ⊆ garden.steps) (quiet : world.Quiet)
    {options : EvaluateOptions} (standard : factoryOf path options world = standardFactory)
    (stands : garden.Stands world.graph inside)
    (stem : world.graph.Stem garden.keys garden.around inside root)
    (present : root.isMissing = false) (simple : value.isObject = false)
    (isAround : garden.around value)
    (ended : setValue path root value options world = .ok () final) :
    path.isStatic = false ∧ ∃ later, garden.Stands final.graph later ∧
      final.graph.Stem garden.keys garden.around later root ∧
      final.graph.Carries later root (path.steps (path.resolverIn world)) value ∧
      ∀ line content, line ⊆ garden.steps → Forks (path.steps (path.resolverIn world)) line →
        world.graph.Carries inside root line content →
          final.graph.Carries later root line content := by
  have supplies : (garden.scene world.graph).Supplies 0 (factoryOf path options world)
      options.arguments := by
    rw [standard]
    exact supplies_standard fenced constructs stands options.arguments
  have provides : ∀ {graph : Graph} {inside : Nat → Prop} {type : Value},
      (garden.scene world.graph).Holds graph → garden.Stands graph inside → graph.Requested type →
        Ensures (factoryOf path options world type options.arguments) graph
          (fun made after => garden.Yields graph inside made after) fun _ _ => True := by
    intro graph inside type holds standsNow requested
    rw [standard]
    exact yields_standard fenced bears standsNow requested holds (constructs stands)
      options.arguments
  have known := stands.knows fenced stem.belongs
  have notLength : (path.final (path.resolverIn world)).key ≠ .name "length" := by
    intro isLength
    refine fenced.noLength ?_
    rw [← isLength]
    exact List.mem_map_of_mem (listed (by rw [Path.steps_eq]; simp))
  obtain ⟨dynamic, ⟨notGenerous, _⟩ | ⟨place, attached, middle, came, onward, lands, accepts, rfl⟩⟩ :=
    Scene.setValue_outcome plainPath (within_of_listed listed) quiet stands.holds known
      (stands.plain fenced stem.belongs) present supplies (sparesLength_of_ne notLength) ended
  · exact absurd trivial notGenerous
  refine ⟨dynamic, ?_⟩
  -- With a factory that always gives something no array is lost on the way, so the last slot is
  -- where the steps lead.
  have inPlace : attached = true := by
    by_contra lost
    exact (lands.lost (by simpa using lost)).1 trivial
  subst inPlace
  obtain ⟨later, proceeds, belongsHolder⟩ := (destination_proceeds fenced supplies provides plainPath
    listed quiet stands.holds stands stem present).ok came _ _ rfl
  have guards := guards_of_listed listed
  have listedLast : path.final (path.resolverIn world) ∈ garden.steps :=
    listed (by rw [Path.steps_eq]; simp)
  have standsLater := proceeds.stands
  have stemLater := proceeds.toTends.stem stands stem
  have holder : later place :=
    standsLater.holder fenced belongsHolder listedLast lands.opens accepts
  obtain ⟨found, toPlace, like⟩ := lands.way rfl (by
    rw [Path.steps_eq] at guards
    exact (Guards.append.1 guards).1)
  rw [like.eq_of_object rfl] at toPlace
  rw [Path.steps_eq] at listed
  have noClass := lands.opens.not_mem_classKeys
  -- The value is simple, so the store adds no branch and the trees stay trees.
  have noObject : ∀ child, value ≠ .object child := by
    rintro child rfl
    cases simple
  have tends : garden.Tends middle.graph later (middle.graph.store (.object place)
      (path.final (path.resolverIn world)).key value) later :=
    (Tends.refl standsLater).store fenced holder accepts.slot noClass (Or.inl isAround)
      fun child same => absurd same (noObject child)
  obtain ⟨leads, travelled⟩ := lands.leads_store known (knows_of_isObject_eq_false simple)
    onward.kept guards accepts (standsLater.apart fenced stemLater holder listed toPlace)
    fun callable => absurd callable
      (by rw [isCallable_of_isObject_eq_false simple]; exact Bool.false_ne_true)
  obtain ⟨flags, _, own⟩ := ownAt?_store_self value accepts.slot
  rw [Path.steps_eq] at travelled ⊢
  refine ⟨later, tends.stands, tends.stem standsLater stemLater,
    carries_of_travel? holder leads.travelled own travelled, ?_⟩
  intro line content listedLine forks carries
  exact standsLater.carries_store fenced stemLater holder listed toPlace accepts.slot noClass simple
    listedLine forks (proceeds.carries stands known listedLine (Path.steps_eq _ path ▸ forks.2)
      carries)

end Garden

end ObjectPath
