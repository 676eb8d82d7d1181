import ObjectPath.Proofs.Frame

/-!
# Written values read back

After a write that was not given up, reading the path gives the value that was written, as
long as every array that was made on the way is in its place.  An array that is not in its
place is the one way in which a write is lost: the write ends as if it had been done, no
event is reported, and the path reads `null`.
-/

namespace ObjectPath

open Graph

/-! ## Ways to a slot -/

namespace Graph

/-- Some steps lead to an object that has a slot for a last step, and do not ask it. -/
structure Leads (graph : Graph) (root : Value) (leading : List Step) (final : Step)
    (place : Nat) : Prop where
  classed : graph.Classed
  known : graph.Knows root
  travelled : graph.travel? root leading = some (.object place)
  opens : graph.Opens (.object place) final
  accepts : graph.Accepts place final
  apart : ¬ graph.Asks root leading place final.key

theorem isLength_of_slot {graph : Graph} {place : Nat} {key : Key}
    (slot : graph.placement (.object place) key = .slot) :
    graph.isLength (.object place) key = false := by
  rcases placement_eq_slot slot with ⟨_, _, _, _, notLength⟩ | ⟨absent, _⟩
  · exact notLength
  · rw [Graph.isLength, Bool.and_eq_false_iff]
    by_contra both
    simp only [not_or, Bool.not_eq_false, beq_iff_eq] at both
    obtain ⟨isArray, rfl⟩ := both
    obtain ⟨object, found, ordinary, _⟩ := slot_of_placement slot
    obtain ⟨parent, body, slots, extensible⟩ := object
    unfold Graph.isArray arrayLength? at isArray
    cases body with
    | items length resizable => simp [Object.intrinsic?] at ordinary
    | _ => simp [objectOf?, Value.place?, found] at isArray

/-- A slot that was written can be written again. -/
theorem placement_store {graph : Graph} {place : Nat} {key : Key} (content : Value)
    (slot : graph.placement (.object place) key = .slot) :
    (graph.store (.object place) key content).placement (.object place) key = .slot := by
  obtain ⟨flags, writable, own⟩ := ownAt?_store_self content slot
  obtain ⟨object, found, _⟩ := slot_of_placement slot
  have notLength : (graph.store (.object place) key content).isLength (.object place) key =
      false := by
    have known : graph.Knows (.object place) := knows_object.2 (lt_of_object? found)
    rw [Graph.isLength, (follows_store graph place key content).isArray known]
    exact isLength_of_slot slot
  unfold placement
  rw [show (graph.store (.object place) key content).own? (.object place) key = _ from own]
  simp [writable, notLength]

/-- A way that a store does not disturb leads where it led.  A function has to leave every name
of the way that of a field. -/
theorem travel?_store_of_readable {graph : Graph} {root content reached : Value}
    {steps : List Step} {place : Nat} {key : Key} (closed : graph.Closed)
    (slot : graph.placement (.object place) key = .slot) (notClassKey : key ∉ classKeys)
    (known : graph.Knows content) (knownRoot : graph.Knows root)
    (travelled : graph.travel? root steps = some reached)
    (apart : ¬ graph.Asks root steps place key)
    (readable : graph.isCallable content = true →
      ((graph.store (.object place) key content).travel? root steps).isSome = true) :
    ∃ later, (graph.store (.object place) key content).travel? root steps = some later ∧
      Value.Like reached later := by
  cases callable : graph.isCallable content with
  | false =>
      have steady : graph.Steady (steps.map Step.key) _ :=
        steady_store slot known notClassKey fun _ => callable
      exact travel?_store steady closed knownRoot (Guards.refl steps) (Value.Like.refl root)
        travelled apart
  | true =>
      obtain ⟨later, travelledLater⟩ := Option.isSome_iff_exists.1 (readable callable)
      exact ⟨later, travelledLater,
        travel?_store_eq (Value.Like.refl root) travelled apart travelledLater⟩

/-- If a way can be gone, its first part can. -/
theorem travel?_isSome_of_append {graph : Graph} {value : Value} {first second : List Step}
    (travelled : (graph.travel? value (first ++ second)).isSome = true) :
    (graph.travel? value first).isSome = true := by
  rw [travel?_append] at travelled
  obtain ⟨last, onward⟩ := Option.isSome_iff_exists.1 travelled
  obtain ⟨middle, found, _⟩ := Option.bind_eq_some_iff.1 onward
  exact Option.isSome_iff_exists.2 ⟨middle, found⟩

/-- A value that was written into a slot is what the way to it leads to, and the way is as it
was. -/
theorem Leads.store {graph : Graph} {root : Value} {leading : List Step} {final : Step}
    {place : Nat} {content : Value} (leads : graph.Leads root leading final place)
    (known : graph.Knows content)
    (readable : graph.isCallable content = true →
      ((graph.store (.object place) final.key content).travel? root (leading ++ [final])).isSome =
        true) :
    (graph.store (.object place) final.key content).Leads root leading final place ∧
      (graph.store (.object place) final.key content).travel? root (leading ++ [final]) =
        some content := by
  obtain ⟨object, found, _⟩ := slot_of_placement leads.accepts.slot
  have knownHolder : graph.Knows (.object place) := knows_object.2 (lt_of_object? found)
  have closed := leads.classed.toClosed
  have follows := follows_store graph place final.key content
  obtain ⟨flags, _, own⟩ := ownAt?_store_self content leads.accepts.slot
  have looked : (graph.store (.object place) final.key content).look? (.object place) final.key =
      some content := by
    rw [look?, find?, own?, own]
  obtain ⟨later, travelled, like⟩ := travel?_store_of_readable closed leads.accepts.slot
    leads.opens.not_mem_classKeys known leads.known leads.travelled leads.apart
    fun callable => travel?_isSome_of_append (readable callable)
  rw [like.eq_of_object rfl] at travelled
  have taken : (graph.store (.object place) final.key content).take? (.object place) final =
      some content := by
    -- A function could make a method of a name; that it did not is what has to be assumed of it.
    cases callable : graph.isCallable content with
    | false =>
        have steady : graph.Steady ([final].map Step.key) _ :=
          steady_store leads.accepts.slot known leads.opens.not_mem_classKeys fun _ => callable
        exact take?_of_accepts steady closed knownHolder (Guards.refl [final]) leads.opens
          leads.accepts looked
    | true =>
        obtain ⟨last, onward⟩ := Option.isSome_iff_exists.1 (readable callable)
        rw [travel?_append, travelled, Option.bind_some, travel?, if_neg (by rintro ⟨⟩)] at onward
        obtain ⟨other, taken, _⟩ := Option.bind_eq_some_iff.1 onward
        have same := take?_look? taken
        rw [looked] at same
        exact taken.trans same.symm
  refine ⟨⟨leads.classed.store leads.accepts.slot known, follows.knows leads.known, travelled, ?_,
    ⟨placement_store content leads.accepts.slot, ?_⟩, ?_⟩, ?_⟩
  · cases final with
    | field name =>
        obtain ⟨_, isField, _⟩ := Option.bind_eq_some_iff.1 taken
        exact Option.isSome_iff_exists.2 ⟨_, isField⟩
    | element index => trivial
  · intro index isElement
    rw [follows.isArray knownHolder]
    exact leads.accepts.array index isElement
  · intro asks
    exact leads.apart (asks_store graph content (Value.Like.refl root) leads.apart asks)
  · rw [travel?_append, travelled, Option.bind_some, travel?, taken]
    rfl

end Graph

/-! ## Writes -/

namespace Path

/-- The keys of the fields that a path names. -/
def fieldKeys (path : Path) (resolver : Resolver) : List Key :=
  (path.steps resolver).filterMap fun
    | .field name => some (.ofText name)
    | .element _ => none

theorem guards_fieldKeys (path : Path) (resolver : Resolver) :
    Guards (path.fieldKeys resolver) (path.steps resolver) :=
  fun name member => List.mem_filterMap.2 ⟨.field name, member, rfl⟩

end Path

namespace Scene

variable {scene : Scene} {path : Path} {root value : Value} {isolated : Prop}
  {before start after : Graph} {resolver : Resolver} {place : Nat}

/-- If every array is in its place, the way leads to the slot that a write has come to. -/
theorem Lands.leads (sound : after.Sound) (known : after.Knows root)
    (guards : Guards scene.guarded (path.leading resolver))
    (lands : scene.Lands isolated before root resolver path (.object place) true after)
    (accepts : after.Accepts place (path.final resolver))
    (apart : ¬ after.Asks root (path.leading resolver) place (path.final resolver).key) :
    after.Leads root (path.leading resolver) (path.final resolver) place where
  classed := sound.toClassed
  known := known
  travelled := by
    obtain ⟨found, travelled, like⟩ := lands.way rfl guards
    rw [travelled, like.eq_of_object rfl]
  opens := lands.opens
  accepts := accepts
  apart := apart

/-- If every array is in its place, the path leads to the value once it is written. -/
theorem Lands.leads_store
    (lands : scene.Lands isolated before root resolver path (.object place) true after)
    (knownRoot : start.Knows root) (known : start.Knows value) (kept : scene.Kept 0 start after)
    (guards : Guards scene.guarded (path.steps resolver))
    (accepts : after.Accepts place (path.final resolver))
    (apart : ¬ after.Asks root (path.leading resolver) place (path.final resolver).key)
    (readable : start.isCallable value = true →
      ((after.store (.object place) (path.final resolver).key value).travel? root
        (path.steps resolver)).isSome = true) :
    (after.store (.object place) (path.final resolver).key value).Leads root
        (path.leading resolver) (path.final resolver) place ∧
      (after.store (.object place) (path.final resolver).key value).travel? root
        (path.steps resolver) = some value := by
  rw [Path.steps_eq] at guards readable ⊢
  have leads := lands.leads kept.holds.sound (kept.grows.knows knownRoot)
    (Guards.append.1 guards).1 accepts apart
  refine leads.store (kept.grows.knows known) fun callable => ?_
  rw [kept.grows.isCallable known] at callable
  exact readable callable

end Scene

namespace Session

variable {path : Path} {world later : World} {root value : Value} {options : EvaluateOptions}

/-- A write comes to the object that is to hold the value. -/
def Reaches (path : Path) (root : Value) (options : EvaluateOptions) (world : World)
    (holder : Value) (attached : Bool) (middle : World) : Prop :=
  approach path (.onValue root) options.arguments (factoryOf path options world) world =
    .ok (.reached holder attached) middle

/-- What is said of the object to which a write comes can be found out by going there. -/
instance decidableReaches {holds : Value → Bool → World → Prop}
    [∀ holder attached middle, Decidable (holds holder attached middle)] :
    Decidable (∀ holder attached middle,
      Reaches path root options world holder attached middle → holds holder attached middle) :=
  match ended :
      approach path (.onValue root) options.arguments (factoryOf path options world) world with
  | .ok (.reached holder attached) middle =>
      decidable_of_iff (holds holder attached middle)
        ⟨fun isHeld _ _ _ came => by cases ended.symm.trans came; exact isHeld,
          fun all => all _ _ _ ended⟩
  | .ok (.stopped _ _) _ => isTrue fun _ _ _ came => by cases ended.symm.trans came
  | .ok (.refused _) _ => isTrue fun _ _ _ came => by cases ended.symm.trans came
  | .error _ _ => isTrue fun _ _ _ came => by cases ended.symm.trans came

/-- The slot that a write puts its value into is not the length of an array. -/
def SparesLength (path : Path) (root : Value) (options : EvaluateOptions) (world : World) : Prop :=
  ∀ holder attached middle, Reaches path root options world holder attached middle →
    middle.graph.isLength holder (path.final (path.resolverIn world)).key = false

/-- The slot that a write puts its value into is none of those that are read on the way. -/
def SparesWay (path : Path) (root : Value) (options : EvaluateOptions) (world : World) : Prop :=
  ∀ holder attached middle, Reaches path root options world holder attached middle →
    ∀ place ∈ holder.place?, ¬ middle.graph.Asks root (path.leading (path.resolverIn world)) place
      (path.final (path.resolverIn world)).key

/-- A write puts every array that it makes into its place. -/
def KeepsArrays (path : Path) (root : Value) (options : EvaluateOptions) (world : World) : Prop :=
  ∀ holder attached middle, Reaches path root options world holder attached middle →
    attached = true

/-- A write makes an array that is not put into its place, and the way to the last slot leads
nowhere when the value is written. -/
def LosesArray (path : Path) (root : Value) (options : EvaluateOptions) (world : World) : Prop :=
  ∃ holder middle, Reaches path root options world holder false middle ∧
    ∃ nothing ∈ middle.graph.travel? root (path.leading (path.resolverIn world)),
      nothing.isMissing = true

instance : Decidable (SparesWay path root options world) :=
  inferInstanceAs (Decidable (∀ holder attached middle,
    Reaches path root options world holder attached middle → ∀ place ∈ holder.place?,
      ¬ middle.graph.Asks root (path.leading (path.resolverIn world)) place
        (path.final (path.resolverIn world)).key))

instance : Decidable (KeepsArrays path root options world) :=
  inferInstanceAs (Decidable (∀ holder attached middle,
    Reaches path root options world holder attached middle → attached = true))

instance : Decidable (LosesArray path root options world) :=
  decidable_of_iff (¬ ∀ holder attached middle, Reaches path root options world holder attached middle →
      attached = true ∨
        ¬ ∃ nothing ∈ middle.graph.travel? root (path.leading (path.resolverIn world)),
          nothing.isMissing = true)
    ⟨fun notAll => by
        by_contra loses
        refine notAll fun holder attached middle came => ?_
        cases attached with
        | true => exact Or.inl rfl
        | false => exact Or.inr fun nowhere => loses ⟨holder, middle, came, nowhere⟩,
      fun ⟨holder, middle, came, nowhere⟩ all =>
        (all holder false middle came).elim Bool.false_ne_true (absurd nowhere)⟩

/-- Only an array has a length. -/
theorem sparesLength_of_ne
    (notLength : (path.final (path.resolverIn world)).key ≠ .name "length") :
    SparesLength path root options world := by
  intro holder attached middle _
  simp [Graph.isLength, notLength]

theorem getValue_of_travel? {arguments : Option ArgumentMap} {content : Value}
    {resolver : Resolver} (plainPath : path.IsPlain) (same : path.resolverIn world = resolver)
    (dynamic : path.isStatic = false) (classed : world.graph.Classed)
    (present : root.isMissing = false)
    (travelled : world.graph.travel? root (path.steps resolver) = some content) :
    getValue path root ⟨arguments, none⟩ world = .ok content.orNull world := by
  have answers : Answers (evaluate path (.onValue root) ⟨arguments, none⟩) world
      (world.graph.Sound ∧ world.graph.Plain _ 0 root) _ :=
    evaluate_answers plainPath classed same (Within.refl _) present
  rw [travelled] at answers
  unfold getValue
  rw [present, if_neg Bool.false_ne_true, dynamic, if_neg Bool.false_ne_true]
  exact answers

/-- What a write that ends normally comes to: it was given up, or the value is in a slot. -/
theorem Scene.setValue_outcome {scene : Scene} (plainPath : path.IsPlain)
    (within : Within scene.keys (path.steps (path.resolverIn world))) (quiet : world.Quiet)
    (holds : scene.Holds world.graph) (known : world.graph.Knows root)
    (plain : world.graph.Plain scene.keys 0 root) (present : root.isMissing = false)
    (supplies : scene.Supplies 0 (factoryOf path options world) options.arguments)
    (notLength : SparesLength path root options world)
    (ended : setValue path root value options world = .ok () later) :
    path.isStatic = false ∧
      ((¬ scene.generous ∧ later.abandonments = world.abandonments + 1 ∧
          ∀ holder attached middle, ¬ Reaches path root options world holder attached middle) ∨
        ∃ place attached middle, Reaches path root options world (.object place) attached middle ∧
          scene.Onward 0 world middle ∧
          scene.Lands (scene.Isolates (factoryOf path options world) options.arguments)
            world.graph root (path.resolverIn world) path (.object place) attached middle.graph ∧
          middle.graph.Accepts place (path.final (path.resolverIn world)) ∧
          later = { middle with
            graph := middle.graph.store (.object place) (path.final (path.resolverIn world)).key
              value }) := by
  have goes := Scene.destination_ensures plainPath within supplies rfl quiet holds known present plain
  unfold setValue at ended
  cases dynamic : path.isStatic with
  | true =>
      rw [dynamic, if_pos rfl] at ended
      cases ended
  | false =>
      rw [dynamic, present, if_neg Bool.false_ne_true, if_neg Bool.false_ne_true,
        assign_eq plainPath] at ended
      obtain ⟨destination, middle, came, concluded⟩ := ok_of_bind ended
      obtain ⟨onward, destined⟩ := goes.ok came
      have same : (middle.compiler path.compiler).resolver = path.resolverIn world :=
        onward.advances.resolver path.compiler
      have outcome := (Scene.conclude_ensures plainPath within value same
        (onward.advances.quiet quiet) onward.kept.holds destined fun holder attached isReached =>
          notLength holder attached middle (came.trans (isReached ▸ rfl))).ok concluded
      have counted : middle.abandonments = world.abandonments :=
        onward.advances.abandonments fun _ => Event.isAbandoned_of_isOnTheWay
      refine ⟨rfl, ?_⟩
      -- A write that returns was given up, which is counted, or has stored the value in the last
      -- slot.
      cases destination with
      | stopped index type =>
          refine Or.inl ⟨destined.2, by rw [outcome.2, counted], ?_⟩
          unfold Reaches
          rw [came]
          rintro _ _ _ ⟨⟩
      | refused position =>
          obtain ⟨_, _, _, _, notGenerous⟩ := destined
          refine Or.inl ⟨notGenerous, by rw [outcome.2, counted], ?_⟩
          unfold Reaches
          rw [came]
          rintro _ _ _ ⟨⟩
      | reached holder attached =>
          obtain ⟨place, rfl, accepts, stored⟩ := outcome
          exact Or.inr ⟨place, attached, middle, came, onward, destined, accepts, stored⟩

/-- What a write on plain data that ends normally comes to. -/
theorem setValue_outcome {grounds : List Value} {guarded : List Key} {generous : Prop}
    (meets : path.Meets world root) (grounded : path.Grounded world grounds)
    (present : root.isMissing = false)
    (supplies : (path.scene world root grounds guarded generous).Supplies 0
      (factoryOf path options world) options.arguments)
    (notLength : SparesLength path root options world)
    (ended : setValue path root value options world = .ok () later) :
    path.isStatic = false ∧
      ((¬ generous ∧ later.abandonments = world.abandonments + 1 ∧
          ∀ holder attached middle, ¬ Reaches path root options world holder attached middle) ∨
        ∃ place attached middle, Reaches path root options world (.object place) attached middle ∧
          (path.scene world root grounds guarded generous).Onward 0 world middle ∧
          (path.scene world root grounds guarded generous).Lands
            ((path.scene world root grounds guarded generous).Isolates (factoryOf path options world)
              options.arguments)
            world.graph root (path.resolverIn world) path (.object place) attached middle.graph ∧
          middle.graph.Accepts place (path.final (path.resolverIn world)) ∧
          later = { middle with
            graph := middle.graph.store (.object place) (path.final (path.resolverIn world)).key
              value }) :=
  Scene.setValue_outcome meets.plainPath (Within.refl _) meets.quiet
    (meets.holds grounded guarded generous) meets.known meets.plain present supplies notLength ended

/-- If everything that a factory makes stays apart from what was there, an array that is not put
into its place is lost. -/
theorem losesArray_of_isolates {grounds : List Value} {generous : Prop} (meets : path.Meets world root)
    (grounded : path.Grounded world grounds) (present : root.isMissing = false)
    (supplies : (path.scene world root grounds (path.fieldKeys (path.resolverIn world))
      generous).Supplies 0 (factoryOf path options world) options.arguments)
    (isolated : (path.scene world root grounds (path.fieldKeys (path.resolverIn world))
      generous).Isolates (factoryOf path options world) options.arguments)
    (drops : ¬ KeepsArrays path root options world) : LosesArray path root options world := by
  have reached : ∃ holder middle, Reaches path root options world holder false middle := by
    by_contra none
    refine drops fun holder attached middle came => ?_
    cases attached with
    | true => rfl
    | false => exact absurd ⟨holder, middle, came⟩ none
  obtain ⟨holder, middle, came⟩ := reached
  have goes := Scene.destination_ensures meets.plainPath
    (Within.refl (path.steps (path.resolverIn world))) supplies rfl meets.quiet
    (meets.holds grounded _ generous) meets.known present meets.plain
  obtain ⟨_, lands⟩ := goes.ok came
  have guards := path.guards_fieldKeys (path.resolverIn world)
  rw [Path.steps_eq] at guards
  obtain ⟨earlier, strays, _⟩ := (lands.lost rfl).2 (Guards.append.1 guards).1 isolated
  obtain ⟨nothing, travelled, missing⟩ := strays.nothing
  exact ⟨holder, middle, came, nothing, strays.extends_.travel?_of_some strays.sound.toClosed
    (strays.grows.knows meets.known) travelled, missing⟩

/-- A write that ends normally was given up, which is reported once, or the path reads the
value afterwards, unless an array that was made is not in its place.  If that array is lost
nothing is reported, and the path reads `null`. -/
theorem setValue_reads_back_or_is_abandoned {grounds : List Value}
    (meets : path.Meets world root) (grounded : path.Grounded world grounds)
    (present : root.isMissing = false) (known : world.graph.Knows value)
    (supplies : (path.scene world root grounds (path.fieldKeys (path.resolverIn world))
      False).Supplies 0 (factoryOf path options world) options.arguments)
    (sparesLength : SparesLength path root options world)
    (sparesWay : SparesWay path root options world)
    (ended : setValue path root value options world = .ok () later)
    (readable : world.graph.isCallable value = true →
      (later.graph.travel? root (path.steps (path.resolverIn world))).isSome = true)
    (arguments : Option ArgumentMap) :
    (KeepsArrays path root options world →
      later.abandonments = world.abandonments + 1 ∨
        getValue path root ⟨arguments, none⟩ later = .ok value.orNull later) ∧
    (LosesArray path root options world → value.isMissing = false →
      later.abandonments = world.abandonments ∧
        getValue path root ⟨arguments, none⟩ later = .ok .null later ∧
        value.orNull ≠ .null) := by
  obtain ⟨dynamic, outcome⟩ :=
    setValue_outcome meets grounded present supplies sparesLength ended
  have guards := path.guards_fieldKeys (path.resolverIn world)
  rcases outcome with ⟨_, counted, nowhere⟩ |
    ⟨place, attached, middle, came, onward, lands, accepts, rfl⟩
  · refine ⟨fun _ => Or.inl counted, ?_⟩
    rintro ⟨holder, middle, came, _⟩
    exact absurd came (nowhere holder false middle)
  · have closed := onward.kept.holds.sound.toClosed
    have knownValue := onward.kept.grows.knows known
    have counted : middle.abandonments = world.abandonments :=
      onward.advances.abandonments fun _ => Event.isAbandoned_of_isOnTheWay
    have sameResolver : path.resolverIn middle = path.resolverIn world :=
      onward.advances.resolver path.compiler
    refine ⟨fun inPlace => Or.inr ?_, ?_⟩
    · cases attached with
      | false => cases inPlace _ _ _ came
      | true =>
          obtain ⟨leadsLater, travelled⟩ := lands.leads_store meets.known known onward.kept
            guards accepts (sparesWay _ _ _ came place rfl) readable
          exact getValue_of_travel? meets.plainPath sameResolver dynamic leadsLater.classed present
            travelled
    · rintro ⟨holder, other, lost, nothing, travelled, missing⟩ there
      cases came.symm.trans lost
      -- The way to the last slot led nowhere before the value was written, and still does.
      obtain ⟨still, travelledStill, like⟩ := travel?_store_of_readable closed accepts.slot
        lands.opens.not_mem_classKeys knownValue (onward.kept.grows.knows meets.known) travelled
        (sparesWay _ _ _ came place rfl) fun callable => by
          rw [onward.kept.grows.isCallable known] at callable
          rw [Path.steps_eq] at readable
          exact travel?_isSome_of_append (readable callable)
      obtain ⟨content, travelledOn, contentMissing⟩ :=
        (middle.graph.store (.object place) (path.final (path.resolverIn world)).key value)
          |>.travel?_of_isMissing (like.isMissing.trans missing) [path.final (path.resolverIn world)]
      have reads : getValue path root ⟨arguments, none⟩ { middle with
          graph := middle.graph.store (.object place) (path.final (path.resolverIn world)).key
            value } = _ :=
        getValue_of_travel? meets.plainPath sameResolver dynamic
          (onward.kept.holds.sound.toClassed.store accepts.slot knownValue) present
          (by rw [Path.steps_eq, travel?_append, travelledStill, Option.bind_some, travelledOn])
      rw [Value.orNull, contentMissing, if_pos rfl] at reads
      refine ⟨counted, reads, ?_⟩
      rw [Value.orNull, there, if_neg Bool.false_ne_true]
      rintro rfl
      cases there

/-- The default factory, but for the arrays of arrays that a grid has. -/
def hesitant : EvaluateOptions :=
  ⟨none, some (withholding (· == gridType) standardFactory)⟩

/-- With the default factory all arrays of a grid come into their places.  Without the outer
array the inner one is lost. -/
theorem cell_reads_back_or_is_lost :
    (KeepsArrays cellPath emptyGrid ⟨none, none⟩ gridWorld ∧
      getValue cellPath emptyGrid ⟨none, none⟩
          (stateAfter (setValue cellPath emptyGrid (.ofNat 5) ⟨none, none⟩) gridWorld) =
        .ok (.ofNat 5)
          (stateAfter (setValue cellPath emptyGrid (.ofNat 5) ⟨none, none⟩) gridWorld)) ∧
    LosesArray cellPath emptyGrid hesitant gridWorld ∧
      getValue cellPath emptyGrid ⟨none, none⟩
          (stateAfter (setValue cellPath emptyGrid (.ofNat 5) hesitant) gridWorld) =
        .ok .null (stateAfter (setValue cellPath emptyGrid (.ofNat 5) hesitant) gridWorld) := by
  have inPlace : KeepsArrays cellPath emptyGrid ⟨none, none⟩ gridWorld := by decide +kernel
  have lost : LosesArray cellPath emptyGrid hesitant gridWorld := by decide +kernel
  have notLength : (cellPath.final (cellPath.resolverIn gridWorld)).key ≠ .name "length" := by
    decide +kernel
  have simple : ∀ graph : Graph, graph.isCallable (.ofNat 5) ≠ true := fun _ => Bool.false_ne_true
  refine ⟨⟨inPlace, ?_⟩, lost, ?_⟩
  · refine ((setValue_reads_back_or_is_abandoned meets_emptyGrid.1 meets_emptyGrid.2 rfl
      (knows_of_isObject_eq_false rfl) (supplies_emptyGrid cellPath _ False none)
      (sparesLength_of_ne notLength) (by decide +kernel) (ok_of_run' (by decide +kernel))
      (fun callable => absurd callable (simple _)) none).1 inPlace).resolve_left ?_
    decide +kernel
  · exact ((setValue_reads_back_or_is_abandoned meets_emptyGrid.1 meets_emptyGrid.2 rfl
      (knows_of_isObject_eq_false rfl)
      (@Scene.Supplies.withholding _ _ _ _ (supplies_emptyGrid cellPath _ False none) id
        (· == gridType))
      (sparesLength_of_ne notLength) (by decide +kernel) (ok_of_run' (by decide +kernel))
      (fun callable => absurd callable (simple _)) none).2 lost rfl).2.1

/-- A write that ends normally can be lost without a report: a factory that makes no arrays of
arrays of numbers, but arrays of numbers, loses a cell of a grid. -/
theorem cell_is_lost_without_report :
    cellPath.Meets gridWorld emptyGrid ∧ SparesWay cellPath emptyGrid hesitant gridWorld ∧
      (setValue cellPath emptyGrid (.ofNat 5) hesitant).run' gridWorld = some () ∧
      (stateAfter (setValue cellPath emptyGrid (.ofNat 5) hesitant) gridWorld).abandonments =
        gridWorld.abandonments ∧
      (getValue cellPath emptyGrid ⟨none, none⟩).run'
          (stateAfter (setValue cellPath emptyGrid (.ofNat 5) hesitant) gridWorld) =
        some .null :=
  ⟨meets_emptyGrid.1, by decide +kernel, by decide +kernel, by decide +kernel, by decide +kernel⟩

end Session

end ObjectPath
