import ObjectPath.Proofs.Approach

/-!
# Where writes of nodes go

Going to the object that is to hold a value keeps what an evaluation relies on, whichever
arrays are missing and whichever types the factory has no value for.  If every array that was
made is in its place, the steps of the node before the last one lead to that object.  If one
is not, nothing that was there before has changed at all.

The induction is on the node.  The array that is made for the inner node is stored by a write
of the inner node, which makes further arrays in turn and overwrites elements of those, so it
has to be known that the way to the holder does not ask the array that was made first.  Hence
the statement keeps track of two graphs besides the current one: objects on the way are older
than the first or newer than the second.
-/

namespace ObjectPath

open Graph

/-! ## Slots that were filled -/

namespace Graph

theorem asked_of_own {graph : Graph} {place : Nat} {key : Key} {property : Property}
    (own : graph.ownAt? place key = some property) : graph.asked (.object place) key = [place] := by
  simp [asked, own?, own, Value.place?]

theorem lacks_of_look? {graph : Graph} {value content : Value} {key : Key}
    (looked : graph.look? value key = some content) (missing : content.isMissing = true) :
    graph.Lacks value key := by
  intro property found
  rw [look?, found] at looked
  cases property with
  | data stored flags =>
      cases looked
      exact missing
  | accessor => cases looked

/-- After a value was put into the slot of a step, the step gives the value. -/
theorem take?_of_accepts {guarded : List Key} {before after : Graph} {place : Nat} {step : Step}
    {made : Value} (steady : before.Steady guarded after) (closed : before.Closed)
    (known : before.Knows (.object place)) (guards : Guards guarded [step])
    (opens : before.Opens (.object place) step) (accepts : before.Accepts place step)
    (looked : after.look? (.object place) step.key = some made) :
    after.take? (.object place) step = some made := by
  cases step with
  | field name =>
      have isField := steady.field? closed known (guards name (by simp)) opens looked
      obtain ⟨field, found⟩ := Option.isSome_iff_exists.1 isField
      rw [take?, found]
      exact looked
  | element index =>
      rw [take?, steady.isArray known, if_pos (accepts.array index rfl)]
      exact looked

end Graph

namespace Scene

variable {scene : Scene} {floor : Nat} {origin : Graph} {target : Value} {resolver : Resolver}

/-- What the write of a node starts from: a target that was there in an earlier graph, since
when there only are new objects. -/
structure Entry (scene : Scene) (floor : Nat) (origin graph : Graph) (target : Value) : Prop where
  holds : scene.Holds graph
  above : floor ≤ graph.objects.size
  closed : origin.Closed
  since : origin.Extends graph
  known : origin.Knows target
  present : target.isMissing = false
  plain : graph.Plain scene.keys floor target

theorem Entry.later {graph after : Graph} (entry : scene.Entry floor origin graph target)
    (extends_ : graph.Extends after) (sound : after.Sound) :
    scene.Entry floor origin after target where
  holds := entry.holds.extends extends_ sound
  above := Nat.le_trans entry.above extends_.size
  closed := entry.closed
  since := entry.since.trans extends_
  known := entry.known
  present := entry.present
  plain := entry.plain.extends extends_ entry.holds.sound.toClosed
    (entry.since.follows.knows entry.known)

/-- The objects that steps ask are older than one graph or newer than another. -/
def Avoids (origin before graph : Graph) (target : Value) (steps : List Step) : Prop :=
  ∀ place key, graph.Asks target steps place key →
    place < origin.objects.size ∨ before.objects.size ≤ place

/-- A write has come to the holder of the slot that the last step of a node names. -/
structure Reached (scene : Scene) (floor : Nat) (origin before : Graph) (target : Value)
    (resolver : Resolver) (node : Node) (holder : Value) (attached : Bool) (after : Graph) :
    Prop where
  known : after.Knows holder
  present : holder.isMissing = false
  plain : after.Plain scene.keys floor holder
  opens : after.Opens holder (node.final resolver)
  place : ∀ place, holder = .object place →
    place < origin.objects.size ∨ before.objects.size ≤ place
  way : attached = true → Guards scene.guarded (node.leading resolver) →
    after.travel? target (node.leading resolver) = some holder ∧
      Avoids origin before after target (node.leading resolver)
  lost : attached = false → ¬ scene.generous ∧ before.Extends after ∧
    ∀ place, holder = .object place → before.objects.size ≤ place
  nothing : attached = false → ∃ content,
    before.travel? target (node.leading resolver) = some content ∧ content.isMissing = true

/-- The slot may be filled in: nothing is found there, or it is an element of a new array, and
the way to its holder does not ask it. -/
structure Vacant (scene : Scene) (before : Graph) (target : Value) (resolver : Resolver)
    (node : Node) (holder : Value) (attached : Bool) (after : Graph) : Prop where
  empty : after.Lacks holder (node.final resolver).key ∨
    (∃ index, node.final resolver = .element index) ∧
      ∀ place, holder = .object place → before.objects.size ≤ place
  untouched : attached = true → Guards scene.guarded (node.leading resolver) →
    ∀ place, holder = .object place →
      ¬ after.Asks target (node.leading resolver) place (node.final resolver).key

/-- A value has been put into the slot of a node. -/
structure Filled (scene : Scene) (floor : Nat) (origin before : Graph) (target : Value)
    (resolver : Resolver) (node : Node) (made : Value) (attached : Bool) (after : Graph) :
    Prop where
  kept : scene.Kept floor before after
  way : attached = true → Guards scene.guarded (node.steps resolver) →
    after.travel? target (node.steps resolver) = some made ∧
      Avoids origin before after target (node.steps resolver)
  lost : attached = false → ¬ scene.generous ∧ before.Extends after

theorem Vacant.isLength {before after : Graph} {node : Node} {holder : Value} {attached : Bool}
    (vacant : scene.Vacant before target resolver node holder attached after) :
    after.isLength holder (node.final resolver).key = false := by
  rw [Graph.isLength, Bool.and_eq_false_iff]
  rcases vacant.empty with lacks | ⟨⟨index, isElement⟩, _⟩
  · by_cases isLength : (node.final resolver).key = .name "length"
    · refine Or.inl (Bool.eq_false_iff.2 fun isArray => ?_)
      rw [isLength] at lacks
      cases holder with
      | object place =>
          unfold Graph.isArray arrayLength? at isArray
          split at isArray
          · rename_i parent length resizable slots extensible isObject
            have found : after.find? (.object place) (.name "length") =
                some (.data (.ofNat length) ⟨resizable, false, false⟩) := by
              rw [find?, own?_of_object? isObject]
              rfl
            cases lacks _ found
          · cases isArray
      | _ => cases isArray
    · exact Or.inr (by simp [isLength])
  · refine Or.inr ?_
    rw [isElement]
    have different := Key.ofIndex_ne_name index (show 'l' ∈ "length".toList by decide) (by decide)
    simp only [Step.key, beq_eq_false_iff_ne, ne_eq]
    exact different

/-- Settling a value in a vacant slot fills it, and the whole way leads to the value. -/
theorem settle_filled {before after : Graph} {node : Node} {holder made : Value}
    {attached : Bool} (plainNode : node.isPlain = true)
    (within : Within scene.keys (node.steps resolver)) (holds : scene.Holds before)
    (kept : scene.Kept floor before after) (knownTarget : after.Knows target)
    (reached : scene.Reached floor origin before target resolver node holder attached after)
    (vacant : scene.Vacant before target resolver node holder attached after)
    (known : after.Knows made) (plain : after.Plain scene.keys floor made)
    (calm : ∀ key ∈ scene.guarded, after.isCallable made = false) :
    Ensures (node.settle resolver holder made) after
      (fun _ later => scene.Filled floor origin before target resolver node made attached later)
      fun _ later => scene.Kept floor before later := by
  obtain ⟨withinLeading, withinFinal⟩ := Within.append.1 within
  have named := withinFinal (node.final resolver) (by simp)
  obtain ⟨content, looked, _⟩ := reached.plain.look? reached.present named
  refine (Node.settle_ensures kept.holds.sound made plainNode looked vacant.isLength).mono ?_ ?_
  · rintro _ later ⟨place, rfl, accepts, rfl⟩
    have noClass := reached.opens.not_mem_classKeys
    -- The slot was empty before: nothing was found under its key, or it is an element of a new
    -- array.
    have empty : after.Lacks (.object place) (node.final resolver).key ∨
        before.objects.size ≤ place ∧ (node.final resolver).key ∉ namingKeys := by
      refine vacant.empty.imp_right ?_
      rintro ⟨⟨index, isElement⟩, new⟩
      rw [isElement]
      exact ⟨new place rfl, Key.ofIndex_not_mem_namingKeys index⟩
    have steady := steady_store accepts.slot known noClass fun isGuarded => calm _ isGuarded
    obtain ⟨flags, _, own⟩ := ownAt?_store_self made accepts.slot
    refine ⟨kept.store holds accepts.slot empty known plain noClass (fun isGuarded =>
      calm _ isGuarded) reached.plain.floor_le, ?_, ?_⟩
    · intro isAttached guards
      obtain ⟨guardsLeading, guardsFinal⟩ := Guards.append.1 guards
      obtain ⟨travelled, avoids⟩ := reached.way isAttached guardsLeading
      have untouched := vacant.untouched isAttached guardsLeading place rfl
      obtain ⟨found, travelledLater, like⟩ := travel?_store steady kept.holds.sound.toClosed
        knownTarget guardsLeading (Value.Like.refl target) travelled untouched
      rw [like.eq_of_object rfl] at travelledLater
      have looked : (after.store (.object place) (node.final resolver).key made).look?
          (.object place) (node.final resolver).key = some made := by
        rw [look?, find?, own?, own]
      have taken : (after.store (.object place) (node.final resolver).key made).take?
          (.object place) (node.final resolver) = some made :=
        take?_of_accepts steady kept.holds.sound.toClosed reached.known guardsFinal reached.opens
          accepts looked
      -- The steps come to the slot as before, since the store is at none of the places that they
      -- ask.
      refine ⟨?_, ?_⟩
      · rw [Node.steps, travel?_append, travelledLater, Option.bind_some, travel?, taken]
        rfl
      · intro asked key asks
        rw [Node.steps, asks_append travelledLater rfl] at asks
        rcases asks with before | last
        · exact avoids asked key (asks_store after made (Value.Like.refl target) untouched before)
        · rcases last with ⟨rfl, isAsked⟩ | impossible
          · rw [asked_of_own own, List.mem_singleton] at isAsked
            exact isAsked ▸ reached.place place rfl
          · exact impossible.elim
    · intro isLost
      obtain ⟨notGenerous, extends_, new⟩ := reached.lost isLost
      exact ⟨notGenerous, extends_.store (new place rfl) _ _⟩
  · rintro _ later rfl
    exact kept

/-- A value that is lost changes nothing at all. -/
theorem Filled.of_refused {before after : Graph} {node : Node} {made : Value}
    (kept : scene.Kept floor before after) (notGenerous : ¬ scene.generous)
    (extends_ : before.Extends after) :
    scene.Filled floor origin before target resolver node made false after :=
  ⟨kept, nofun, fun _ => ⟨notGenerous, extends_⟩⟩

/-! ## Going to a holder -/

/-- What comes of going to the holder of a value, if nothing fails. -/
def Arrives (scene : Scene) (floor : Nat) (origin before : Graph) (target : Value)
    (resolver : Resolver) (node : Node) (arrival : Arrival) (after : Graph) : Prop :=
  scene.Kept floor before after ∧
    match arrival with
    | .refused => ¬ scene.generous ∧ before.Extends after
    | .reached holder attached =>
        scene.Reached floor origin before target resolver node holder attached after ∧
          ∀ content, before.travel? target (node.steps resolver) = some content →
            content.isMissing = true →
              scene.Vacant before target resolver node holder attached after

theorem Entry.arrives_field {graph : Graph} (entry : scene.Entry floor origin graph target)
    {serial : Nat} {name : String}
    (isField : (graph.field? target (resolver.actualName name)).isSome = true) :
    scene.Arrives floor origin graph target resolver (.field serial name) (.reached target true)
      graph := by
  refine ⟨.refl entry.holds, ⟨entry.since.follows.knows entry.known, entry.present, entry.plain,
    isField, ?_, fun _ _ => ⟨rfl, ?_⟩, (fun lost => by cases lost),
    fun lost => by cases lost⟩, ?_⟩
  · intro place same
    exact Or.inl (entry.known place same)
  · intro place key impossible
    exact impossible.elim
  · intro content travelled missing
    refine ⟨Or.inl ?_, fun _ _ _ _ => id⟩
    have taken : graph.take? target ((Node.field serial name).final resolver) = some content := by
      simpa [Node.steps, Node.leading, travel?, entry.present] using travelled
    exact lacks_of_look? (take?_look? taken) missing

theorem Entry.arrives_element {graph : Graph} (entry : scene.Entry floor origin graph target)
    {serial : Nat} {text : String} {index : Nat} :
    scene.Arrives floor origin graph target resolver (.array serial text index none)
      (.reached target true) graph := by
  refine ⟨.refl entry.holds, ⟨entry.since.follows.knows entry.known, entry.present, entry.plain,
    trivial, ?_, fun _ _ => ⟨rfl, ?_⟩, (fun lost => by cases lost),
    fun lost => by cases lost⟩, ?_⟩
  · intro place same
    exact Or.inl (entry.known place same)
  · intro place key impossible
    exact impossible.elim
  · intro content travelled missing
    refine ⟨Or.inl ?_, fun _ _ _ _ => id⟩
    have taken : graph.take? target (.element index) = some content := by
      simpa [Node.steps, Node.leading, Node.final, travel?, entry.present] using travelled
    exact lacks_of_look? (take?_look? taken) missing

/-- An array that is there already is the holder, and nothing changes. -/
theorem Entry.arrives_present {graph : Graph} (entry : scene.Entry floor origin graph target)
    {serial : Nat} {text : String} {index : Nat} {inner : Node} {array : Value}
    (within : Within scene.keys (inner.steps resolver))
    (travelled : graph.travel? target (inner.steps resolver) = some array)
    (there : array.isMissing = false) :
    scene.Arrives floor origin graph target resolver (.array serial text index (some inner))
      (.reached array true) graph := by
  have knownArray := entry.since.travel?_known entry.closed entry.known travelled
  refine ⟨.refl entry.holds, ⟨entry.since.follows.knows knownArray, there,
    entry.plain.travel? within travelled, trivial, ?_, fun _ _ => ⟨travelled, ?_⟩,
    (fun lost => by cases lost), fun lost => by cases lost⟩, ?_⟩
  · intro place same
    exact Or.inl (knownArray place same)
  · intro place key asks
    exact Or.inl (entry.since.asks_lt entry.closed entry.known asks)
  · intro content travelledFurther missing
    have taken : graph.take? array (.element index) = some content := by
      have parts : (Node.array serial text index (some inner)).steps resolver =
          inner.steps resolver ++ [.element index] := rfl
      rw [parts, travel?_append, travelled, Option.bind_some] at travelledFurther
      simpa [travel?, there] using travelledFurther
    have lacks := lacks_of_look? (take?_look? taken) missing
    refine ⟨Or.inl lacks, ?_⟩
    rintro _ _ place rfl
    exact entry.holds.sound.not_asks_of_lacks travelled there lacks

/-- A new array is the holder once the inner node has stored it, or has given up. -/
theorem Entry.arrives_new {graph asked produced after : Graph} {made : Value} {attached : Bool}
    (entry : scene.Entry floor origin graph target) (since : graph.Extends asked)
    (made_ : scene.Made floor asked made produced)
    {serial : Nat} {text : String} {index : Nat} {inner : Node}
    (travelled : ∃ content, graph.travel? target (inner.steps resolver) = some content ∧
      content.isMissing = true)
    (there : made.isMissing = false)
    (keptBefore : scene.Kept floor graph produced)
    (filled : scene.Filled floor origin produced target resolver inner made attached after) :
    scene.Arrives floor origin graph target resolver (.array serial text index (some inner))
      (.reached made attached) after := by
  have new : ∀ place, made = .object place → graph.objects.size ≤ place := fun place same =>
    Nat.le_trans since.size (made_.new place same)
  have later := Nat.le_trans since.size made_.extends_.size
  refine ⟨keptBefore.trans filled.kept, ⟨filled.kept.grows.knows made_.known, there,
    filled.kept.plain (Nat.le_refl floor) made_.known made_.plain, trivial, fun place same =>
    Or.inr (new place same), ?_, ?_, fun _ => travelled⟩, ?_⟩
  · intro isAttached guards
    obtain ⟨travelled, avoids⟩ := filled.way isAttached guards
    exact ⟨travelled, fun place key asks => (avoids place key asks).imp_right (Nat.le_trans later)⟩
  · intro isLost
    obtain ⟨notGenerous, extends_⟩ := filled.lost isLost
    exact ⟨notGenerous, (since.trans made_.extends_).trans extends_, new⟩
  · intro _ _ _
    refine ⟨Or.inr ⟨⟨index, rfl⟩, new⟩, ?_⟩
    rintro isAttached guards place rfl asks
    have inside := knows_object.1 made_.known
    have newer := new place rfl
    have older := entry.since.size
    rcases (filled.way isAttached guards).2 place _ asks with old | fresh
    · omega
    · omega

end Scene

/-! ## Steps of a write -/

namespace Node

variable {keys : List Key} {floor : Nat} {graph : Graph} {target : Value} {resolver : Resolver}
  {arguments : Option ArgumentMap} {supply : Factory} {good : Arrival → Graph → Prop}
  {bad : Fault → Graph → Prop} (sound : graph.Sound) (present : target.isMissing = false)
  (plain : graph.Plain keys floor target) (unread : ∀ fault, bad fault graph)
include sound present plain unread

/-- The write of a field goes to the target, which has the field. -/
theorem approach_field_ensures {serial : Nat} {name : String}
    (within : Within keys ((Node.field serial name).steps resolver))
    (reached : ∀ field, graph.field? target (resolver.actualName name) = some field →
      good (.reached target true) graph) :
    Ensures ((Node.field serial name).approach resolver arguments (some supply) (.onValue target))
      graph good bad := by
  have named := within (.field (resolver.actualName name))
    (by simp [Node.steps, Node.final, Node.leading])
  have looks : graph.Sound →
      (graph.look? target (.ofText (resolver.actualName name))).isSome = true := by
    intro _
    obtain ⟨content, looked, _⟩ := plain.look? present named
    rw [show graph.look? target (.ofText (resolver.actualName name)) = some content from looked]
    rfl
  exact ((fieldAt_answers sound.toClassed present id looks).peeks sound).ensures_bind
    (fun field isField => reached field isField) unread

/-- The write of an element goes to the array of the inner node, or to a new one. -/
theorem approach_nested_ensures {serial : Nat} {text : String} {index : Nat} {inner : Node}
    (plainInner : inner.isPlain = true) (within : Within keys (inner.steps resolver))
    {asks : Value → Prop} (typed : Peeks (inner.typeAt resolver arguments (.onValue target)) graph asks)
    (there : ∀ array, graph.travel? target (inner.steps resolver) = some array →
      array.isMissing = false → good (.reached array true) graph)
    (absent : ∀ array type, graph.travel? target (inner.steps resolver) = some array →
      array.isMissing = true → asks type →
        Ensures (Run.requestedArray type >>= inner.place resolver arguments supply (.onValue target))
          graph (fun placing later => good placing.arrival later) bad) :
    Ensures ((Node.array serial text index (some inner)).approach resolver arguments (some supply)
      (.onValue target)) graph good bad := by
  rw [approach_nested]
  refine ((read_answers sound.toClassed present arguments plainInner within).peeks
    ⟨sound, plain⟩).ensures_bind ?_ unread
  intro array travelled
  split
  case isFalse isThere => exact there array travelled (by simpa using isThere)
  case isTrue missing =>
    exact typed.ensures_bind (fun type asked => Ensures.map (absent array type travelled missing asked))
      unread

end Node

namespace Scene

variable {scene : Scene} {floor : Nat} {origin graph : Graph} {target : Value} {resolver : Resolver}
  {arguments : Option ArgumentMap} {supply : Factory} {node : Node} {content type : Value}

/-- A new value is made, the write goes to its holder, and the value is stored there. -/
theorem place_rule {good : Placing → Graph → Prop} {bad : Fault → Graph → Prop}
    {supplied : Value → Graph → Prop} (arrived : Value → Graph → Arrival → Graph → Prop)
    (entry : scene.Entry floor origin graph target)
    (travelled : graph.travel? target (node.steps resolver) = some content)
    (missing : content.isMissing = true)
    (produces : Ensures (produce supply type arguments) graph supplied bad)
    (makes : ∀ {made produced}, supplied made produced → scene.Made floor graph made produced)
    (nothing : ∀ made produced, supplied made produced → made.isMissing = true →
      good .nothing produced)
    (approaches : ∀ made produced, supplied made produced → made.isMissing = false →
      Ensures (node.approach resolver arguments (some supply) (.onValue target)) produced
        (fun arrival later => scene.Arrives floor origin produced target resolver node arrival later ∧
          arrived made produced arrival later) bad)
    (lost : ∀ made produced later, supplied made produced → made.isMissing = false →
      scene.Arrives floor origin produced target resolver node .refused later →
        arrived made produced .refused later → good (.lost made) later)
    (settles : ∀ made produced holder attached later, supplied made produced →
      made.isMissing = false → scene.Kept floor produced later →
        scene.Reached floor origin produced target resolver node holder attached later →
          scene.Vacant produced target resolver node holder attached later →
            arrived made produced (.reached holder attached) later →
              Ensures (node.settle resolver holder made) later
                (fun _ final => good (.placed made attached) final) bad) :
    Ensures (node.place resolver arguments supply (.onValue target) type) graph good bad := by
  refine Ensures.bind produces ?_
  intro made produced isSupplied
  split
  case isTrue missingMade => exact nothing made produced isSupplied missingMade
  case isFalse there =>
    have present : made.isMissing = false := by simpa using there
    refine Ensures.bind (approaches made produced isSupplied present) ?_
    rintro arrival later ⟨arrives, hasArrived⟩
    cases arrival with
    | refused => exact lost made produced later isSupplied present arrives hasArrived
    | reached holder attached =>
        obtain ⟨kept, reached, vacancy⟩ := arrives
        have stillMissing := (makes isSupplied).extends_.travel?_of_some entry.holds.sound.toClosed
          (entry.since.follows.knows entry.known) travelled
        exact Ensures.bind (settles made produced holder attached later isSupplied present kept
          reached (vacancy content stillMissing missing) hasArrived) fun _ _ => Ensures.pure

/-- What comes of placing a new value, if nothing fails. -/
def Places (scene : Scene) (floor : Nat) (origin before : Graph) (target : Value)
    (resolver : Resolver) (node : Node) (supplied : Value → Graph → Prop) (placing : Placing)
    (after : Graph) : Prop :=
  match placing with
  | .nothing => scene.Kept floor before after ∧ ¬ scene.generous ∧ before.Extends after
  | .lost made => ¬ scene.generous ∧ ∃ produced, supplied made produced ∧ made.isMissing = false ∧
      scene.Filled floor origin produced target resolver node made false after
  | .placed made attached => ∃ produced, supplied made produced ∧ made.isMissing = false ∧
      scene.Filled floor origin produced target resolver node made attached after

/-- A new value that is placed keeps what an evaluation relies on, if the way to its holder does. -/
theorem place_ensures {supplied : Value → Graph → Prop}
    (entry : scene.Entry floor origin graph target) (plainNode : node.isPlain = true)
    (within : Within scene.keys (node.steps resolver))
    (approaches : ∀ {graph : Graph}, scene.Entry floor origin graph target →
      Ensures (node.approach resolver arguments (some supply) (.onValue target)) graph
        (scene.Arrives floor origin graph target resolver node)
        fun _ later => scene.Kept floor graph later)
    (travelled : graph.travel? target (node.steps resolver) = some content)
    (missing : content.isMissing = true)
    (produces : Ensures (produce supply type arguments) graph supplied
      fun _ later => scene.Kept floor graph later)
    (makes : ∀ {made produced}, supplied made produced → scene.Made floor graph made produced) :
    Ensures (node.place resolver arguments supply (.onValue target) type) graph
      (scene.Places floor origin graph target resolver node supplied)
      fun _ later => scene.Kept floor graph later := by
  have keptBefore : ∀ {made produced}, supplied made produced → scene.Kept floor graph produced :=
    fun isSupplied => .of_extends entry.holds (makes isSupplied).extends_ (makes isSupplied).sound
  have entryMade : ∀ {made produced}, supplied made produced →
      scene.Entry floor origin produced target :=
    fun isSupplied => entry.later (makes isSupplied).extends_ (makes isSupplied).sound
  refine place_rule (fun _ _ _ _ => True) entry travelled missing produces makes
    ?nothing ?approaches ?lost ?settles
  case nothing =>
    intro made produced isSupplied missingMade
    refine ⟨keptBefore isSupplied, fun generous => ?_, (makes isSupplied).extends_⟩
    rw [(makes isSupplied).given generous] at missingMade
    cases missingMade
  case approaches =>
    intro made produced isSupplied present
    exact (approaches (entryMade isSupplied)).mono (fun _ _ arrives => ⟨arrives, trivial⟩)
      fun _ _ => (keptBefore isSupplied).trans
  case lost =>
    rintro made produced later isSupplied present ⟨kept, notGenerous, extends_⟩ _
    exact ⟨notGenerous, produced, isSupplied, present, .of_refused kept notGenerous extends_⟩
  case settles =>
    intro made produced holder attached later isSupplied present kept reached vacant _
    have made_ := makes isSupplied
    have knownTarget := kept.grows.knows (made_.extends_.follows.knows
      (entry.since.follows.knows entry.known))
    refine Ensures.mono (settle_filled plainNode within (entryMade isSupplied).holds kept knownTarget
      reached vacant (kept.grows.knows made_.known)
      (kept.plain (Nat.le_refl floor) made_.known made_.plain) ?_) ?_
      fun _ _ => (keptBefore isSupplied).trans
    · intro key isGuarded
      rw [kept.grows.isCallable made_.known]
      exact made_.calm key isGuarded
    · intro _ final filled
      exact ⟨produced, isSupplied, present, filled⟩

/-- Going to the holder of a value keeps what an evaluation relies on, on every outcome. -/
theorem approach_ensures (supplies : scene.Supplies floor supply arguments)
    (entry : scene.Entry floor origin graph target) (plainNode : node.isPlain = true)
    (within : Within scene.keys (node.steps resolver)) :
    Ensures (node.approach resolver arguments (some supply) (.onValue target)) graph
      (scene.Arrives floor origin graph target resolver node)
      fun _ later => scene.Kept floor graph later := by
  -- Induction on the node: the array of a nested one is found, or placed by the node inside it.
  induction node, plainNode using Node.plainInduction generalizing graph with
  | field serial name =>
      exact Node.approach_field_ensures entry.holds.sound entry.present entry.plain
        (fun _ => .refl entry.holds) within fun field isField =>
          entry.arrives_field (by rw [isField]; rfl)
  | element serial text index => exact entry.arrives_element
  | nested serial text index inner plainInner inductionHypothesis =>
      have withinInner := (Within.append.1 within).1
      have sound := entry.holds.sound
      refine Node.approach_nested_ensures sound entry.present entry.plain
        (fun _ => .refl entry.holds) plainInner withinInner
        (Node.typeAt_peeks sound entry.present entry.plain arguments plainInner withinInner)
        (fun array => entry.arrives_present withinInner) ?_
      intro array type travelled missing requested
      refine (Run.requestedArray_ensures sound requested).bind_of_never ?_
      rintro request asked ⟨since, soundAsked, requestedAsked⟩
      have entryAsked := entry.later since soundAsked
      have keptAsked : scene.Kept floor graph asked := .of_extends entry.holds since soundAsked
      have produces : Ensures (produce supply request arguments) asked (scene.Made floor asked)
          fun _ later => scene.Kept floor asked later :=
        (produce_ensures supplies entryAsked.holds entryAsked.above requestedAsked).mono
          (fun _ _ => id) fun _ _ extended => .of_extends entryAsked.holds extended.1 extended.2
      refine Ensures.mono (place_ensures entryAsked plainInner withinInner
        (fun entry => inductionHypothesis entry withinInner)
        (since.travel?_of_some sound.toClosed (entry.since.follows.knows entry.known) travelled)
        missing produces id) ?_ fun _ _ => keptAsked.trans
      intro placing later places
      have arrives : ∀ {made produced attached}, scene.Made floor asked made produced →
          made.isMissing = false →
            scene.Filled floor origin produced target resolver inner made attached later →
              scene.Arrives floor origin graph target resolver
                (.array serial text index (some inner)) (.reached made attached) later :=
        fun made_ present filled => entry.arrives_new since made_ ⟨array, travelled, missing⟩ present
          (keptAsked.trans (.of_extends entryAsked.holds made_.extends_ made_.sound)) filled
      cases placing with
      | nothing =>
          obtain ⟨kept, notGenerous, extends_⟩ := places
          exact ⟨keptAsked.trans kept, notGenerous, since.trans extends_⟩
      | lost made =>
          obtain ⟨_, produced, made_, present, filled⟩ := places
          exact arrives made_ present filled
      | placed made attached =>
          obtain ⟨produced, made_, present, filled⟩ := places
          exact arrives made_ present filled

end Scene

end ObjectPath
