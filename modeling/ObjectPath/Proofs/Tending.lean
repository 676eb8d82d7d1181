import ObjectPath.Proofs.Concluding
import ObjectPath.Proofs.Garden

/-!
# Writes among trees

Whatever a write fills in on its way is a new tree or a simple value, and is put into a slot of a
tree.  So there are trees after every step.  In trees a slot is come to in one way only, so the
slots that are filled in are those on the way of the write, and all others stay as they are.
-/

namespace ObjectPath

open Graph Session

namespace Garden

variable {garden : Garden} {graph before middle after : Graph} {inside later final : Nat → Prop}
  {made content target root : Value} {resolver : Resolver}

/-! ## Steps of a garden -/

section Steps

variable {steps : List Step} (listed : steps ⊆ garden.steps)
include listed

theorem named_of_listed : steps.map Step.key ⊆ garden.keys :=
  List.map_subset _ listed

theorem within_of_listed : Within garden.keys steps :=
  fun _ member => List.mem_map_of_mem (listed member)

theorem guards_of_listed : Guards garden.keys steps :=
  fun _ member => List.mem_map_of_mem (listed member)

end Steps

/-! ## Single steps of a write -/

/-- A new value that no slot holds is one still after something else was made and stored. -/
theorem Free.tends {size : Nat} (free : garden.Free size middle later made)
    (belongs : Belongs garden.around later made) (stands : garden.Stands middle later)
    (tends : garden.Tends middle later after final) : garden.Free size after final made := by
  rintro child rfl isChild
  rcases belongs with isAround | ⟨_, ⟨⟩, isInside⟩
  · exact absurd isChild (tends.stands.forest.outer isAround)
  · obtain ⟨new, loose⟩ := free child rfl isInside
    exact ⟨new, tends.loose isInside (stands.forest.known isInside) loose⟩

theorem Free.mono {size smaller : Nat} (free : garden.Free size graph inside made)
    (le : smaller ≤ size) : garden.Free smaller graph inside made :=
  fun child same isChild =>
    have ⟨new, loose⟩ := free child same isChild
    ⟨Nat.le_trans le new, loose⟩

/-- Once the write of a node has come to a holder among the trees, a new value that is put into
its slot leaves trees. -/
theorem settle_tends (fenced : garden.Fenced) (tends : garden.Tends before inside after later)
    {node : Node} (plainNode : node.isPlain = true) (listed : node.final resolver ∈ garden.steps)
    {holder : Value} (isHolder : Belongs garden.around later holder)
    (present : holder.isMissing = false) (opens : after.Opens holder (node.final resolver))
    (notLength : after.isLength holder (node.final resolver).key = false)
    (belongs : Belongs garden.around later made)
    (free : garden.Free before.objects.size after later made) :
    Ensures (node.settle resolver holder made) after
      (fun _ settled => garden.Tends before inside settled later) fun _ _ => True := by
  have stands := tends.stands
  obtain ⟨content, looked, _⟩ := isHolder.looked stands.forest (stands.surrounds fenced) present
    (List.mem_map_of_mem listed)
  refine (Node.settle_ensures stands.sound made plainNode looked notLength).mono ?_
    fun _ _ _ => trivial
  rintro _ settled ⟨place, rfl, accepts, rfl⟩
  exact tends.store fenced (stands.holder fenced isHolder listed opens accepts) accepts.slot
    opens.not_mem_classKeys belongs free

section Evaluations

variable {origin : Graph} {supply : Factory} {arguments : Option ArgumentMap}
  (fenced : garden.Fenced)
  (supplies : (garden.scene origin).Supplies 0 supply arguments)
  (provides : ∀ {graph : Graph} {inside : Nat → Prop} {type : Value},
    (garden.scene origin).Holds graph → garden.Stands graph inside → graph.Requested type →
      Ensures (supply type arguments) graph
        (fun made after => garden.Yields graph inside made after) fun _ _ => True)

include fenced in
theorem Stands.entry (stands : garden.Stands graph inside)
    (holds : (garden.scene origin).Holds graph) (belongs : Belongs garden.around inside target)
    (present : target.isMissing = false) : (garden.scene origin).Entry 0 graph graph target :=
  .at_once holds (Nat.zero_le _) (stands.knows fenced belongs) present (stands.plain fenced belongs)

include supplies provides

/-- What a factory makes joins the trees. -/
theorem produce_yields (holds : (garden.scene origin).Holds graph)
    (stands : garden.Stands graph inside) {type : Value} (requested : graph.Requested type) :
    Ensures (produce supply type arguments) graph
      (fun made after => (garden.scene origin).Made 0 graph made after ∧
        garden.Yields graph inside made after)
      fun _ _ => True := by
  have yields : Ensures (produce supply type arguments) graph
      (fun made after => garden.Yields graph inside made after) fun _ _ => True := by
    unfold Ensures
    split
    · rename_i made later ended
      exact (provides holds stands requested).ok (ok_of_produce ended)
    · trivial
  exact (Ensures.and (produce_ensures supplies holds (Nat.zero_le _) requested) yields).mono
    (fun _ _ => id) fun _ _ _ => trivial

include fenced

/-- Going to the holder of a value leaves trees, and the holder belongs to them. -/
theorem approach_tends (holds : (garden.scene origin).Holds graph)
    (stands : garden.Stands graph inside) (belongs : Belongs garden.around inside target)
    (present : target.isMissing = false) {node : Node} (plainNode : node.isPlain = true)
    (listed : node.steps resolver ⊆ garden.steps) :
    Ensures (node.approach resolver arguments (some supply) (.onValue target)) graph
      (fun arrival after => ∃ later, garden.Tends graph inside after later ∧
        ∀ holder attached, arrival = .reached holder attached →
          Belongs garden.around later holder)
      fun _ _ => True := by
  -- A target is a holder itself if nothing has to be done on the way to it.
  have itself : ∃ later, garden.Tends graph inside graph later ∧
      ∀ holder attached, Arrival.reached target true = .reached holder attached →
        Belongs garden.around later holder := by
    refine ⟨inside, .refl stands, ?_⟩
    rintro _ _ ⟨⟩
    exact belongs
  induction node, plainNode using Node.plainInduction generalizing graph inside with
  | field serial name =>
      have looks : True →
          (graph.look? target (.ofText (resolver.actualName name))).isSome = true := by
        intro _
        obtain ⟨content, looked, _⟩ := (stands.plain fenced belongs).look? present
          (within_of_listed listed (.field (resolver.actualName name)) (by
            simp [Node.steps, Node.final, Node.leading]))
        rw [show graph.look? target (.ofText (resolver.actualName name)) = some content from looked]
        rfl
      exact ((Node.fieldAt_answers stands.sound.toClassed present (fun _ => stands.sound)
        looks).peeks trivial).ensures_bind (fun _ _ => itself) fun _ => trivial
  | element serial text index => exact itself
  | nested serial text index inner plainInner inductionHypothesis =>
      have listedInner : inner.steps resolver ⊆ garden.steps :=
        fun step member => listed (List.mem_append_left _ member)
      have within := within_of_listed listedInner
      have plain := stands.plain fenced belongs
      unfold Node.approach
      refine ((Node.read_answers stands.sound.toClassed present arguments plainInner within).peeks
        ⟨stands.sound, plain⟩).ensures_bind ?_ fun _ => trivial
      intro array travelled
      split
      case isFalse there =>
        refine ⟨inside, .refl stands, ?_⟩
        rintro _ _ ⟨⟩
        exact belongs.travel stands.forest (stands.surrounds fenced) (named_of_listed listedInner)
          travelled
      case isTrue missing =>
        refine (Node.typeAt_peeks stands.sound present plain arguments plainInner
          within).ensures_bind ?_ fun _ => trivial
        intro type requested
        refine (Run.requestedArray_ensures stands.sound requested).bind_of_never ?_
        rintro request asked ⟨sinceAsked, soundAsked, requestedAsked⟩
        have standsAsked := stands.later fenced sinceAsked soundAsked
        have holdsAsked := holds.extends sinceAsked soundAsked
        refine Ensures.bind (produce_yields supplies provides holdsAsked standsAsked
          requestedAsked) ?_
        rintro made produced ⟨made_, middle, tendsMade, belongsMade, free⟩
        have tends := (Tends.of_extends fenced stands sinceAsked soundAsked).trans tendsMade
        have freeMade : garden.Free graph.objects.size produced middle made :=
          free.mono sinceAsked.size
        split
        case isTrue => exact ⟨middle, tends, by rintro _ _ ⟨⟩⟩
        case isFalse there =>
          have standsMade := tendsMade.stands
          have holdsMade := holdsAsked.extends made_.extends_ made_.sound
          have belongsTarget : Belongs garden.around middle target :=
            belongs.mono fun _ => tends.grown
          have entry := standsMade.entry fenced holdsMade belongsTarget present
          -- Whatever comes of the inner node, the new array is the holder.
          have comes : ∀ {after final attached}, garden.Tends graph inside after final →
              (∀ place, middle place → final place) →
              ∃ later, garden.Tends graph inside after later ∧ ∀ holder attached',
                Arrival.reached made attached = .reached holder attached' →
                  Belongs garden.around later holder := by
            intro after final attached tends grown
            refine ⟨final, tends, ?_⟩
            rintro _ _ ⟨⟩
            exact belongsMade.mono grown
          have arrives := Scene.approach_ensures supplies entry plainInner within
          have deeper := inductionHypothesis holdsMade standsMade belongsTarget listedInner
            ⟨middle, .refl standsMade, by rintro _ _ ⟨⟩; exact belongsTarget⟩
          refine Ensures.bind_weaker (Ensures.and arrives deeper) (fun _ _ _ => trivial) ?_
          rintro arrival later ⟨arrives, final, tendsInner, isHolder⟩
          cases arrival with
          | refused => exact comes (tends.trans tendsInner) fun _ => tendsInner.grown
          | reached holder attached =>
              obtain ⟨kept, reached, vacancy⟩ := arrives
              have vacant := vacancy array ((sinceAsked.trans made_.extends_).travel?_of_some
                stands.sound.toClosed (stands.knows fenced belongs) travelled) missing
              refine Ensures.bind (settle_tends fenced (tends.trans tendsInner) plainInner
                (listedInner (List.mem_append_right _ (List.mem_singleton_self _)))
                (isHolder holder attached rfl) reached.present reached.opens vacant.isLength
                (belongsMade.mono fun _ => tendsInner.grown)
                (freeMade.tends belongsMade standsMade tendsInner)) ?_
              rintro _ settled tendsSettled
              exact comes tendsSettled fun _ => tendsInner.grown

/-- Filling in the missing value of a node leaves trees, and what is filled in belongs to them. -/
theorem fill_tends (holds : (garden.scene origin).Holds graph)
    (stands : garden.Stands graph inside) (belongs : Belongs garden.around inside target)
    (present : target.isMissing = false) {node : Node} (plainNode : node.isPlain = true)
    (listed : node.steps resolver ⊆ garden.steps)
    (travelled : graph.travel? target (node.steps resolver) = some content)
    (missing : content.isMissing = true) :
    Ensures (node.fill resolver arguments supply (.onValue target)) graph
      (fun filling after => ∃ later, garden.Tends graph inside after later ∧
        ∀ type made attached, filling = .filled type made attached →
          Belongs garden.around later made)
      fun _ _ => True := by
  have within := within_of_listed listed
  unfold Node.fill
  refine (Node.typeAt_peeks stands.sound present (stands.plain fenced belongs) arguments plainNode
    within).ensures_bind ?_ fun _ => trivial
  intro type requested
  refine Ensures.bind (produce_yields supplies provides holds stands requested) ?_
  rintro made produced ⟨made_, middle, tends, belongsMade, free⟩
  split
  case isTrue => exact ⟨middle, tends, by rintro _ _ _ ⟨⟩⟩
  case isFalse there =>
    -- What was made is apart from the trees until the node puts it into its slot.
    have standsMade := tends.stands
    have holdsMade := holds.extends made_.extends_ made_.sound
    have belongsTarget : Belongs garden.around middle target := belongs.mono fun _ => tends.grown
    have arrives := Scene.approach_ensures supplies
      (standsMade.entry fenced holdsMade belongsTarget present) plainNode within
    have approaches := approach_tends fenced supplies provides holdsMade standsMade belongsTarget
      present plainNode listed
    refine Ensures.bind_weaker (Ensures.and arrives approaches) (fun _ _ _ => trivial) ?_
    rintro arrival later ⟨arrives, final, tendsInner, isHolder⟩
    cases arrival with
    | refused => exact ⟨final, tends.trans tendsInner, by rintro _ _ _ ⟨⟩⟩
    | reached holder attached =>
        obtain ⟨kept, reached, vacancy⟩ := arrives
        have vacant := vacancy content (made_.extends_.travel?_of_some stands.sound.toClosed
          (stands.knows fenced belongs) travelled) missing
        refine Ensures.bind (settle_tends fenced (tends.trans tendsInner) plainNode
          (listed (List.mem_append_right _ (List.mem_singleton_self _)))
          (isHolder holder attached rfl) reached.present reached.opens vacant.isLength
          (belongsMade.mono fun _ => tendsInner.grown)
          (free.tends belongsMade standsMade tendsInner)) ?_
        rintro _ settled tendsSettled
        refine ⟨final, tendsSettled, ?_⟩
        rintro _ _ _ ⟨⟩
        exact belongsMade.mono fun _ => tendsInner.grown

end Evaluations

/-- A root is held by no slot later either. -/
theorem Tends.stem (tends : garden.Tends before inside after later)
    (stands : garden.Stands before inside)
    (stem : before.Stem garden.keys garden.around inside root) :
    after.Stem garden.keys garden.around later root where
  belongs := stem.belongs.mono fun _ => tends.grown
  loose := by
    rintro place rfl isLater
    rcases stem.belongs with isAround | ⟨_, ⟨⟩, isInside⟩
    · exact absurd isLater (tends.stands.forest.outer isAround)
    · exact tends.loose isInside (stands.forest.known isInside) (stem.loose place rfl isInside)

/-! ## Slots off a line -/

/-- A write along a line of steps from a root leaves trees.  What was there is there still, and a
slot of a tree changes only if the steps to it begin the line. -/
structure Proceeds (garden : Garden) (root : Value) (line : List Step) (before : Graph)
    (inside : Nat → Prop) (after : Graph) (later : Nat → Prop) : Prop
    extends Tends garden before inside after later where
  grows : before.Grows garden.keys after
  spares : ∀ {lead : List Step} {step : Step} {place : Nat}, inside place →
    lead ++ [step] ⊆ garden.steps → before.travel? root lead = some (.object place) →
      ¬ (lead ++ [step]).map Step.key <+: line.map Step.key →
        after.ownAt? place step.key = before.ownAt? place step.key

namespace Proceeds

variable {line trail steps : List Step}

theorem refl (stands : garden.Stands graph inside) :
    garden.Proceeds root line graph inside graph inside where
  toTends := .refl stands
  grows := (Extends.refl graph).grows stands.sound.toClosed
  spares := fun _ _ _ _ => rfl

theorem trans {last : Graph} (left : garden.Proceeds root line before inside middle later)
    (right : garden.Proceeds root line middle later last final) (closed : before.Closed)
    (known : before.Knows root) : garden.Proceeds root line before inside last final where
  toTends := left.toTends.trans right.toTends
  grows := left.grows.trans right.grows
  spares := by
    intro lead step place isInside listed travelled off
    obtain ⟨found, travelledLater, like⟩ := left.grows.travel? closed known
      (guards_of_listed fun step member => listed (List.mem_append_left _ member))
      (Value.Like.refl root) travelled rfl
    rw [like.eq_of_object rfl] at travelledLater
    rw [right.spares (left.grown isInside) listed travelledLater off,
      left.spares isInside listed travelled off]

/-- What alters only slots that steps at the end of a trail pass proceeds along it. -/
theorem of_alters (fenced : garden.Fenced) (stands : garden.Stands before inside)
    (tends : garden.Tends before inside after later) (grows : before.Grows garden.keys after)
    (stem : before.Stem garden.keys garden.around inside root) {found : Value}
    (travelled : before.travel? root trail = some found) (like : Value.Like target found)
    (listed : trail ++ steps ⊆ garden.steps) (begins : trail ++ steps <+: line)
    (alters : before.Alters (before.Passes target steps) after) :
    garden.Proceeds root line before inside after later where
  toTends := tends
  grows := grows
  spares := by
    intro lead step place isInside listedLead toPlace off
    by_contra differs
    rcases alters.own (stands.forest.known isInside) differs with
      ⟨first, passed, rest, rfl, toFirst, sameKey⟩ | ⟨isLength, _⟩
    · -- The slot is on the trail, and the way to it is the only one.
      obtain ⟨other, toOther, likeOther⟩ := travel?_of_like before like toFirst
      rw [likeOther.eq_of_object rfl] at toOther
      have toTrail : before.travel? root (trail ++ first) = some (.object place) := by
        rw [travel?_append, travelled, Option.bind_some, toOther]
      have sameWay := stem.unique stands.forest (stands.surrounds fenced) isInside
        (named_of_listed fun step member => listedLead (List.mem_append_left _ member))
        (named_of_listed fun step member => listed (by
          rcases List.mem_append.1 member with isTrail | isFirst
          · exact List.mem_append_left _ isTrail
          · exact List.mem_append_right _ (List.mem_append_left _ isFirst))) toPlace toTrail
      refine off (List.IsPrefix.trans ?_ (begins.map Step.key))
      rw [List.map_append, sameWay, List.map_singleton, ← sameKey, ← List.map_singleton,
        ← List.map_append, List.append_assoc]
      exact List.IsPrefix.map Step.key ⟨rest, by simp⟩
    · refine fenced.noLength ?_
      rw [← isLength]
      exact List.mem_map_of_mem (listedLead (by simp))

end Proceeds

/-! ## Whole walks -/

/-- A value that a walk along a trail has come to: it belongs to the trees, and the trail leads to
it. -/
structure Along (garden : Garden) (graph : Graph) (inside : Nat → Prop) (root : Value)
    (trail : List Step) (target : Value) : Prop where
  belongs : Belongs garden.around inside target
  way : ∃ found, graph.travel? root trail = some found ∧ Value.Like target found

theorem Along.onward {trail steps : List Step} (along : garden.Along graph inside root trail target)
    (fenced : garden.Fenced) (stands : garden.Stands graph inside) (listed : steps ⊆ garden.steps)
    (travelled : graph.travel? target steps = some content) :
    garden.Along graph inside root (trail ++ steps) content where
  belongs := along.belongs.travel stands.forest (stands.surrounds fenced) (named_of_listed listed)
    travelled
  way := by
    obtain ⟨found, toFound, like⟩ := along.way
    obtain ⟨last, toLast, likeLast⟩ := travel?_of_like graph like travelled
    exact ⟨last, by rw [travel?_append, toFound, Option.bind_some, toLast], likeLast⟩

/-- A value is come to along its trail later too. -/
theorem Along.still {trail : List Step} (along : garden.Along before inside root trail target)
    (tends : garden.Tends before inside after later) (grows : before.Grows garden.keys after)
    (closed : before.Closed) (known : before.Knows root) (listed : trail ⊆ garden.steps)
    (present : target.isMissing = false) : garden.Along after later root trail target where
  belongs := along.belongs.mono fun _ => tends.grown
  way := by
    obtain ⟨found, toFound, like⟩ := along.way
    obtain ⟨other, toOther, likeOther⟩ := grows.travel? closed known (guards_of_listed listed)
      (Value.Like.refl root) toFound (like.isMissing.trans present)
    exact ⟨other, toOther, like.trans likeOther⟩

section Walks

variable {origin : Graph} {supply : Factory} {arguments : Option ArgumentMap}
  (fenced : garden.Fenced)
  (supplies : (garden.scene origin).Supplies 0 supply arguments)
  (provides : ∀ {graph : Graph} {inside : Nat → Prop} {type : Value},
    (garden.scene origin).Holds graph → garden.Stands graph inside → graph.Requested type →
      Ensures (supply type arguments) graph
        (fun made after => garden.Yields graph inside made after) fun _ _ => True)
include fenced supplies provides

/-- A walk along a line proceeds along it and comes to what belongs to the trees. -/
theorem track_proceeds (path : Path) (line : List Step) {trail : List Step} {nodes : List Node}
    (plainNodes : ∀ node ∈ nodes, node.isPlain = true)
    (listed : trail ++ stepsOf resolver nodes ⊆ garden.steps)
    (begins : trail ++ stepsOf resolver nodes <+: line) (index : Nat) (attached : Bool)
    {world : World} (quiet : world.Quiet) (holds : (garden.scene origin).Holds world.graph)
    (stands : garden.Stands world.graph inside)
    (stem : world.graph.Stem garden.keys garden.around inside root)
    (along : garden.Along world.graph inside root trail target) (present : target.isMissing = false) :
    Ensures (track path resolver ⟨arguments, some supply⟩ index (.onValue target) attached nodes)
      world
      (fun arrival after => ∃ later,
        garden.Proceeds root line world.graph inside after.graph later ∧
        ∀ value inPlace, arrival = .arrived (.onValue value) inPlace →
          garden.Along after.graph later root (trail ++ stepsOf resolver nodes) value)
      fun _ _ => True := by
  -- Induction on the nodes. The trail grows by the steps of a node, be its value found or filled
  -- in.
  induction nodes generalizing target index attached world trail inside with
  | nil =>
      refine ⟨inside, .refl stands, ?_⟩
      rintro value inPlace ⟨⟩
      rw [show stepsOf resolver [] = [] from rfl, List.append_nil]
      exact along
  | cons node rest inductionHypothesis =>
      have plainNode := plainNodes node (List.mem_cons_self ..)
      have plainRest : ∀ other ∈ rest, other.isPlain = true :=
        fun other member => plainNodes other (List.mem_cons_of_mem node member)
      rw [stepsOf_cons, ← List.append_assoc] at listed begins
      simp only [stepsOf_cons, ← List.append_assoc]
      have listedTrail : trail ++ node.steps resolver ⊆ garden.steps :=
        fun step member => listed (List.mem_append_left _ member)
      have listedNode : node.steps resolver ⊆ garden.steps :=
        fun step member => listedTrail (List.mem_append_right _ member)
      have beginsTrail : trail ++ node.steps resolver <+: line :=
        (List.prefix_append ..).trans begins
      have within := within_of_listed listedNode
      have sound := stands.sound
      have closed := sound.toClosed
      have plain : world.graph.Plain (garden.scene origin).keys 0 target :=
        stands.plain fenced along.belongs
      refine Scene.track_cons plainNode within sound present plain (fun _ => trivial) ?_ ?_
      · intro content travelled presentNext
        exact inductionHypothesis plainRest listed begins (index + 1) attached quiet holds stands stem
          (along.onward fenced stands listedNode travelled) presentNext
      · intro content travelled missing
        have entry := stands.entry fenced holds along.belongs present
        have fillsIn := Scene.fill_ensures supplies entry plainNode within travelled missing
        have tends := fill_tends fenced supplies provides holds stands along.belongs present plainNode
          listedNode travelled missing
        have alters := Scene.fill_alters supplies entry plainNode within travelled missing
        refine Ensures.mono (Ensures.and fillsIn (Ensures.and tends alters)) ?_ fun _ _ _ => trivial
        rintro filling graph ⟨⟨kept, fillsIn⟩, ⟨middle, tends, isFilled⟩, alters⟩
        cases filling with
        -- The factory of a garden always has a value to give.
        | refused type => exact absurd trivial fillsIn.2
        | filled type made inPlace =>
            obtain ⟨isType, fills⟩ := fillsIn
            have isInPlace : inPlace = true := by
              by_contra lost
              exact (fills.lost (by simpa using lost)).1 trivial
            have known := stands.knows fenced stem.belongs
            have alongMade : garden.Along graph middle root (trail ++ node.steps resolver) made :=
              (along.still tends kept.grows closed known
                (fun step member => listedTrail (List.mem_append_left _ member)) present).onward fenced
                tends.stands listedNode (fills.way isInPlace (guards_of_listed listedNode))
            obtain ⟨found, toFound, like⟩ := along.way
            have proceeds := Proceeds.of_alters fenced stands tends kept.grows stem toFound like
              listedTrail beginsTrail alters
            have quietFilled : World.Quiet { world with graph := graph } := quiet
            refine Ensures.bind_weaker (reportFilled_ensures index node made quietFilled
              kept.holds.sound isType) (fun _ _ _ => trivial) ?_
            rintro _ reported goesOn
            obtain rfl : reported.graph = graph := goesOn.1
            refine (inductionHypothesis plainRest listed begins (index + 1) (attached && inPlace)
              (goesOn.2.quiet quietFilled) kept.holds proceeds.stands
              (proceeds.toTends.stem stands stem) alongMade fills.present).mono ?_
              fun _ _ _ => trivial
            rintro arrival last ⟨final, onward, comes⟩
            exact ⟨final, proceeds.trans onward closed known, comes⟩

/-- A write proceeds along the steps of its path up to the holder of the last slot, which belongs
to the trees. -/
theorem destination_proceeds {path : Path} (plainPath : path.IsPlain) {world : World}
    (listed : path.steps (path.resolverIn world) ⊆ garden.steps) (quiet : world.Quiet)
    (holds : (garden.scene origin).Holds world.graph) (stands : garden.Stands world.graph inside)
    (stem : world.graph.Stem garden.keys garden.around inside root)
    (present : root.isMissing = false) :
    Ensures (Session.approach path (.onValue root) arguments supply) world
      (fun destination after => ∀ holder attached, destination = .reached holder attached →
        ∃ later, garden.Proceeds root (path.steps (path.resolverIn world)) world.graph inside
          after.graph later ∧ Belongs garden.around later holder)
      fun _ _ => True := by
  have known := stands.knows fenced stem.belongs
  rw [Path.steps_eq_append] at listed
  have listedFirst : stepsOf (path.resolverIn world) path.nodes.dropLast ⊆ garden.steps :=
    fun step member => listed (List.mem_append_left _ member)
  have listedLast : path.lastNode.steps (path.resolverIn world) ⊆ garden.steps :=
    fun step member => listed (List.mem_append_right _ member)
  unfold Session.approach
  refine Ensures.ok_bind (resolverOf_eq path world) ?_
  -- The walk starts on an empty trail; the last node adds its leading steps.
  have starts : garden.Along world.graph inside root [] root :=
    ⟨stem.belongs, root, rfl, Value.Like.refl root⟩
  have tracks := Scene.track_ensures path plainPath.dropLast (within_of_listed listedFirst) supplies
    0 true quiet holds (Nat.zero_le _) known present (stands.plain fenced stem.belongs)
  have proceeds := track_proceeds fenced supplies provides path (path.steps (path.resolverIn world))
    plainPath.dropLast listedFirst (by rw [Path.steps_eq_append]; exact List.prefix_append ..) 0 true
    quiet holds stands stem starts present
  refine Ensures.bind_weaker (Ensures.and tracks proceeds) (fun _ _ _ => trivial) ?_
  rintro arrival middle ⟨⟨onward, ends⟩, later, proceeds, comesAlong⟩
  cases arrival with
  | stopped index type => rintro _ _ ⟨⟩
  | arrived position inPlace =>
      obtain ⟨value, rfl, comes⟩ := ends
      have along := comesAlong value inPlace rfl
      have entry := proceeds.stands.entry fenced onward.kept.holds along.belongs comes.present
      refine Ensures.ok_bind (resolverOf_eq path middle) ?_
      rw [onward.advances.resolver]
      have arrives := Scene.approach_ensures supplies entry plainPath.lastNode
        (within_of_listed listedLast)
      have tends := approach_tends fenced supplies provides onward.kept.holds proceeds.stands
        along.belongs comes.present plainPath.lastNode listedLast
      have alters := Scene.approach_alters supplies entry plainPath.lastNode
        (within_of_listed listedLast)
      refine Ensures.bind_weaker (onGraph_ensures (Ensures.and arrives (Ensures.and tends alters)))
        (fun _ _ _ => trivial) ?_
      rintro arrival after ⟨_, arrives, ⟨final, tends, isHolder⟩, alters⟩
      cases arrival with
      | refused => rintro _ _ ⟨⟩
      | reached holder inPlaceLast =>
          rintro _ _ ⟨⟩
          obtain ⟨found, toFound, like⟩ := along.way
          have upTo : stepsOf (path.resolverIn world) path.nodes.dropLast ++
              path.lastNode.leading (path.resolverIn world) <+:
                path.steps (path.resolverIn world) := by
            rw [Path.steps_eq]
            exact List.prefix_append ..
          refine ⟨final, proceeds.trans (.of_alters fenced proceeds.stands tends arrives.1.grows
            (proceeds.toTends.stem stands stem) toFound like ?_ upTo alters)
            stands.sound.toClosed known, isHolder holder inPlaceLast rfl⟩
          rw [← Path.steps_eq_append] at listed
          exact fun step member => listed (upTo.subset member)

end Walks

end Garden

end ObjectPath
