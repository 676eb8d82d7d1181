import ObjectPath.Proofs.Nodes
import ObjectPath.Proofs.Course

/-!
# Values that are filled in

Whatever an evaluation fills in suits its slot: the type that a factory is asked for is that of
the slot, and where an array is asked for in place of anything, its elements may be anything.
So the values that are there stay typed, together with the new ones, after every step and also
if a step fails.  The induction over a node carries the type of the slot that its write comes to.
-/

namespace ObjectPath

open Graph

/-! ## Requests for arrays -/

/-- An array that is asked for in place of a value of some type suits that type. -/
theorem Run.requestedArray_gives {graph : Graph} (sound : graph.Sound) (type : Value) :
    Ensures (Run.requestedArray type) graph
      (fun request after => after.componentType request = after.componentType type ∧
        (type = openType ∨ request = type))
      fun _ _ => True := by
  unfold Run.requestedArray
  split
  · rename_i isOpen
    refine (Run.arrayOf_ensures sound (Or.inl sound.openType)).mono ?_ fun _ _ _ => trivial
    rintro request after ⟨_, soundAfter, isArrayType, place, rfl, entered⟩
    refine ⟨?_, Or.inl isOpen⟩
    rw [isOpen, soundAfter.componentType_openType, componentType, isArrayType, if_pos rfl,
      (soundAfter.arrayTypes entered).2]
  · exact ⟨rfl, Or.inr rfl⟩

theorem Typing.Suits.of_request {typing : Typing} {graph : Graph} {request type value : Value}
    (suits : typing.Suits graph request value)
    (component : graph.componentType request = graph.componentType type)
    (same : type = openType ∨ request = type) : typing.Suits graph type value := by
  rcases suits with missing | ⟨takes, items⟩
  · exact .of_isMissing missing
  · refine Or.inr ⟨?_, fun place isPlace isArray => (items place isPlace isArray).trans component⟩
    rcases same with rfl | rfl
    · exact if_pos rfl
    · exact takes

/-! ## Factories -/

/-- What a factory is asked for comes from the factory: a fault is only reported otherwise. -/
theorem ok_of_produce {supply : Factory} {type made : Value} {arguments : Option ArgumentMap}
    {graph after : Graph} (ended : produce supply type arguments graph = .ok made after) :
    supply type arguments graph = .ok made after := by
  cases supplied : supply type arguments graph with
  | ok value later => exact (tryCatch_of_ok supplied).symm.trans ended
  | error fault later =>
      have failed := (tryCatch_of_error supplied).symm.trans ended
      split at failed
      · cases failed
      · obtain ⟨_, _, _, reported⟩ := ok_of_bind failed
        obtain ⟨_, _, _, thrown⟩ := ok_of_bind reported
        cases thrown

/-! ## Stages of an evaluation -/

namespace Scene

open Session

/-- An evaluation has come to a graph in which the values that were there at the start are typed,
together with those that it has made. -/
structure Stage (scene : Scene) (steps : List Step) (base : Typing) (graph : Graph)
    (typing : Typing) : Prop where
  holds : scene.Holds graph
  typed : graph.Typed steps (fun _ => False) typing
  since : base.Continues scene.start graph typing

/-- An evaluation that goes on from one stage comes to another. -/
def Unfolds (scene : Scene) (steps : List Step) (base : Typing) (before : Graph) (typing : Typing)
    (after : Graph) (comes : Typing → Prop) : Prop :=
  ∃ later, scene.Stage steps base after later ∧ typing.Continues before after later ∧ comes later

/-- A factory whose values join those that are there. -/
def Provides (scene : Scene) (steps : List Step) (base : Typing) (supply : Factory)
    (arguments : Option ArgumentMap) : Prop :=
  ∀ {graph : Graph} {typing : Typing} {type : Value}, scene.Stage steps base graph typing →
    graph.Requested type →
      Ensures (supply type arguments) graph
        (fun made after => typing.Provides graph steps type made after) fun _ _ => True

variable {scene : Scene} {steps : List Step} {base typing : Typing} {graph after : Graph}

theorem Stage.unfolds (stage : scene.Stage steps base graph typing) {comes : Typing → Prop}
    (has : comes typing) : scene.Unfolds steps base graph typing graph comes :=
  ⟨typing, stage, .refl graph typing, has⟩

theorem Stage.next (stage : scene.Stage steps base graph typing) (soundStart : scene.start.Sound)
    {later : Typing} (holds : scene.Holds after) (typed : after.Typed steps (fun _ => False) later)
    (continues : typing.Continues graph after later) : scene.Stage steps base after later :=
  ⟨holds, typed, stage.since.trans soundStart continues⟩

theorem Stage.extends (stage : scene.Stage steps base graph typing)
    (soundStart : scene.start.Sound) (extends_ : graph.Extends after) (sound : after.Sound) :
    scene.Stage steps base after typing :=
  stage.next soundStart (stage.holds.extends extends_ sound)
    (stage.typed.extends stage.holds.sound extends_)
    (.of_extends stage.holds.sound extends_ typing)

theorem Unfolds.prepend {middle : Graph} {later : Typing} {comes : Typing → Prop}
    (sound : graph.Sound) (continues : typing.Continues graph middle later)
    (unfolds : scene.Unfolds steps base middle later after comes) :
    scene.Unfolds steps base graph typing after comes := by
  obtain ⟨final, stage, onward, has⟩ := unfolds
  exact ⟨final, stage, continues.trans sound onward, has⟩

theorem Unfolds.mono {comes comes' : Typing → Prop}
    (unfolds : scene.Unfolds steps base graph typing after comes)
    (weaker : ∀ later, comes later → comes' later) :
    scene.Unfolds steps base graph typing after comes' := by
  obtain ⟨final, stage, onward, has⟩ := unfolds
  exact ⟨final, stage, onward, weaker final has⟩

/-- The values of a stage are plain data. -/
theorem Stage.plain (stage : scene.Stage steps base graph typing)
    (keys : scene.keys = steps.map Step.key) {value : Value} (isInside : typing.inside value) :
    graph.Plain scene.keys 0 value := by
  refine ⟨typing.inside, ⟨?_, stage.typed.like, fun _ => Nat.zero_le _⟩, isInside⟩
  intro value key isInside present named
  obtain ⟨content, looked, isInsideContent | ⟨⟨⟩, _⟩⟩ :=
    stage.typed.looked isInside present (Or.inl (keys ▸ named))
  exact ⟨content, looked, isInsideContent⟩

theorem Stage.entry (stage : scene.Stage steps base graph typing)
    (keys : scene.keys = steps.map Step.key) {value : Value} (isInside : typing.inside value)
    (present : value.isMissing = false) : scene.Entry 0 graph graph value :=
  .at_once stage.holds (Nat.zero_le _) (stage.typed.known isInside) present
    (stage.plain keys isInside)

/-! ## Single steps -/

/-- What a factory makes joins the values that are there. -/
theorem produce_unfolds {supply : Factory} {arguments : Option ArgumentMap}
    (supplies : scene.Supplies 0 supply arguments)
    (provides : scene.Provides steps base supply arguments)
    (soundStart : scene.start.Sound) (stage : scene.Stage steps base graph typing) {type : Value}
    (requested : graph.Requested type) :
    Ensures (produce supply type arguments) graph
      (fun made after => scene.Made 0 graph made after ∧
        scene.Unfolds steps base graph typing after fun later => made.isMissing = false →
          later.inside made ∧ later.Suits after type made)
      fun _ after => scene.Unfolds steps base graph typing after fun _ => True := by
  have provided : Ensures (produce supply type arguments) graph
      (fun made after => typing.Provides graph steps type made after) fun _ _ => True := by
    unfold Ensures
    split
    · rename_i made later ended
      exact (provides stage requested).ok (ok_of_produce ended)
    · trivial
  refine (Ensures.and (produce_ensures supplies stage.holds (Nat.zero_le _) requested)
    provided).mono ?_ ?_
  · rintro made after ⟨made_, later, continues, typed, joins⟩
    exact ⟨made_, later, stage.next soundStart (stage.holds.extends made_.extends_ made_.sound)
      typed continues, continues, joins⟩
  · rintro _ after ⟨⟨extends_, sound⟩, _⟩
    exact ⟨typing, stage.extends soundStart extends_ sound,
      .of_extends stage.holds.sound extends_ typing, trivial⟩

/-- A value that suits the slot of a node is stored there, and everything stays typed. -/
theorem settle_typed (sound : graph.Sound) (typed : graph.Typed steps (fun _ => False) typing)
    (lettered : graph.Lettered steps) {resolver : Resolver} {node : Node}
    (plainNode : node.isPlain = true) (listed : node.final resolver ∈ steps)
    {holder made : Value} (isInsideHolder : typing.inside holder)
    (presentHolder : holder.isMissing = false) (isInside : typing.inside made)
    (suits : graph.Names steps holder (node.final resolver) →
      typing.Suits graph (typing.stepType graph holder (node.final resolver)) made)
    (notLength : graph.isLength holder (node.final resolver).key = false)
    (noClass : (node.final resolver).key ∉ classKeys)
    (lacks : (node.final resolver).key = .name "componentType" →
      graph.Lacks holder (node.final resolver).key) :
    Ensures (node.settle resolver holder made) graph
      (fun _ after => after.Typed steps (fun _ => False) typing ∧
        typing.Continues graph after typing)
      fun _ after => after = graph := by
  obtain ⟨content, looked, _⟩ := typed.looked isInsideHolder presentHolder
    (Or.inl (List.mem_map_of_mem listed))
  refine (Node.settle_ensures sound made plainNode looked notLength).mono ?_ fun _ _ => id
  rintro _ after ⟨place, rfl, accepts, rfl⟩
  have names : graph.Names steps (.object place) (node.final resolver) := by
    cases isStep : node.final resolver with
    | field name => exact Or.inl (isStep ▸ listed)
    | element index => exact accepts.array index isStep
  have same := sameTypes_store accepts.slot (typed.known isInside) noClass
    (sound.sparesComponents_of_lacks lacks)
  exact ⟨typed.store sound lettered accepts.slot isInsideHolder names isInside (suits names) same,
    .store accepts.slot isInsideHolder same⟩

/-! ## Going to a holder -/

/-- The write of a node has come to a holder whose slot is asked for the type of the node. -/
def ComesTo (steps : List Step) (before : Graph) (resolver : Resolver) (target : Value)
    (node : Node) (after : Graph) (later : Typing) : Arrival → Prop
  | .refused => True
  | .reached holder _ => later.inside holder ∧
      ∃ type, node.typeOn? before resolver target = some type ∧
        (after.Names steps holder (node.final resolver) →
          later.stepType after holder (node.final resolver) = type)

theorem within_of_subset (keys : scene.keys = steps.map Step.key) {resolver : Resolver}
    {node : Node} (listed : node.steps resolver ⊆ steps) :
    Within scene.keys (node.steps resolver) := by
  intro step member
  rw [keys]
  exact List.mem_map_of_mem (listed member)

/-- Once the write of a node has come to a holder, storing what was made for the node keeps
everything typed. -/
theorem Stage.settles (stage : scene.Stage steps base graph typing)
    (soundStart : scene.start.Sound) (lettered : scene.start.Lettered steps)
    (keys : scene.keys = steps.map Step.key) {resolver : Resolver} {target : Value} {node : Node}
    (plainNode : node.isPlain = true) (listed : node.steps resolver ⊆ steps)
    (isInside : typing.inside target) {content type made holder : Value} {attached : Bool}
    (travelled : graph.travel? target (node.steps resolver) = some content)
    (missing : content.isMissing = true) (isInsideMade : typing.inside made)
    (suits : typing.Suits graph type made)
    (hasType : node.typeOn? graph resolver target = some type)
    (calm : ∀ key ∈ scene.guarded, graph.isCallable made = false)
    (arrives : scene.Arrives 0 graph graph target resolver node (.reached holder attached) after)
    (unfolds : scene.Unfolds steps base graph typing after fun later =>
      ComesTo steps graph resolver target node after later (.reached holder attached)) :
    Ensures (node.settle resolver holder made) after
      (fun _ final => scene.Unfolds steps base graph typing final fun _ => True)
      fun _ final => scene.Unfolds steps base graph typing final fun _ => True := by
  obtain ⟨kept, reached, vacancy⟩ := arrives
  obtain ⟨later, stageLater, onward, isInsideHolder, holderType, hasHolderType, slotType⟩ := unfolds
  have sound := stage.holds.sound
  have vacant := vacancy content travelled missing
  have knownMade := stage.typed.known isInsideMade
  have knownTarget := stage.typed.known isInside
  rw [hasType] at hasHolderType
  cases hasHolderType
  have knownType := Node.typeOn?_known sound plainNode hasType
  refine Ensures.mono (Ensures.and
    (settle_filled plainNode (within_of_subset keys listed) stage.holds kept
      (kept.grows.knows knownTarget) reached vacant (kept.grows.knows knownMade)
      (kept.plain (Nat.le_refl 0) knownMade (stage.plain keys isInsideMade)) fun key isGuarded =>
        (kept.grows.isCallable knownMade).trans (calm key isGuarded))
    (settle_typed stageLater.holds.sound stageLater.typed
      (stageLater.since.same.lettered soundStart.toClosed lettered) plainNode
      (listed (List.mem_append_right _ (List.mem_singleton_self _))) isInsideHolder reached.present
      (onward.inside isInsideMade) ?_ vacant.isLength reached.opens.not_mem_classKeys ?_)) ?_ ?_
  · intro names
    rw [slotType names]
    exact onward.suits sound.toClosed suits knownType knownMade
  · intro isComponent
    rcases vacant.empty with lacks | ⟨⟨index, isElement⟩, _⟩
    · exact lacks
    · rw [isElement] at isComponent
      exact absurd isComponent (Key.ofIndex_ne_name index
        (show 'c' ∈ "componentType".toList by decide) (by decide))
  · rintro _ final ⟨filled, typed, continues⟩
    exact ⟨later, stageLater.next soundStart filled.kept.holds typed continues,
      onward.trans sound continues, trivial⟩
  · rintro _ final ⟨_, rfl⟩
    exact ⟨later, stageLater, onward, trivial⟩

section Evaluations

variable {supply : Factory} {arguments : Option ArgumentMap} {resolver : Resolver}
  {target : Value}
  (supplies : scene.Supplies 0 supply arguments)
  (provides : scene.Provides steps base supply arguments)
  (soundStart : scene.start.Sound) (lettered : scene.start.Lettered steps)
  (keys : scene.keys = steps.map Step.key)

include supplies provides soundStart lettered keys

theorem approach_unfolds (stage : scene.Stage steps base graph typing)
    (isInside : typing.inside target) (present : target.isMissing = false) {node : Node}
    (plainNode : node.isPlain = true) (rooted : node.isRooted = true)
    (listed : node.steps resolver ⊆ steps) :
    Ensures (node.approach resolver arguments (some supply) (.onValue target)) graph
      (fun arrival after => scene.Unfolds steps base graph typing after fun later =>
        ComesTo steps graph resolver target node after later arrival)
      fun _ after => scene.Unfolds steps base graph typing after fun _ => True := by
  induction node, plainNode using Node.plainInduction generalizing graph typing with
  | field serial name =>
      have isListed : Step.field (resolver.actualName name) ∈ steps :=
        listed (by simp [Node.steps, Node.final, Node.leading])
      have named : (Step.field (resolver.actualName name)).key ∈ scene.keys := by
        rw [keys]
        exact List.mem_map_of_mem isListed
      have looks : True →
          (graph.look? target (.ofText (resolver.actualName name))).isSome = true := by
        intro _
        obtain ⟨content, looked, _⟩ := (stage.plain keys isInside).look? present named
        rw [show graph.look? target (.ofText (resolver.actualName name)) = some content from looked]
        rfl
      refine ((Node.fieldAt_answers stage.holds.sound.toClassed present
        (fun _ => stage.holds.sound) looks).peeks trivial).ensures_bind ?_
        fun _ => stage.unfolds trivial
      intro field isField
      refine stage.unfolds ⟨isInside, field.type, ?_, fun _ => (field?_type isField).symm⟩
      rw [Node.typeOn?, isField]
      rfl
  | element serial text index => cases rooted
  | nested serial text index inner plainInner inductionHypothesis =>
      have parts : (Node.array serial text index (some inner)).steps resolver =
          inner.steps resolver ++ [.element index] := rfl
      rw [parts] at listed
      have listedInner : inner.steps resolver ⊆ steps :=
        fun step member => listed (List.mem_append_left _ member)
      have within := within_of_subset keys listedInner
      have sound := stage.holds.sound
      have plain := stage.plain keys isInside
      unfold Node.approach
      refine ((Node.read_answers sound.toClassed present arguments plainInner within).peeks
        ⟨sound, plain⟩).ensures_bind ?_ fun _ => stage.unfolds trivial
      intro array travelled
      split
      case isFalse there =>
        -- The array is there: it suits the type of the inner node.
        have presentArray : array.isMissing = false := by simpa using there
        obtain ⟨innerType, hasInner⟩ :=
          Option.isSome_iff_exists.1 (Node.typeOn?_isSome plainInner present travelled)
        obtain ⟨suits, isInsideArray⟩ := stage.typed.travel_suits isInside present plainInner rooted
          listedInner travelled hasInner
        refine stage.unfolds ⟨isInsideArray presentArray, graph.componentType innerType, ?_,
          fun isArray => suits.stepType_element presentArray isArray index⟩
        rw [Node.typeOn?, hasInner]
        rfl
      case isTrue missing =>
        refine (Node.typeAt_gives sound present plain arguments plainInner within).ensures_bind ?_
          fun _ => stage.unfolds trivial
        rintro type ⟨requested, hasInner⟩
        have knownType := (sound.isType requested).knows
        refine Ensures.bind_of_never (Ensures.mono (Ensures.and
          (Run.requestedArray_ensures sound requested) (Run.requestedArray_gives sound type))
          (fun _ _ => id) fun _ _ never => never.1) ?_
        rintro request asked ⟨⟨sinceAsked, soundAsked, requestedAsked⟩, component, sameRequest⟩
        have continuesAsked := Typing.Continues.of_extends sound sinceAsked typing
        have stageAsked := stage.extends soundStart sinceAsked soundAsked
        refine Ensures.bind_weaker (produce_unfolds supplies provides soundStart stageAsked
          requestedAsked) (fun _ _ => .prepend sound continuesAsked) ?_
        rintro made produced ⟨made_, middle, stageMade, continuesMade, joins⟩
        have continues := continuesAsked.trans sound continuesMade
        split
        case isTrue => exact ⟨middle, stageMade, continues, trivial⟩
        case isFalse there =>
          have presentMade : made.isMissing = false := by simpa using there
          obtain ⟨isInsideMade, suitsRequest⟩ := joins presentMade
          have sameProduced := continuesMade.same
          have knownRequest := (soundAsked.isType requestedAsked).knows
          have componentMade : produced.componentType request = graph.componentType type := by
            rw [sameProduced.componentType soundAsked.toClosed knownRequest, component,
              continuesAsked.same.componentType sound.toClosed knownType]
          have suits : middle.Suits produced type made := suitsRequest.of_request
            (componentMade.trans (continues.same.componentType sound.toClosed knownType).symm)
            sameRequest
          have knownMade := stageMade.typed.known isInsideMade
          have isInsideTarget := continues.inside isInside
          obtain ⟨laterType, hasLater⟩ := Option.isSome_iff_exists.1 (Node.typeOn?_isSome
            plainInner present ((sinceAsked.trans made_.extends_).travel?_of_some sound.toClosed
              (stage.typed.known isInside) travelled))
          have sameType := Node.typeOn?_later continues.same sound (stage.typed.known isInside)
            plainInner hasInner hasLater
          rw [sameType] at hasLater
          -- Whatever is stored on the way, the new array keeps the type of its elements.
          have comes : ∀ {after final}, middle.Continues produced after final →
              ∀ attached, ComesTo steps graph resolver target
                (.array serial text index (some inner)) after final (.reached made attached) := by
            intro after final onward attached
            refine ⟨onward.inside isInsideMade, graph.componentType type, ?_, fun isArray => ?_⟩
            · rw [Node.typeOn?, hasInner]
              rfl
            · have suitsLater := onward.suits stageMade.holds.sound.toClosed suits
                (continues.same.knows knownType) knownMade
              rw [Node.final, suitsLater.stepType_element presentMade isArray,
                (continues.trans sound onward).same.componentType sound.toClosed knownType]
          have arrives := approach_ensures supplies (stageMade.entry keys isInsideTarget present)
            plainInner within
          have deeper := inductionHypothesis stageMade isInsideTarget rooted listedInner
          refine Ensures.bind_weaker (Ensures.and arrives deeper)
            (fun _ _ both => both.2.prepend sound continues) ?_
          rintro arrival later ⟨arrives, unfolds⟩
          cases arrival with
          | refused =>
              obtain ⟨final, stageFinal, onward, _⟩ := unfolds
              exact ⟨final, stageFinal, continues.trans sound onward, comes onward false⟩
          | reached holder attached =>
              have settles := stageMade.settles soundStart lettered keys plainInner listedInner
                isInsideTarget ((sinceAsked.trans made_.extends_).travel?_of_some sound.toClosed
                  (stage.typed.known isInside) travelled) missing isInsideMade suits hasLater
                made_.calm arrives unfolds
              refine Ensures.bind_weaker settles (fun _ _ => .prepend sound continues) ?_
              rintro _ last ⟨final, stageFinal, onward, _⟩
              exact ⟨final, stageFinal, continues.trans sound onward, comes onward attached⟩

/-- Filling in the missing value of a node keeps everything typed. -/
theorem fill_unfolds (stage : scene.Stage steps base graph typing)
    (isInside : typing.inside target) (present : target.isMissing = false) {node : Node}
    (plainNode : node.isPlain = true) (rooted : node.isRooted = true)
    (listed : node.steps resolver ⊆ steps) {content : Value}
    (travelled : graph.travel? target (node.steps resolver) = some content)
    (missing : content.isMissing = true) :
    Ensures (node.fill resolver arguments supply (.onValue target)) graph
      (fun filling after => scene.Unfolds steps base graph typing after fun later =>
        match filling with
        | .refused _ => True
        | .filled _ made _ => later.inside made)
      fun _ after => scene.Unfolds steps base graph typing after fun _ => True := by
  have within := within_of_subset keys listed
  have sound := stage.holds.sound
  unfold Node.fill
  refine (Node.typeAt_gives sound present (stage.plain keys isInside) arguments plainNode
    within).ensures_bind ?_ fun _ => stage.unfolds trivial
  rintro type ⟨requested, hasType⟩
  refine Ensures.bind (produce_unfolds supplies provides soundStart stage requested) ?_
  rintro made produced ⟨made_, middle, stageMade, continues, joins⟩
  split
  case isTrue => exact ⟨middle, stageMade, continues, trivial⟩
  case isFalse there =>
    obtain ⟨isInsideMade, suits⟩ := joins (by simpa using there)
    have isInsideTarget := continues.inside isInside
    have travelledMade := made_.extends_.travel?_of_some sound.toClosed
      (stage.typed.known isInside) travelled
    obtain ⟨laterType, hasLater⟩ :=
      Option.isSome_iff_exists.1 (Node.typeOn?_isSome plainNode present travelledMade)
    rw [Node.typeOn?_later continues.same sound (stage.typed.known isInside) plainNode hasType
      hasLater] at hasLater
    have arrives := approach_ensures supplies (stageMade.entry keys isInsideTarget present) plainNode
      within
    have approaches := approach_unfolds supplies provides soundStart lettered keys stageMade
      isInsideTarget present plainNode rooted listed
    refine Ensures.bind_weaker (Ensures.and arrives approaches)
      (fun _ _ both => both.2.prepend sound continues) ?_
    rintro arrival later ⟨arrives, unfolds⟩
    cases arrival with
    | refused => exact unfolds.prepend sound continues
    | reached holder attached =>
        have settles := stageMade.settles soundStart lettered keys plainNode listed isInsideTarget
          travelledMade missing isInsideMade suits hasLater made_.calm arrives unfolds
        refine Ensures.bind_weaker settles (fun _ _ => .prepend sound continues) ?_
        rintro _ last ⟨final, stageFinal, onward, _⟩
        exact ⟨final, stageFinal, continues.trans sound onward, onward.inside isInsideMade⟩

/-- A walk keeps everything typed, and what it comes to is typed as well. -/
theorem track_unfolds (path : Path) {nodes : List Node}
    (plainNodes : ∀ node ∈ nodes, node.isPlain = true)
    (rooted : ∀ node ∈ nodes, node.isRooted = true) (listed : stepsOf resolver nodes ⊆ steps)
    (index : Nat) (attached : Bool) {world : World} (quiet : world.Quiet)
    (stage : scene.Stage steps base world.graph typing) (isInside : typing.inside target)
    (present : target.isMissing = false) :
    Ensures (track path resolver ⟨arguments, some supply⟩ index (.onValue target) attached nodes)
      world
      (fun arrival later => scene.Unfolds steps base world.graph typing later.graph fun final =>
        ∀ value inPlace, arrival = .arrived (.onValue value) inPlace → final.inside value)
      fun _ later => scene.Unfolds steps base world.graph typing later.graph fun _ => True := by
  -- Induction on the nodes. The typing grows with each value that is filled in.
  induction nodes generalizing typing target index attached world with
  | nil =>
      refine stage.unfolds ?_
      rintro value inPlace ⟨⟩
      exact isInside
  | cons node rest inductionHypothesis =>
      have plainNode := plainNodes node (List.mem_cons_self ..)
      have rootedNode := rooted node (List.mem_cons_self ..)
      have plainRest : ∀ other ∈ rest, other.isPlain = true :=
        fun other member => plainNodes other (List.mem_cons_of_mem node member)
      have rootedRest : ∀ other ∈ rest, other.isRooted = true :=
        fun other member => rooted other (List.mem_cons_of_mem node member)
      rw [stepsOf_cons] at listed
      have listedNode : node.steps resolver ⊆ steps :=
        fun step member => listed (List.mem_append_left _ member)
      have listedRest : stepsOf resolver rest ⊆ steps :=
        fun step member => listed (List.mem_append_right _ member)
      have within := within_of_subset keys listedNode
      have sound := stage.holds.sound
      have plain := stage.plain keys isInside
      refine track_cons plainNode within sound present plain (fun _ => stage.unfolds trivial) ?_ ?_
      · intro content travelled presentNext
        obtain ⟨type, hasType⟩ :=
          Option.isSome_iff_exists.1 (Node.typeOn?_isSome plainNode present travelled)
        exact inductionHypothesis plainRest rootedRest listedRest (index + 1) attached quiet stage
          ((stage.typed.travel_suits isInside present plainNode rootedNode listedNode travelled
            hasType).2 presentNext) presentNext
      · intro content travelled missing
        have fillsIn := fill_ensures supplies (stage.entry keys isInside present) plainNode within
          travelled missing
        have unfolds := fill_unfolds supplies provides soundStart lettered keys stage isInside
          present plainNode rootedNode listedNode travelled missing
        refine Ensures.mono (Ensures.and fillsIn unfolds) ?_ fun _ _ both => both.2
        rintro filling graph ⟨⟨kept, fillsIn⟩, unfolds⟩
        have filled : scene.Onward 0 world { world with graph := graph } := .of_graph kept
        cases filling with
        | refused type =>
            refine unfolds.mono fun _ _ => ?_
            rintro value inPlace ⟨⟩
        | filled type made inPlace =>
            obtain ⟨isType, fills⟩ := fillsIn
            obtain ⟨middle, stageFilled, continues, isInsideMade⟩ := unfolds
            refine Ensures.bind_weaker (reportFilled_ensures index node made
              (filled.advances.quiet quiet) kept.holds.sound isType) ?_ ?_
            · rintro _ reported goesOn
              obtain rfl : reported.graph = graph := goesOn.1
              exact ⟨middle, stageFilled, continues, trivial⟩
            · rintro _ reported goesOn
              obtain rfl : reported.graph = graph := goesOn.1
              have quietReported := (filled.report goesOn).advances.quiet quiet
              exact (inductionHypothesis plainRest rootedRest listedRest (index + 1)
                (attached && inPlace) quietReported stageFilled isInsideMade fills.present).mono
                (fun _ _ => .prepend sound continues) fun _ _ => .prepend sound continues

end Evaluations

end Scene

end ObjectPath
