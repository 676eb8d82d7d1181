import ObjectPath.Proofs.Levels

/-!
# Arrays that a write makes

A write through a node whose arrays are missing from some level on makes the missing ones.  Each is
asked for by its own type, from the innermost one outwards; all of that happens while what was there
is still as it was.  Then the new arrays are put into each other, from the outermost one inwards.  So
the arrays that were there stay as they are, save for the slot that the first new one is put into.
-/

namespace ObjectPath

open Graph

/-! ## Factories that keep a record -/

/-- How the variables of scripts keep a record of the types that a factory is asked for. -/
abbrev Recording :=
  List (String × Value) → Value → List (String × Value)

/-- The graph with a type on record. -/
def Graph.recording (graph : Graph) (note : Recording) (type : Value) : Graph :=
  { graph with valueNames := note graph.valueNames type }

/-- A factory that records what it is asked for and gives new empty arrays. -/
def recorder (note : Recording) : Factory := fun type _ => do
  modify (·.recording note type)
  Run.newArray []

theorem produce_recorder (note : Recording) (type : Value) (arguments : Option ArgumentMap)
    (graph : Graph) :
    produce (recorder note) type arguments graph =
      .ok (.object graph.objects.size) (graph.recording note type).withArray :=
  tryCatch_of_ok rfl

namespace Graph

theorem extends_recording (graph : Graph) (note : Recording) (type : Value) :
    graph.Extends (graph.recording note type) :=
  ⟨Nat.le_refl _, fun _ => rfl, rfl⟩

theorem Closed.recording {graph : Graph} (closed : graph.Closed) (note : Recording)
    (type : Value) : (graph.recording note type).Closed :=
  closed.of_size_eq (extends_recording graph note type) rfl

/-- Between two graphs, new arrays within each other were put into a slot down to a value.  The other
slots of the objects that were there are as they were, and the types that were asked for are on
record. -/
structure Deepens (note : Recording) (before later : Graph) (holder : Value) (key : Key)
    (indices : List Nat) (value : Value) (requests : List Value) : Prop where
  chained : later.Chained before.objects.size later.objects.size holder key indices value
  kept : ∃ first flags, later.own? holder key = some (.data first flags) ∧
    (before.store holder key first).Extends later
  noted : later.valueNames = requests.foldl note before.valueNames

end Graph

/-! ## One level more -/

namespace Graph

variable {graph later : Graph} {place : Nat}

/-- A store into a slot is a chain without arrays. -/
theorem deepens_store (note : Recording) {key : Key} (value : Value)
    (slot : graph.placement (.object place) key = .slot) :
    graph.Deepens note (graph.store (.object place) key value) (.object place) key [] value [] := by
  obtain ⟨flags, _, own⟩ := ownAt?_store_self value slot
  exact ⟨.last own, ⟨value, flags, own, .refl _⟩, rfl⟩

/-- A new array is as it was made, whatever old object was given a slot since. -/
theorem object?_of_stored {holder : Nat} {key : Key} {first : Value}
    (stored : (graph.withArray.store (.object holder) key first).Extends later)
    (inside : holder < graph.objects.size) :
    later.object? graph.objects.size = some (blankObject .array (.items 0 true)) := by
  have below : graph.objects.size < graph.withArray.objects.size := by
    rw [withArray, size_adding]
    omega
  rw [stored.objects (by rwa [size_store]), object?_store, if_neg (by omega)]
  exact object?_adding_self graph _

variable {note : Recording} {holder index : Nat} {key : Key} {indices : List Nat}
  {value request : Value} {requests : List Value}

theorem extends_recording_withArray (graph : Graph) (note : Recording) (request : Value) :
    graph.Extends (graph.recording note request).withArray :=
  (extends_recording graph note request).trans (extends_adding _ _)

/-- A new array can still be given an element when it has been put at the end of a chain. -/
theorem Deepens.vacant
    (deepens : (graph.recording note request).withArray.Deepens note later (.object holder) key
      indices (.object graph.objects.size) requests)
    (closed : graph.Closed) (inside : holder < graph.objects.size)
    (slot : graph.placement (.object holder) key = .slot)
    (free : ∀ property,
      graph.find? (.object BuiltinClass.array.sharedPlace) (.ofIndex index) = some property →
        property.isWritable = true) :
    later.Vacant graph.objects.size (.ofIndex index) := by
  obtain ⟨first, flags, _, stored⟩ := deepens.kept
  have closedNoted := closed.recording note request
  have fresh : (graph.recording note request).withArray.Vacant graph.objects.size
      (.ofIndex index) := by
    refine vacant_withArray closedNoted index fun property found => free property ?_
    rw [← (extends_recording graph note request).find? closed
      (knows_object.2 (closed.shared .array))]
    exact found
  have slotMade : (graph.recording note request).withArray.placement (.object holder) key = .slot :=
    ((extends_recording_withArray graph note request).placement closed (knows_object.2 inside)
      key).trans slot
  refine fresh.of_stored closedNoted.withArray slotMade stored ?_ (by omega)
    (Key.ofIndex_ne_name index (show 'l' ∈ "length".toList by decide) (by decide))
  rw [withArray, size_adding]
  exact Nat.lt_succ_self _

theorem Deepens.object?_last
    (deepens : (graph.recording note request).withArray.Deepens note later (.object holder) key
      indices (.object graph.objects.size) requests)
    (inside : holder < graph.objects.size) :
    later.object? graph.objects.size = some (blankObject .array (.items 0 true)) := by
  obtain ⟨_, _, _, stored⟩ := deepens.kept
  have isObject : later.object? (graph.recording note request).objects.size = _ :=
    object?_of_stored stored inside
  exact isObject

/-- A chain to a new array goes on with the value that is stored in it. -/
theorem Deepens.snoc
    (deepens : (graph.recording note request).withArray.Deepens note later (.object holder) key
      indices (.object graph.objects.size) requests)
    (inside : holder < graph.objects.size) (small : index < Key.indexLimit)
    (vacant : later.Vacant graph.objects.size (.ofIndex index)) :
    graph.Deepens note (later.store (.object graph.objects.size) (.ofIndex index) value)
      (.object holder) key (indices ++ [index]) value (request :: requests) := by
  obtain ⟨first, flags, own, stored⟩ := deepens.kept
  have isObject := deepens.object?_last inside
  have apart : Value.object holder ≠ .object graph.objects.size := by
    intro same
    cases same
    omega
  have isIndex : Key.ofIndex index = .index index := if_pos small
  rw [isIndex] at vacant ⊢
  refine ⟨?chained, ⟨first, flags, (own?_store_of_ne value apart key).trans own, ?kept⟩,
    deepens.noted⟩
  case chained =>
    rw [size_store]
    have empty : later.arrayLength? (.object graph.objects.size) = some 0 := by
      simp only [arrayLength?, objectOf?, Value.place?, Option.bind_some, isObject, blankObject]
    have bare : ∀ other, other ≠ .name "length" →
        later.own? (.object graph.objects.size) other = none := by
      intro other notLength
      rw [own?_of_object? isObject]
      cases isOwn : (blankObject .array (.items 0 true)).own? other with
      | none => rfl
      | some property => exact absurd (Scene.own?_emptyArray _ _ isOwn).1 notLength
    exact deepens.chained.snoc vacant.slot empty bare apart (Nat.le_refl _)
      (by rw [withArray, size_adding]; exact Nat.lt_succ_self _) (lt_of_object? isObject)
  case kept =>
    have grown := extends_recording_withArray graph note request
    exact ((grown.store_both inside key first).trans stored).store (by rw [size_store]) _ _

end Graph

/-! ## Making levels -/

/-- What is asked for at so many levels from a first one on, the innermost level first. -/
def requestsDownTo (requests : Nat → Value) (first : Nat) : Nat → List Value
  | 0 => []
  | count + 1 => requests (first + count) :: requestsDownTo requests first count

section Levels

variable {start graph later : Graph} {resolver : Resolver} {target value : Value} {name : String}
  {key : Key} {field : FieldMember} {before after : List Nat} {depth : Nat}
  {types requests : Nat → Value}

/-- What a node reads is missing if the way to it ends before. -/
theorem Node.read_past_gap (finds : graph.FindsField target (resolver.actualName name) field)
    {content : Value} (travelled : graph.travel? target
      (.field (resolver.actualName name) :: before.map .element) = some content)
    (missing : content.isMissing = true) {node : Node}
    (form : node.form = ⟨.field name, before ++ after⟩) (arguments : Option ArgumentMap) :
    ∃ found, node.read resolver arguments (.onValue target) graph = .ok found graph ∧
      found.isMissing = true := by
  obtain ⟨found, onward, isMissing⟩ := graph.travel?_of_isMissing missing (after.map .element)
  refine ⟨found, read_of_travel? finds form ?_, isMissing⟩
  rw [List.map_append, ← List.cons_append, travel?_append, travelled]
  exact onward

/-- One level more: an array is asked for, is put in the place of the missing one, and is given its
element. -/
theorem Node.write_one_level {arguments : Option ArgumentMap} {note : Recording}
    {position : Position} {serial index holder : Nat} {text : String}
    {inner : Node} {content type request : Value} {rest : List Value}
    (isRead : inner.read resolver arguments position graph = .ok content graph)
    (missing : content.isMissing = true)
    (typed : inner.typeAt resolver arguments position graph = .ok type graph)
    (asked : Run.requestedArray type graph = .ok request graph)
    (written : inner.write resolver arguments (some (recorder note)) position
      (.object graph.objects.size) (graph.recording note request).withArray = .ok true later)
    (deepens : (graph.recording note request).withArray.Deepens note later (.object holder) key after
      (.object graph.objects.size) rest)
    (inside : holder < graph.objects.size)
    (vacant : later.Vacant graph.objects.size (.ofIndex index)) :
    (Node.array serial text index (some inner)).write resolver arguments (some (recorder note))
        position value graph =
      .ok true (later.store (.object graph.objects.size) (.ofIndex index) value) := by
  have isArray : later.isArray (.object graph.objects.size) = true := by
    simp only [isArray, arrayLength?, objectOf?, Value.place?, Option.bind_some,
      deepens.object?_last inside, blankObject]
    rfl
  have stored := storeElement_of_slot text value isArray vacant.slot
  rw [write_of_missing isRead missing typed asked]
  refine (bind_of_ok (produce_recorder note request arguments graph)).trans ?_
  exact (bind_of_ok written).trans ((bind_of_ok stored).trans rfl)

/-- A write through missing levels asks for the types of those levels, from the innermost one
outwards, and makes a chain of new arrays down to the value. -/
theorem Node.write_makes_levels {holder : Nat} (closedStart : start.Closed)
    (finds : start.FindsField target (resolver.actualName name) field)
    (settles : start.Settles depth types requests) (first : types 0 = field.type)
    (gap : start.Gap target (resolver.actualName name) before after (.object holder) key)
    (inside : holder < start.objects.size) (within : (before ++ after).length ≤ depth)
    {node : Node} (form : node.form = ⟨.field name, before ++ after⟩)
    (arguments : Option ArgumentMap) (note : Recording) (value : Value)
    (extends_ : start.Extends graph) (closed : graph.Closed)
    (sameTypes : graph.arrayTypes = start.arrayTypes) :
    ∃ later, node.write resolver arguments (some (recorder note)) (.onValue target) value graph =
        .ok true later ∧
      graph.Deepens note later (.object holder) key after value
        (requestsDownTo requests before.length after.length) ∧
      later.arrayTypes = start.arrayTypes := by
  -- The last index goes first: its array is asked for and made before the inner node is written.
  induction after using List.reverseRecOn generalizing node value graph with
  | nil =>
      rw [List.append_nil] at form
      have gapNow := gap.later extends_ closedStart finds.known
      exact ⟨graph.store (.object holder) key value,
        write_of_arrives (finds.later extends_ closedStart) form gapNow.arrives gapNow.slot,
        deepens_store note value gapNow.slot, sameTypes⟩
  | append_singleton after index inductionHypothesis =>
      rw [← List.append_assoc] at form
      obtain ⟨serial, text, inner, rfl, innerForm⟩ := array_of_form (by simp) form
      simp only [List.length_append, List.length_singleton] at within ⊢
      have below : before.length + after.length < depth := by omega
      -- All that is read and asked comes before the first store, in a graph that only grew.
      have findsNow := finds.later extends_ closedStart
      have gapNow := gap.later extends_ closedStart finds.known
      obtain ⟨content, travelled, isMissing⟩ := gapNow.missing (by simp)
      obtain ⟨found, isRead, missing⟩ := read_past_gap findsNow travelled isMissing innerForm arguments
      have typed := typeAt_of_components findsNow first
        (fun level short => settles.component
          (by rw [List.length_append] at short; omega) extends_) innerForm arguments
      rw [List.length_append] at typed
      have asked := settles.request below extends_ sameTypes
      let request := requests (before.length + after.length)
      obtain ⟨later, written, deepens, sameLater⟩ := inductionHypothesis gap.init
        (by rw [List.length_append]; omega) innerForm (.object graph.objects.size)
        (extends_.trans (extends_recording_withArray graph note request))
        (closed.recording note request).withArray sameTypes
      have insideNow : holder < graph.objects.size := Nat.lt_of_lt_of_le inside extends_.size
      have vacant : later.Vacant graph.objects.size (.ofIndex index) :=
        deepens.vacant closed insideNow gapNow.slot (gapNow.free index (by simp))
      exact ⟨_, write_one_level isRead missing typed asked written deepens insideNow vacant,
        deepens.snoc insideNow (gap.small index (by simp)) vacant, sameLater⟩

end Levels

/-! ## The types that are asked for -/

theorem getElem?_requestsDownTo {requests : Nat → Value} {first count position : Nat}
    {request : Value} (found : (requestsDownTo requests first count)[position]? = some request) :
    position < count ∧ request = requests (first + (count - 1 - position)) := by
  induction count generalizing position with
  | zero => simp [requestsDownTo] at found
  | succ count inductionHypothesis =>
      rw [requestsDownTo] at found
      cases position with
      | zero =>
          cases found
          exact ⟨Nat.succ_pos count, rfl⟩
      | succ position =>
          rw [List.getElem?_cons_succ] at found
          obtain ⟨below, rfl⟩ := inductionHypothesis found
          refine ⟨Nat.succ_lt_succ below, ?_⟩
          rw [show count + 1 - 1 - (position + 1) = count - 1 - position by omega]

theorem length_requestsDownTo (requests : Nat → Value) (first count : Nat) :
    (requestsDownTo requests first count).length = count := by
  induction count with
  | zero => rfl
  | succ count inductionHypothesis =>
      rw [requestsDownTo, List.length_cons, inductionHypothesis]

theorem requestsDownTo_const (request : Value) (first count : Nat) :
    requestsDownTo (fun _ => request) first count = List.replicate count request := by
  induction count with
  | zero => rfl
  | succ count inductionHypothesis =>
      rw [requestsDownTo, inductionHypothesis, List.replicate_succ]

namespace Graph

variable {graph ready later : Graph} {note : Recording} {place : Nat} {key : Key}
  {indices : List Nat} {value : Value} {requests : List Value}

theorem Chained.lower {floor low ceiling : Nat} {holder : Value}
    (chained : graph.Chained floor ceiling holder key indices value) (below : low ≤ floor) :
    graph.Chained low ceiling holder key indices value := by
  induction chained with
  | last own => exact .last own
  | array own high inside only _ inductionHypothesis =>
      exact .array own (Nat.le_trans below high) inside only inductionHypothesis

/-- What was done after new objects were made was done from before on. -/
theorem Deepens.earlier (deepens : ready.Deepens note later (.object place) key indices value requests)
    (extends_ : graph.Extends ready) (sameNames : ready.valueNames = graph.valueNames)
    (inside : place < graph.objects.size) :
    graph.Deepens note later (.object place) key indices value requests := by
  obtain ⟨first, flags, own, stored⟩ := deepens.kept
  exact ⟨deepens.chained.lower extends_.size,
    ⟨first, flags, own, (extends_.store_both inside key first).trans stored⟩,
    sameNames ▸ deepens.noted⟩

end Graph

section Missing

variable {graph ready : Graph} {resolver : Resolver} {target holder : Value} {name : String}
  {key : Key} {field : FieldMember} {before after : List Nat} {node : Node}

/-- Before the first array is asked for by the type of the arrays over the open type, that type is
made if it is not there yet; it makes no difference if it is made before the write. -/
theorem Node.write_ready {index : Nat} {request : Value} (closed : graph.Closed)
    (openClass : graph.isArrayType openType = false)
    (finds : graph.FindsField target (resolver.actualName name) field)
    (isOpen : field.type = openType)
    (gap : graph.Gap target (resolver.actualName name) before (after ++ [index]) holder key)
    (form : node.form = ⟨.field name, before ++ (after ++ [index])⟩) (extends_ : graph.Extends ready)
    (asked : Run.arrayOf openType graph = .ok request ready)
    (again : Run.arrayOf openType ready = .ok request ready)
    (arguments : Option ArgumentMap) (supply : Factory) (value : Value) :
    node.write resolver arguments (some supply) (.onValue target) value graph =
      node.write resolver arguments (some supply) (.onValue target) value ready := by
  rw [← List.append_assoc] at form
  obtain ⟨serial, text, inner, rfl, innerForm⟩ := array_of_form (by simp) form
  have reaches : ∀ {now : Graph}, graph.Extends now →
      Run.arrayOf openType now = .ok request ready →
        (∃ content, inner.read resolver arguments (.onValue target) now = .ok content now ∧
          content.isMissing = true) ∧
        inner.typeAt resolver arguments (.onValue target) now = .ok openType now ∧
        Run.requestedArray openType now = .ok request ready := by
    intro now grown askedNow
    have findsNow := finds.later grown closed
    obtain ⟨content, travelled, missing⟩ :=
      (gap.later grown closed finds.known).missing (by simp)
    exact ⟨read_past_gap findsNow travelled missing innerForm arguments,
      typeAt_of_components findsNow isOpen.symm
        (fun _ _ => Run.componentOf_openType closed openClass grown) innerForm arguments, askedNow⟩
  obtain ⟨⟨_, isRead, missing⟩, typed, request_⟩ := reaches (.refl graph) asked
  obtain ⟨⟨_, isReadReady, missingReady⟩, typedReady, requestReady⟩ := reaches extends_ again
  rw [write_of_missing isRead missing typed request_,
    write_of_missing isReadReady missingReady typedReady requestReady]

/-- An undeclared field asks for arrays over the open type at every level. -/
theorem Node.write_makes_open_levels (closed : graph.Closed)
    (openClass : graph.isArrayType openType = false)
    (finds : graph.FindsField target (resolver.actualName name) field)
    (isOpen : field.type = openType)
    (gap : graph.Gap target (resolver.actualName name) before after holder key)
    (form : node.form = ⟨.field name, before ++ after⟩) (arguments : Option ArgumentMap)
    (note : Recording) (value : Value) :
    ∃ later request,
      node.write resolver arguments (some (recorder note)) (.onValue target) value graph =
          .ok true later ∧
        graph.Deepens note later holder key after value (List.replicate after.length request) ∧
        (after ≠ [] → Run.arrayOf openType later = .ok request later) := by
  obtain ⟨place, rfl, inside⟩ := object_of_slot gap.slot
  rcases List.eq_nil_or_concat after with rfl | ⟨first, index, rfl⟩
  · rw [List.append_nil] at form
    exact ⟨_, .undefined, write_of_arrives finds form gap.arrives gap.slot,
      deepens_store note value gap.slot, fun more => absurd rfl more⟩
  · rw [List.concat_eq_append] at gap form ⊢
    obtain ⟨type, ready, asked, extends_, closedReady, sameNames, entered⟩ :=
      Run.arrayOf_openType closed
    have settles := settles_openType closedReady (extends_.openType_noArrays closed openClass) entered
      (before ++ (first ++ [index])).length
    obtain ⟨later, written, deepens, sameTypes⟩ := write_makes_levels closedReady
      (finds.later extends_ closed) settles isOpen.symm (gap.later extends_ closed finds.known)
      (Nat.lt_of_lt_of_le inside extends_.size) (Nat.le_refl _) form arguments note value
      (.refl ready) closedReady rfl
    rw [requestsDownTo_const] at deepens
    refine ⟨later, .object type, ?_, deepens.earlier extends_ sameNames inside, fun _ => ?_⟩
    · rw [write_ready closed openClass finds isOpen gap form extends_ asked
        (Run.arrayOf_of_entered entered)]
      exact written
    · exact Run.arrayOf_of_entered (by rw [sameTypes, entered])

/-- A field of nested arrays asks for arrays of the types of the missing levels. -/
theorem Node.write_makes_declared_levels {base : Value} {depth : Nat} (closed : graph.Closed)
    (openClass : graph.isArrayType openType = false)
    (finds : graph.FindsField target (resolver.actualName name) field)
    (nest : graph.IsNest base depth field.type) (within : (before ++ after).length ≤ depth)
    (gap : graph.Gap target (resolver.actualName name) before after holder key)
    (form : node.form = ⟨.field name, before ++ after⟩) (arguments : Option ArgumentMap)
    (note : Recording) (value : Value) :
    ∃ later requests,
      node.write resolver arguments (some (recorder note)) (.onValue target) value graph =
          .ok true later ∧
        graph.Deepens note later holder key after value requests ∧
        requests.length = after.length ∧
        ∀ position request, requests[position]? = some request →
          graph.IsNest base (depth - (before ++ after).length + 1 + position) request := by
  obtain ⟨place, rfl, inside⟩ := object_of_slot gap.slot
  obtain ⟨later, written, deepens, _⟩ := write_makes_levels closed finds
    (nest.settles closed openClass within) rfl gap inside (Nat.le_refl _) form arguments note value
    (.refl graph) closed rfl
  refine ⟨later, _, written, deepens, length_requestsDownTo _ _ _, ?_⟩
  intro position request found
  obtain ⟨below, rfl⟩ := getElem?_requestsDownTo found
  rw [List.length_append] at within ⊢
  have level := nest.levelType
    (show before.length + (after.length - 1 - position) ≤ depth by omega)
  rwa [show depth - (before.length + (after.length - 1 - position)) =
    depth - (before.length + after.length) + 1 + position by omega] at level

/-- Missing levels of arrays are made one by one, with the right types.  Of a field whose type is that
of arrays so many levels deep, the types of the missing levels are asked for, from the innermost one
outwards; of an undeclared field it is the type of the arrays over the open type each time.  The new
arrays are chained from the slot below the last array that is there, or from the field itself. -/
theorem Node.missing_levels_are_made (closed : graph.Closed)
    (openClass : graph.isArrayType openType = false)
    (finds : graph.FindsField target (resolver.actualName name) field)
    (gap : graph.Gap target (resolver.actualName name) before after holder key)
    (form : node.form = ⟨.field name, before ++ after⟩) (arguments : Option ArgumentMap)
    (note : Recording) (value : Value) :
    (∀ base depth, graph.IsNest base depth field.type → (before ++ after).length ≤ depth →
      ∃ later requests,
        node.write resolver arguments (some (recorder note)) (.onValue target) value graph =
            .ok true later ∧
          graph.Deepens note later holder key after value requests ∧
          requests.length = after.length ∧
          ∀ position request, requests[position]? = some request →
            graph.IsNest base (depth - (before ++ after).length + 1 + position) request) ∧
      (field.declared = false →
        ∃ later request,
          node.write resolver arguments (some (recorder note)) (.onValue target) value graph =
              .ok true later ∧
            graph.Deepens note later holder key after value (List.replicate after.length request) ∧
            (after ≠ [] → Run.arrayOf openType later = .ok request later)) :=
  ⟨fun _ _ nest within =>
    write_makes_declared_levels closed openClass finds nest within gap form arguments note value,
   fun undeclared =>
    write_makes_open_levels closed openClass finds (field?_undeclared finds.isField undeclared) gap
      form arguments note value⟩

end Missing

/-! ## The cells of a grid -/

theorem Graph.slot_of_writable {graph : Graph} {target : Value} {key : Key}
    (own : (graph.own? target key).map Property.isWritable = some true)
    (notLength : graph.isLength target key = false) : graph.placement target key = .slot := by
  obtain ⟨property, isOwn, writable⟩ := Option.map_eq_some_iff.1 own
  unfold placement
  rw [isOwn]
  cases property with
  | data content flags =>
      have same : flags.writable = true := writable
      simp [same, notLength]
  | accessor => cases writable

/-- The types that are asked for, in order. -/
def inOrder : Recording :=
  fun names type => names ++ [("request", type)]

/-- The cell at the start of the second row of a field. -/
def cellOf (name : String) : Node :=
  .array 2 (name ++ "[1][0]") 0 (some (.array 1 (name ++ "[1]") 1 (some (.field 0 name))))

theorem Graph.gap_gridGraph {name : String}
    (own : (gridGraph.own? emptyGrid (.ofText name)).map Property.isWritable = some true)
    (notLength : gridGraph.isLength emptyGrid (.ofText name) = false)
    (nothing : gridGraph.travel? emptyGrid [.field name] = some .null) :
    gridGraph.Gap emptyGrid name [] [1, 0] emptyGrid (.ofText name) where
  arrives := .field
  slot := slot_of_writable own notLength
  missing := fun _ => ⟨_, nothing, rfl⟩
  small := by decide
  free := by
    intro index member property found
    have absent : ∀ index ∈ [1, 0], (gridGraph.find? (.object BuiltinClass.array.sharedPlace)
        (.ofIndex index)).isNone = true := by decide +kernel
    have nowhere := absent index member
    rw [found] at nowhere
    cases nowhere

theorem Graph.findsField_gridGraph {name : String} {field : FieldMember}
    (isField : gridGraph.field? emptyGrid name = some field) :
    gridGraph.FindsField emptyGrid name field where
  toShowsClass := sound_gridGraph.toClassed.showsClass emptyGrid
  known := knows_object.2 (by decide +kernel)
  present := rfl
  isField := isField

theorem Graph.isNest_gridType : gridGraph.IsNest (.object BuiltinClass.number.place) 2 gridType := by
  have row : gridGraph.IsNest (.object BuiltinClass.number.place) 1
      (.object (gridGraph.objects.size - 3)) :=
    .array .base (Run.arrayOf_of_entered (by decide +kernel)) (by decide +kernel) (by decide +kernel)
  exact .array row (Run.arrayOf_of_entered (by decide +kernel)) (by decide +kernel)
    (by decide +kernel)

/-- The cells of a grid are made with the types of rows and of lists of rows; a slot that is no
declared field is given arrays of the open type. -/
theorem cell_and_free_are_made :
    (∃ later requests,
      (cellOf "cells").write Resolver.standard none (some (recorder inOrder)) (.onValue emptyGrid)
          (.ofNat 5) gridGraph = .ok true later ∧
        gridGraph.Deepens inOrder later emptyGrid (.ofText "cells") [1, 0] (.ofNat 5) requests ∧
        requests.length = 2 ∧
        ∀ position request, requests[position]? = some request →
          gridGraph.IsNest (.object BuiltinClass.number.place) (2 - 2 + 1 + position) request) ∧
      ∃ later request,
        (cellOf "free").write Resolver.standard none (some (recorder inOrder)) (.onValue emptyGrid)
            (.ofNat 5) gridGraph = .ok true later ∧
          gridGraph.Deepens inOrder later emptyGrid (.ofText "free") [1, 0] (.ofNat 5)
            [request, request] ∧
          Run.arrayOf openType later = .ok request later := by
  have closed := sound_gridGraph.toClosed
  have openClass : gridGraph.isArrayType openType = false := by decide +kernel
  constructor
  · have typed : (gridGraph.field? emptyGrid "cells").map FieldMember.type = some gridType := by
      decide +kernel
    obtain ⟨field, isField, same⟩ := Option.map_eq_some_iff.1 typed
    have finds : gridGraph.FindsField emptyGrid (Resolver.standard.actualName "cells") field :=
      findsField_gridGraph isField
    have gap : gridGraph.Gap emptyGrid (Resolver.standard.actualName "cells") [] [1, 0] emptyGrid
        (.ofText "cells") :=
      gap_gridGraph (by decide +kernel) (by decide +kernel) (by decide +kernel)
    have nest := isNest_gridType
    rw [← same] at nest
    exact (Node.missing_levels_are_made closed openClass finds gap rfl none inOrder (.ofNat 5)).1 _ 2
      nest (by decide)
  · have undeclared : (gridGraph.field? emptyGrid "free").map FieldMember.declared = some false := by
      decide +kernel
    obtain ⟨field, isField, same⟩ := Option.map_eq_some_iff.1 undeclared
    have finds : gridGraph.FindsField emptyGrid (Resolver.standard.actualName "free") field :=
      findsField_gridGraph isField
    have gap : gridGraph.Gap emptyGrid (Resolver.standard.actualName "free") [] [1, 0] emptyGrid
        (.ofText "free") :=
      gap_gridGraph (by decide +kernel) (by decide +kernel) (by decide +kernel)
    have form : (cellOf "free").form = ⟨.field "free", [] ++ [1, 0]⟩ := rfl
    obtain ⟨later, request, written, deepens, asked⟩ :=
      (Node.missing_levels_are_made closed openClass finds gap form none inOrder (.ofNat 5)).2 same
    exact ⟨later, request, written, deepens, asked (by simp)⟩

/-- The grid when nothing can be written to it. -/
def frozenGraph : Graph :=
  gridGraph.freeze emptyGrid

/-- The standard graph with a record that holds nothing under the name of a builtin. -/
@[irreducible]
def builtinGraph : Graph :=
  stateAfter (Run.newRecord [(.name "constructor", .null)]) Graph.standard

/-- The record that holds nothing under the name of a builtin. -/
def builtinRecord : Value :=
  .object (builtinGraph.objects.size - 1)

/-- The grid among arrays that share an accessor which takes no value. -/
def guardedGraph : Graph :=
  gridGraph.enter (.object BuiltinClass.array.sharedPlace) (.index 0) (.accessor none none false true)

/-- Cells that are null are not always made: the grid may be frozen, a builtin of records is no field,
and new arrays may inherit what takes no element. -/
theorem cells_are_not_made :
    ((frozenGraph.field? emptyGrid "cells").map FieldMember.type = some gridType ∧
      frozenGraph.look? emptyGrid (.ofText "cells") = some .null ∧
      ((cellOf "cells").write Resolver.standard none (some (recorder inOrder)) (.onValue emptyGrid)
        (.ofNat 5)).run' frozenGraph = none) ∧
    (builtinGraph.isPlainRecord builtinRecord = true ∧
      builtinGraph.look? builtinRecord (.ofText "constructor") = some .null ∧
      ((cellOf "constructor").write Resolver.standard none (some (recorder inOrder))
        (.onValue builtinRecord) (.ofNat 5)).run' builtinGraph = none) ∧
    (guardedGraph.field? emptyGrid "cells").map FieldMember.type = some gridType ∧
      guardedGraph.look? emptyGrid (.ofText "cells") = some .null ∧
      ((cellOf "cells").write Resolver.standard none (some (recorder inOrder)) (.onValue emptyGrid)
        (.ofNat 5)).run' guardedGraph = none := by
  decide +kernel

end ObjectPath
