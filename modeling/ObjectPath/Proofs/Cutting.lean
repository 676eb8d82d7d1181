import ObjectPath.Proofs.Slicing

/-!
# Cutting paths

A path is cut between two whole numbers.  It is refused if one of them is no position in the path,
or if nothing would be left, and is otherwise the slice between the two positions; moving forward
and backward are cuts at one end.  The slice is what was asked for as long as its first text does
not look bound.
-/

namespace ObjectPath

namespace Session

open World

variable {world : World} {place : Nat} {limit : Number} {path : Path}

/-! ## Positions -/

theorem positionOf?_eq_some_iff {bound position : Nat} {number : Number} :
    positionOf? bound (.number number) = some position ↔
      number.toInt? = some (position : Int) ∧ position < bound := by
  rw [positionOf?]
  constructor
  · intro found
    split at found
    · rename_i whole
      split at found
      · obtain rfl := Option.some.inj found
        exact ⟨whole, by assumption⟩
      · cases found
    · cases found
  · rintro ⟨whole, inside⟩
    rw [whole]
    exact if_pos inside

theorem same_ofNat_iff {number : Number} {count : Nat} :
    (Value.number number).same (.ofNat count) = true ↔ number.toInt? = some (count : Int) := by
  constructor
  · intro same
    match number, same with
    | .infinity true, same => cases same
    | .infinity false, same => cases same
    | .negativeZero, same =>
        have zero : Dyadic.ofInt 0 = Dyadic.ofInt count := Point.at.inj (eq_of_beq same)
        have whole := Number.toInt?_ofInt count
        rw [Number.ofInt, ← zero] at whole
        exact whole
    | .finite value, same =>
        have located : value = Dyadic.ofInt count := Point.at.inj (eq_of_beq same)
        rw [located]
        exact Number.toInt?_ofInt count
  · intro whole
    rcases Number.eq_of_toInt? whole with rfl | ⟨rfl, zero⟩
    · exact beq_self_eq_true (Point.at (Dyadic.ofInt count))
    · obtain rfl : count = 0 := by exact_mod_cast zero
      rfl

theorem checkPosition_of_some {name : String} {bound size position : Nat} {number : Number}
    (found : positionOf? bound (.number number) = some position) :
    checkPosition name bound size (.number number) world = .ok position world := by
  rw [checkPosition, found]
  rfl

theorem checkPosition_of_none {name : String} {bound size : Nat} {number : Number}
    (nowhere : positionOf? bound (.number number) = none) :
    checkPosition name bound size (.number number) world =
      .error (.range (.position name number.text size)) world := by
  rw [checkPosition, nowhere]
  rfl

/-! ## Cuts -/

section Cuts

variable {first last : Number}

/-- The whole path is asked for exactly if it is cut at its two ends. -/
theorem whole_iff : ((Value.number first).same (.ofNat 0) &&
      (Value.number last).same (.ofNat path.size)) = true ↔
    positionOf? path.size (.number first) = some 0 ∧
      positionOf? (path.size + 1) (.number last) = some path.size := by
  rw [Bool.and_eq_true, same_ofNat_iff, same_ofNat_iff, positionOf?_eq_some_iff,
    positionOf?_eq_some_iff]
  have positive : 0 < path.size := List.length_pos_iff.2 path.nodes_ne_nil
  simp [positive]

theorem subPath_of_not_whole (notWhole : ¬ (positionOf? path.size (.number first) = some 0 ∧
      positionOf? (path.size + 1) (.number last) = some path.size)) :
    subPath path (.number first) (some (.number last)) = (do
      let start ← checkPosition "begin" path.size path.size (.number first)
      let stop ← checkPosition "end" (path.size + 1) path.size (.number last)
      if stop ≤ start then
        throw (.invalidArgument (.emptySlice (← positionText (.number first))
          (← positionText (.number last))))
      else
        sliceOf path start stop) := by
  rw [← whole_iff] at notWhole
  unfold subPath
  exact if_neg notWhole

theorem subPath_of_no_begin (nowhere : positionOf? path.size (.number first) = none) :
    subPath path (.number first) (some (.number last)) world =
      .error (.range (.position "begin" first.text path.size)) world := by
  rw [subPath_of_not_whole (fun whole => by cases nowhere.symm.trans whole.1),
    bind_of_error (checkPosition_of_none nowhere)]

theorem subPath_of_no_end {start : Nat}
    (begins : positionOf? path.size (.number first) = some start)
    (nowhere : positionOf? (path.size + 1) (.number last) = none) :
    subPath path (.number first) (some (.number last)) world =
      .error (.range (.position "end" last.text path.size)) world := by
  rw [subPath_of_not_whole (fun whole => by cases nowhere.symm.trans whole.2),
    bind_of_ok (checkPosition_of_some begins), bind_of_error (checkPosition_of_none nowhere)]

variable {start stop : Nat} (begins : positionOf? path.size (.number first) = some start)
  (ends : positionOf? (path.size + 1) (.number last) = some stop)

include begins ends

theorem subPath_of_empty (empty : stop ≤ start) :
    subPath path (.number first) (some (.number last)) world =
      .error (.invalidArgument (.emptySlice first.text last.text)) world := by
  have notWhole : ¬ (positionOf? path.size (.number first) = some 0 ∧
      positionOf? (path.size + 1) (.number last) = some path.size) := by
    rintro ⟨isFirst, isLast⟩
    have positive : 0 < path.size := List.length_pos_iff.2 path.nodes_ne_nil
    obtain rfl := Option.some.inj (begins.symm.trans isFirst)
    obtain rfl := Option.some.inj (ends.symm.trans isLast)
    omega
  rw [subPath_of_not_whole notWhole, bind_of_ok (checkPosition_of_some begins),
    bind_of_ok (checkPosition_of_some ends), if_pos empty]
  rfl

theorem subPath_of_whole (isFirst : start = 0) (isLast : stop = path.size) :
    subPath path (.number first) (some (.number last)) world = .ok path world := by
  subst isFirst isLast
  unfold subPath
  exact congrFun (if_pos (whole_iff.2 ⟨begins, ends⟩)) world

theorem subPath_of_inside (inside : start < stop) (notWhole : ¬ (start = 0 ∧ stop = path.size)) :
    subPath path (.number first) (some (.number last)) world = sliceOf path start stop world := by
  rw [subPath_of_not_whole fun whole => notWhole ⟨Option.some.inj (begins.symm.trans whole.1),
      Option.some.inj (ends.symm.trans whole.2)⟩,
    bind_of_ok (checkPosition_of_some begins), bind_of_ok (checkPosition_of_some ends),
    if_neg (Nat.not_le_of_lt inside)]

end Cuts

/-- What a cut of a path between two whole numbers comes to: it is refused exactly if one of them
is outside of the path, or if nothing would be left, and otherwise gives the nodes between them,
with the type of the path exactly if it starts with the first node. -/
structure Cuts (work : Session Path) (path : Path) (first last : Int) (world : World) : Prop where
  outside : (∃ cause later, work world = .error (.range cause) later) ↔
    ¬ (0 ≤ first ∧ first < path.size) ∨ ¬ (0 ≤ last ∧ last ≤ path.size)
  empty : (∃ cause later, work world = .error (.invalidArgument cause) later) ↔
    (0 ≤ first ∧ first < path.size) ∧ (0 ≤ last ∧ last ≤ path.size) ∧ last ≤ first
  inside : 0 ≤ first → first < last → last ≤ path.size →
    ∃ part later, work world = .ok part later ∧
      part.nodes.map Node.text =
        ((path.nodes.map Node.text).take last.toNat).drop first.toNat ∧
      part.rootType = if first = 0 then path.rootType else none

section Outcomes

variable {work : Session Path} {first last : Int}

theorem cuts_of_outside {cause : RangeFault}
    (outside : ¬ (0 ≤ first ∧ first < path.size) ∨ ¬ (0 ≤ last ∧ last ≤ path.size))
    (ended : work world = .error (.range cause) world) : Cuts work path first last world where
  outside := iff_of_true ⟨cause, world, ended⟩ outside
  empty := by
    refine iff_of_false ?_ (by omega)
    rintro ⟨_, _, other⟩
    cases ended.symm.trans other
  inside := by omega

theorem cuts_of_empty {cause : ArgumentFault} (firstInside : 0 ≤ first ∧ first < path.size)
    (lastInside : 0 ≤ last ∧ last ≤ path.size) (isEmpty : last ≤ first)
    (ended : work world = .error (.invalidArgument cause) world) :
    Cuts work path first last world where
  outside := by
    refine iff_of_false ?_ (by omega)
    rintro ⟨_, _, other⟩
    cases ended.symm.trans other
  empty := iff_of_true ⟨cause, world, ended⟩ ⟨firstInside, lastInside, isEmpty⟩
  inside := by omega

theorem cuts_of_inside {part : Path} {later : World} (isFirst : 0 ≤ first) (isInside : first < last)
    (isLast : last ≤ path.size) (ended : work world = .ok part later)
    (nodes : part.nodes.map Node.text =
      ((path.nodes.map Node.text).take last.toNat).drop first.toNat)
    (rootType : part.rootType = if first = 0 then path.rootType else none) :
    Cuts work path first last world where
  outside := by
    refine iff_of_false ?_ (by omega)
    rintro ⟨_, _, other⟩
    cases ended.symm.trans other
  empty := by
    refine iff_of_false ?_ (by omega)
    rintro ⟨_, _, other⟩
    cases ended.symm.trans other
  inside := fun _ _ _ => ⟨part, later, ended, nodes, rootType⟩

end Outcomes

/-- A cut at two numbers, as far as they are positions, comes to what is said of the two whole
numbers that they stand for. -/
theorem cuts_of_positions (sound : Sound world place) (matched : (world.registryOf place).Matched)
    (limited : (world.compiler place).maxNodes = .number limit)
    (cached : Cached world place (path.source, path)) {first last : Number} {lower upper : Int}
    (isFirst : ∀ position : Nat, positionOf? path.size (.number first) = some position ↔
      lower = position ∧ position < path.size)
    (isLast : ∀ position : Nat, positionOf? (path.size + 1) (.number last) = some position ↔
      upper = position ∧ position ≤ path.size)
    (admits : 0 ≤ lower → lower < upper → upper ≤ path.size → ¬ (lower = 0 ∧ upper = path.size) →
      world.AdmitsSlice place path lower.toNat upper.toNat) :
    Cuts (subPath path (.number first) (some (.number last))) path lower upper world := by
  cases begins : positionOf? path.size (.number first) with
  | none =>
      have outside : ¬ (0 ≤ lower ∧ lower < path.size) := fun inside => by
        have found := (isFirst lower.toNat).2 (by omega)
        cases begins.symm.trans found
      exact cuts_of_outside (.inl outside) (subPath_of_no_begin begins)
  | some start =>
      obtain ⟨rfl, startInside⟩ := (isFirst start).1 begins
      cases ends : positionOf? (path.size + 1) (.number last) with
      | none =>
          have outside : ¬ (0 ≤ upper ∧ upper ≤ path.size) := fun inside => by
            have found := (isLast upper.toNat).2 (by omega)
            cases ends.symm.trans found
          exact cuts_of_outside (.inr outside) (subPath_of_no_end begins ends)
      | some stop =>
          obtain ⟨rfl, stopInside⟩ := (isLast stop).1 ends
          by_cases empty : stop ≤ start
          · exact cuts_of_empty (by omega) (by omega) (by omega)
              (subPath_of_empty begins ends empty)
          have inside : start < stop := Nat.lt_of_not_le empty
          by_cases whole : start = 0 ∧ stop = path.size
          · refine cuts_of_inside (by omega) (by omega) (by omega)
              (subPath_of_whole begins ends whole.1 whole.2) ?_ ?_
            · rw [whole.1, whole.2, Int.toNat_natCast, Int.toNat_natCast, List.drop_zero]
              exact (List.take_of_length_le (by rw [List.length_map]; rfl)).symm
            · rw [if_pos (by omega)]
          · have admitted := admits (by omega) (by omega) (by omega) (by omega)
            rw [Int.toNat_natCast, Int.toNat_natCast] at admitted
            obtain ⟨part, later, ended, _, slices⟩ :=
              sliceOf_slices sound matched limited cached inside stopInside admitted
            refine cuts_of_inside (by omega) (by omega) (by omega)
              ((subPath_of_inside begins ends inside whole).trans ended) ?_ ?_
            · rw [Int.toNat_natCast, Int.toNat_natCast]
              exact slices.nodes
            · rw [slices.rootType]
              exact if_congr (by omega) rfl rfl

/-! ## Numbers that stand for positions -/

theorem position_iff_of_toInt? {number : Number} {value : Int} (whole : number.toInt? = some value)
    (bound position : Nat) : positionOf? bound (.number number) = some position ↔
      value = position ∧ position < bound := by
  rw [positionOf?_eq_some_iff, whole, Option.some_inj]

theorem positionOf?_ofNat {bound position : Nat} (inside : position < bound) :
    positionOf? bound (.ofNat position) = some position :=
  (position_iff_of_toInt? (Number.toInt?_ofInt position) bound position).2 ⟨rfl, inside⟩

/-- What is left of a size without a whole number is a position if the exact difference is. -/
theorem position_iff_of_subtract {size : Nat} (small : size < 2 ^ 53) {count : Number} {value : Int}
    (whole : count.toInt? = some value) (position : Nat) :
    positionOf? (size + 1) (.number ((Number.ofNat size).subtract count)) = some position ↔
      size - value = position ∧ position ≤ size := by
  obtain ⟨exact_, only⟩ := Number.toInt?_subtract small whole
  rw [positionOf?_eq_some_iff]
  constructor
  · rintro ⟨found, inside⟩
    exact ⟨(only position found (by omega) (by omega)).symm, by omega⟩
  · rintro ⟨same, inside⟩
    exact ⟨by rw [exact_ (by omega) (by omega), same], by omega⟩

/-- In every world that is reached from fresh caches, with a number for the limit of the nodes, a
path is cut between two whole numbers as it should be, and moved forward and backward by a whole
number as it should be, wherever the world admits the slice. -/
theorem paths_are_cut_exactly {mark : Nat} {start : World} (fresh : Fresh start place)
    (matched : ∀ name, (start.registry name).Matched) (reached : Reached place start world mark)
    (limited : (world.compiler place).maxNodes = .number limit)
    (made : Made place start world path) :
    (∀ (first last : Number) (lower upper : Int), first.toInt? = some lower →
      last.toInt? = some upper →
      (0 ≤ lower → lower < upper → upper ≤ path.size → ¬ (lower = 0 ∧ upper = path.size) →
        world.AdmitsSlice place path lower.toNat upper.toNat) →
      Cuts (subPath path (.number first) (some (.number last))) path lower upper world) ∧
    (∀ (count : Number) (value : Int), count.toInt? = some value →
      (0 < value → value < path.size → world.AdmitsSlice place path value.toNat path.size) →
      moveForward path (some (.number count)) world =
          subPath path (.number count) (some (.ofNat path.size)) world ∧
        Cuts (moveForward path (some (.number count))) path value path.size world) ∧
    (path.size < 2 ^ 53 → ∀ (count : Number) (value : Int), count.toInt? = some value →
      (0 < value → value < path.size →
        world.AdmitsSlice place path 0 (path.size - value).toNat) →
      moveBackward path (some (.number count)) world =
          subPath path (.ofNat 0) (some (.number ((Number.ofNat path.size).subtract count))) world ∧
        Cuts (moveBackward path (some (.number count))) path 0 (path.size - value) world) := by
  have cuts := @cuts_of_positions world place limit path (reached.sound fresh.sound)
    (reached.matched matched _) limited (made.cached fresh)
  have atPath : ∀ position : Nat, positionOf? path.size (.ofNat 0) = some position ↔
      (0 : Int) = position ∧ position < path.size :=
    position_iff_of_toInt? (Number.toInt?_ofInt 0) path.size
  have atEnd : ∀ position : Nat, positionOf? (path.size + 1) (.ofNat path.size) = some position ↔
      (path.size : Int) = position ∧ position ≤ path.size := fun position => by
    rw [← Nat.lt_succ_iff]
    exact position_iff_of_toInt? (Number.toInt?_ofInt path.size) _ position
  refine ⟨fun first last lower upper wholeFirst wholeLast admits => ?_,
    fun count value whole admits => ⟨rfl, ?_⟩, fun small count value whole admits => ⟨rfl, ?_⟩⟩
  · refine cuts (position_iff_of_toInt? wholeFirst _) (fun position => ?_) admits
    rw [← Nat.lt_succ_iff]
    exact position_iff_of_toInt? wholeLast _ position
  · refine cuts (position_iff_of_toInt? whole _) atEnd fun isFirst isInside _ notWhole => ?_
    rw [Int.toNat_natCast]
    exact admits (by omega) isInside
  · refine cuts atPath (position_iff_of_subtract small whole) fun _ isInside isLast notWhole => ?_
    exact admits (by omega) (by omega)

/-- What is known of the path of `class(A)m(k).a` in the world in which it was compiled. -/
structure NamedCall (path : Path) (later : World) : Prop where
  compiled : compile World.standardPlace "class(A)m(k).a" namedString = .ok path later
  reached : Reached World.standardPlace (World.initial .standard) later 0
  isCached : (path.source, path) ∈ (later.compiler World.standardPlace).expressions
  limited : (later.compiler World.standardPlace).maxNodes = .number (.ofNat 64)
  unhandled : (later.compiler World.standardPlace).handlers .compiled = []
  rootType : path.rootType = some (.object BuiltinClass.string.place)
  forms : path.nodes.map Node.form = [⟨.method "m" ["k"], []⟩, ⟨.field "a", []⟩]
  nodes : path.nodes.map Node.text = ["m(k)", "a"]

theorem exists_namedCall : ∃ path later, NamedCall path later := by
  have sound := reached_namedString.sound (fresh_initial .standard).sound
  have registered : (namedString.registryOf World.standardPlace).type? (.string "A") =
      some (.object BuiltinClass.string.place) := rfl
  have parsed : PathText.parseStatic "class(A)m(k).a" = .ok (some ⟨"A", "m(k).a"⟩) := rfl
  have spells : PathText.Spells [⟨.method "m" ["k"], []⟩, ⟨.field "a", []⟩]
      ["m(k)".toList, "a".toList] "m(k).a".toList := spells_call.append (spells_word (by decide))
  obtain ⟨path, later, compiled, root, forms⟩ := compile_of_arguments sound rfl (by decide) rfl
    (reportReturns_of_unhandled _ rfl) parsed registered spells (Number.allows_ofNat.2 (by decide))
    (by decide)
  obtain ⟨changes, found, cached⟩ := cached_of_compile sound compiled
  have source : path.source = "class(A)m(k).a" := cached.source
  have asked : compileValues World.standardPlace [.string "class(A)m(k).a"] namedString =
      .ok path later := compiled
  exact ⟨path, later,
    { compiled := compiled
      reached := stateAfter_of_ok asked ▸ .compiled _ _ reached_namedString
      isCached := source ▸ Entries.mem_of_get? found
      limited := changes.maxNodes _
      unhandled := unhandled_of_compile rfl compiled
      rootType := root
      forms := forms
      nodes := (parts_of_static cached (by decide) (changes.registryOf registered) spells).2 }⟩

namespace NamedCall

variable {later : World} (call : NamedCall path later)

include call

theorem size : path.size = 2 := by
  rw [Path.size, ← List.length_map (f := Node.text), call.nodes]
  rfl

theorem made : Made World.standardPlace (World.initial .standard) later path :=
  ⟨later, _, _, call.reached, .start, call.isCached⟩

theorem plain : ∀ node ∈ path.nodes, ¬ PathText.NamesType node.text := by
  intro node member
  have listed : node.text ∈ ["m(k)", "a"] := call.nodes ▸ List.mem_map_of_mem member
  rcases List.mem_pair.1 listed with same | same <;> rw [same, PathText.NamesType] <;> decide

/-- The call takes an argument, so no type is walked. -/
theorem resolves (world : World) {owner : Value} : Resolves
    (world.compiler World.standardPlace).resolver (Form.leading (path.nodes.map Node.form)) owner
      .onClass world.graph := by
  rw [call.forms]
  exact .nil

theorem admitsSlice (first last : Nat) : later.AdmitsSlice World.standardPlace path first last where
  plain := fun node isThere => call.plain node (List.mem_of_getElem? isThere)
  returns := fun _ => reportReturns_of_unhandled _ call.unhandled
  resolves := fun _ _ _ _ => call.resolves later

end NamedCall

/-- A path that starts from a registered class with a call keeps the class when it is moved backward
and loses it when it is moved forward. -/
theorem path_of_call_is_cut :
    ∃ path later, compile World.standardPlace "class(A)m(k).a" namedString = .ok path later ∧
      (∃ part final, moveBackward path (some (.ofNat 1)) later = .ok part final ∧
        part.nodes.map Node.text = ["m(k)"] ∧
        part.rootType = some (.object BuiltinClass.string.place)) ∧
      (∃ part final, moveForward path (some (.ofNat 1)) later = .ok part final ∧
        part.nodes.map Node.text = ["a"] ∧ part.rootType = none) ∧
      ∃ cause final, subPath path (.ofNat 2) (some (.ofNat 2)) later =
        .error (.range cause) final := by
  obtain ⟨path, later, call⟩ := exists_namedCall
  have size := call.size
  obtain ⟨cuts, forward, backward⟩ := paths_are_cut_exactly (fresh_initial .standard)
    (matched_initial .standard) call.reached call.limited call.made
  obtain ⟨part, final, ended, texts, type⟩ :=
    (backward (by rw [size]; decide) _ 1 (Number.toInt?_ofInt 1) fun _ _ =>
      call.admitsSlice _ _).2.inside (by decide) (by rw [size]; decide) (by omega)
  obtain ⟨other, last, moved, otherTexts, noType⟩ :=
    (forward _ 1 (Number.toInt?_ofInt 1) fun _ _ => call.admitsSlice _ _).2.inside (by decide)
      (by rw [size]; decide) (le_refl _)
  refine ⟨path, later, call.compiled, ⟨part, final, ended, ?_, ?_⟩,
    ⟨other, last, moved, ?_, noType⟩, ?_⟩
  · rw [texts, call.nodes, size]
    rfl
  · rw [type, if_pos rfl, call.rootType]
  · rw [otherTexts, call.nodes, size]
    rfl
  · exact (cuts _ _ 2 2 (Number.toInt?_ofInt 2) (Number.toInt?_ofInt 2) fun _ _ _ _ =>
      call.admitsSlice _ _).outside.2 (.inl (by rw [size]; decide))

/-- The slice of a path that starts with a call of a method named `class` is refused. -/
theorem slice_that_looks_bound_is_refused :
    ∃ path later, compile World.standardPlace "a.class(k)" (World.initial .standard) =
        .ok path later ∧
      path.rootType = none ∧ path.nodes.map Node.text = ["a", "class(k)"] ∧
      subPath path (.ofNat 1) (some (.ofNat 2)) later =
        .error (.invalidExpression "class(k)" .noNodes none) later := by
  have sound := (fresh_initial .standard).sound
  have keys : KeysSpell ["k"] ['k'] := .last (by decide) ⟨[], [], by decide, by decide, by decide⟩
  have call : Base.Spells (.method "class" ["k"]) ("class".toList ++ '(' :: ['k'] ++ [')']) :=
    .method (by decide) keys
  have spellsCall : PathText.Spells [⟨.method "class" ["k"], []⟩] ["class(k)".toList]
      "class(k)".toList :=
    ⟨by simp, .cons (Form.spells_base.2 ⟨call, by simp⟩) .nil, by decide⟩
  have spells : PathText.Spells [⟨.field "a", []⟩, ⟨.method "class" ["k"], []⟩]
      ["a".toList, "class(k)".toList] "a.class(k)".toList :=
    (spells_word (by decide)).append spellsCall
  have plain : ¬ PathText.NamesType "a.class(k)" := by
    rw [PathText.NamesType]
    decide
  obtain ⟨path, later, compiled, changes, cached, noType, nodes⟩ := compile_of_spells sound rfl
    spells.trim plain spells (Number.allows_ofNat.2 (by decide)) (reportReturns_of_unhandled _ rfl)
  have maker : path.compiler = World.standardPlace := cached.maker
  have size : path.size = 2 := by
    rw [Path.size, ← List.length_map (f := Node.text), nodes]
    rfl
  have text : path.sliceText 1 2 = "class(k)" := by
    rw [Path.sliceText, joinedText, List.map_drop, List.map_take, nodes]
    decide
  have begins : positionOf? path.size (.ofNat 1) = some 1 :=
    positionOf?_ofNat (by rw [size]; decide)
  have ends : positionOf? (path.size + 1) (.ofNat 2) = some 2 :=
    positionOf?_ofNat (by rw [size]; decide)
  refine ⟨path, later, compiled, noType, nodes, ?_⟩
  refine (subPath_of_inside begins ends (by decide) (by simp)).trans ?_
  rw [sliceOf, noType]
  dsimp only
  rw [text, maker]
  exact compile_of_unparsed (changes.sound sound) (by decide) (by decide) rfl

end Session

end ObjectPath
