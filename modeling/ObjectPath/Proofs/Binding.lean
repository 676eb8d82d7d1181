import ObjectPath.Path.Operations
import ObjectPath.Proofs.Transparency

/-!
# Bound texts

A text is bound to a type by writing the name of the type in front of it, and the name is found
again up to the first closing parenthesis.  So a text is bound to the type that is meant if there
is none in the name, and binding and unbinding undo one another if the path that is left does not
look bound itself.
-/

namespace ObjectPath

namespace PathText

/-! ## Static texts -/

theorem toList_withType (name body : String) :
    (withType name body).toList = staticMark ++ (name.toList ++ ')' :: body.toList) := by
  simp [withType, staticMark]

theorem afterStaticMark?_append (rest : List Char) :
    afterStaticMark? (staticMark ++ rest) = some rest := by
  unfold afterStaticMark?
  rw [if_pos (List.isPrefixOf_iff_prefix.2 (List.prefix_append ..)), List.drop_left]

theorem eq_of_afterStaticMark? {text rest : List Char} (found : afterStaticMark? text = some rest) :
    text = staticMark ++ rest := by
  unfold afterStaticMark? at found
  split at found
  · rename_i isStatic
    cases found
    obtain ⟨rest, rfl⟩ := List.isPrefixOf_iff_prefix.1 isStatic
    rw [List.drop_left]
  · cases found

/-- A static text is a type name without a closing parenthesis and a path behind the mark. -/
theorem eq_withType_of_parseStatic {text : String} {parts : StaticParts}
    (parsed : parseStatic text = .ok (some parts)) :
    text = withType parts.typeName parts.body ∧ ')' ∉ parts.typeName.toList ∧
      parts.typeName ≠ "" ∧ parts.body ≠ "" := by
  unfold parseStatic at parsed
  split at parsed
  · cases parsed
  · rename_i rest behind
    have isStatic := eq_of_afterStaticMark? behind
    split at parsed
    · cases parsed
    · cases parsed
    · cases parsed
    · rename_i typeName body named notEmpty found
      cases parsed
      obtain ⟨closed, rfl⟩ := Text.cutAt_eq_some.1 found
      refine ⟨?_, by rwa [String.toList_ofList], ?_, ?_⟩
      · rw [← String.toList_inj, toList_withType, String.toList_ofList, String.toList_ofList,
          isStatic]
      · rw [Ne, String.ofList_eq_empty_iff]
        exact named
      · rw [Ne, String.ofList_eq_empty_iff]
        exact notEmpty

/-- What is read from a text that was bound to a name is the name and the path, if there is no
closing parenthesis in the name. -/
theorem parts_withType {name body : String} (closed : ')' ∉ name.toList)
    {parts : Option StaticParts} (parsed : parseStatic (withType name body) = .ok parts) :
    parts = some ⟨name, body⟩ := by
  have found : Text.cutAt ')' (name.toList ++ ')' :: body.toList) =
      some (name.toList, body.toList) := Text.cutAt_eq_some.2 ⟨closed, rfl⟩
  unfold parseStatic at parsed
  rw [toList_withType, afterStaticMark?_append] at parsed
  dsimp only at parsed
  rw [found] at parsed
  split at parsed
  · cases parsed
  · cases parsed
  · cases parsed
  · rename_i same
    cases same
    cases parsed
    simp

/-- Which expression a fault would name does not matter to the segments. -/
theorem splitSegments_congr {expression body : String} {segments : List String}
    (split : splitSegments expression body = .ok segments) (other : String) :
    splitSegments other body = .ok segments := by
  unfold splitSegments at split ⊢
  split at split
  · exact split
  · cases split

/-- A text that was bound to a name is trimmed if the path is trimmed at its end. -/
theorem trim_withType (name : String) {body : String}
    (trimmed : Text.trimEnd body.toList = body.toList) :
    Text.trim (withType name body) = withType name body := by
  have closing : Text.trimEnd (')' :: body.toList) = ')' :: body.toList := by
    rw [Text.trimEnd_cons (by decide), trimmed]
  have whole : (withType name body).toList =
      'c' :: (("lass(".toList ++ name.toList) ++ (')' :: body.toList)) := by
    rw [toList_withType]
    simp [staticMark]
  rw [Text.trim, whole, Text.trimList_cons (by decide),
    Text.trimEnd_append_of_trimmed _ closing (List.cons_ne_nil _ _), ← whole, String.ofList_toList]

/-- What is left of a text without its type is trimmed at its end. -/
theorem trimEnd_of_toNonStatic {text body : String} (found : toNonStatic text = .ok body) :
    Text.trimEnd body.toList = body.toList := by
  have trimmed : Text.trimEnd (Text.trim text).toList = (Text.trim text).toList := by
    rw [Text.trim, String.toList_ofList, Text.trimEnd_trimList]
  unfold toNonStatic withoutType at found
  split at found
  · rename_i parts parsed
    cases found
    have isStatic := (eq_withType_of_parseStatic parsed).1
    rw [isStatic, toList_withType] at trimmed
    have closing : Text.trimEnd ([')'] ++ parts.body.toList) = [')'] ++ parts.body.toList :=
      Text.trimEnd_of_append (Text.trimEnd_of_append trimmed)
    exact Text.trimEnd_of_append closing
  · cases found
    exact trimmed
  · cases found

end PathText

namespace Session

open World

variable {world : World} {place : Nat}

/-! ## Binding a text -/

/-- A text is bound to the name that its type is known by. -/
theorem boundText_of_names {type : Value} {name text : String}
    (matched : (world.registryOf place).Matched)
    (names : (world.registryOf place).Names world.graph name type) :
    Ensures (boundText place type text) world
      (fun source later => Consults world later ∧
        (later.registryOf place).type? (.string name) = some type ∧
          ∃ body, PathText.toNonStatic text = .ok body ∧ source = PathText.withType name body)
      fun _ _ => True := by
  have named : Ensures (nameOf (world.compiler place).registry type) world
      (fun found later => found = .string name ∧
        (later.registryOf place).type? (.string name) = some type) fun _ _ => True := by
    refine Ensures.get_bind (Ensures.bind ((onGraph_ensures
      (Registry.nameOf_of_names matched names)).mono (fun _ _ => id) fun _ _ _ => trivial) ?_)
    rintro ⟨known, registry⟩ later ⟨same, sameGraph, named, bound⟩
    rw [sameGraph] at same
    subst same
    have isBound : ((world.setRegistry (world.compiler place).registry registry).registryOf
        place).type? (.string name) = some type := by
      change ((world.setRegistry (world.compiler place).registry registry).registry
        (world.compiler place).registry).type? _ = _
      rw [registry_setRegistry, if_pos rfl]
      exact bound
    refine Ensures.ok_bind rfl ?_
    rcases named with rfl | ⟨rfl, read⟩
    · exact ⟨rfl, isBound⟩
    · exact Ensures.of_ok (onGraph_of_ok read) ⟨rfl, isBound⟩
  have wrapped : Ensures (wrapping (fun cause => .invalidExpression text .unnameableType (some cause))
      (nameOf (world.compiler place).registry type)) world
      (fun found later => Consults world later ∧ found = .string name ∧
        (later.registryOf place).type? (.string name) = some type) fun _ _ => True :=
    wrapping_keeps (((consulting_nameOf _ type world world (.refl world)).and named).mono
      (fun _ _ => id) fun _ _ _ => trivial)
  refine Ensures.get_bind (Ensures.bind wrapped ?_)
  rintro _ later ⟨consults, rfl, bound⟩
  refine Ensures.ok_bind (onGraph_of_ok (Run.messageText_string name later.graph)) ?_
  unfold PathText.toStatic
  cases found : PathText.toNonStatic text with
  | error fault => trivial
  | ok body => exact ⟨consults, bound, body, rfl, rfl⟩

/-- A text is bound to a registered type. -/
theorem boundText_of_registered {type : Value} {name text body : String}
    (matched : (world.registryOf place).Matched)
    (registered : (world.registryOf place).type? (.string name) = some type)
    (stripped : PathText.toNonStatic text = .ok body) :
    boundText place type text world = .ok (PathText.withType name body)
      (world.setRegistry (world.compiler place).registry (world.registryOf place)) := by
  have named : wrapping (fun cause => .invalidExpression text .unnameableType (some cause))
      (nameOf (world.compiler place).registry type) world =
        .ok (.string name)
          (world.setRegistry (world.compiler place).registry (world.registryOf place)) := by
    refine tryCatch_of_ok ?_
    unfold nameOf
    rw [bind_get]
    change (onGraph ((world.registryOf place).nameOf type) >>= _) world = _
    rw [Registry.nameOf_of_registered matched registered]
    rfl
  rw [boundText, bind_get, bind_of_ok named,
    bind_of_ok (onGraph_of_ok (Run.messageText_string name _)), PathText.toStatic, stripped]
  rfl

/-- What a text bound to a type compiles to. -/
theorem compileBound_ok {type : Value} {name text : String} (sound : Sound world place)
    (matched : (world.registryOf place).Matched)
    (names : (world.registryOf place).Names world.graph name type) (closed : ')' ∉ name.toList)
    {path : Path} {later : World} (bound : compileBound place type text world = .ok path later) :
    Changes world later ∧ Cached later place (path.source, path) ∧ path.rootType = some type ∧
      ∃ body, PathText.toNonStatic text = .ok body ∧ path.source = PathText.withType name body ∧
        PathText.splitSegments body body = .ok (path.nodes.map Node.text) := by
  obtain ⟨source, middle, asked, compiled⟩ := ok_of_bind bound
  obtain ⟨consults, isBound, body, stripped, rfl⟩ := (boundText_of_names matched names).ok asked
  obtain ⟨changes, _, cached⟩ := cached_of_compile (consults.changes.sound sound) compiled
  rw [PathText.trim_withType name (PathText.trimEnd_of_toNonStatic stripped)] at cached
  have source : path.source = PathText.withType name body := cached.source
  have stillBound := changes.registryOf isBound
  obtain ⟨parts, segments, parsed, resolved, split, read⟩ := cached.isRead.read
  rw [source] at parsed split
  obtain rfl := PathText.parts_withType closed parsed
  refine ⟨consults.changes.trans changes, source ▸ cached, ?_, body, stripped, source, ?_⟩
  · cases root : path.rootType with
    | none =>
        rw [root] at resolved
        cases resolved
    | some owner =>
        rw [root] at resolved
        exact stillBound.symm.trans (Option.some.inj resolved) |>.symm
  · rw [(PathText.spells_of_read split read).2]
    exact PathText.splitSegments_congr split body

/-! ## Static texts without a walk -/

theorem nodesOf_of_spells (source : String) (faithful : (world.compiler place).nodeTable.Faithful)
    {segments : List Form} {texts : List (List Char)}
    (spell : List.Forall₂ Form.Spells segments texts) :
    ∃ made later, nodesOf place source (texts.map String.ofList) world = .ok made later ∧
      made.map Node.form = segments := by
  have readable : ∃ nodes, List.Forall₂ (fun segment node =>
      NodeTable.read segment.toList = .ok node.bare) (texts.map String.ofList) nodes ∧
        nodes.map Node.form = segments := by
    induction spell with
    | nil => exact ⟨[], .nil, rfl⟩
    | cons first _ inductionHypothesis =>
        obtain ⟨node, read, form⟩ := NodeTable.read_of_spells first
        obtain ⟨nodes, reads, forms⟩ := inductionHypothesis
        exact ⟨node :: nodes, .cons (by rwa [String.toList_ofList]) reads,
          by rw [List.map_cons, form, forms]⟩
  obtain ⟨nodes, reads, forms⟩ := readable
  obtain ⟨made, later, ended, same⟩ := nodesOf_of_read source faithful reads
  refine ⟨made, later, ended, ?_⟩
  have formsOf : ∀ nodes : List Node, nodes.map Node.form = (nodes.map Node.bare).map Node.form := by
    intro nodes
    rw [List.map_map]
    exact List.map_congr_left fun node _ => node.form_bare.symm
  rw [formsOf, same, ← formsOf, forms]

/-- A static text whose first segment takes arguments compiles without a look at the members of
its type. -/
theorem compile_of_arguments (sound : Sound world place) {limit : Number}
    (limited : (world.compiler place).maxNodes = .number limit) {text : String}
    (trimmed : Text.trim text = text) (fresh : world.cached? place text = none)
    (returns : ReportReturns place text world) {parts : PathText.StaticParts}
    (parsed : PathText.parseStatic text = .ok (some parts)) {owner : Value}
    (registered : (world.registryOf place).type? (.string parts.typeName) = some owner)
    {first : Form} {rest : List Form} {texts : List (List Char)}
    (spells : PathText.Spells (first :: rest) texts parts.body.toList)
    (allows : limit.Allows (rest.length + 1)) (takes : first.base.keys ≠ []) :
    ∃ path later, compile place text world = .ok path later ∧ path.rootType = some owner ∧
      path.nodes.map Node.form = first :: rest := by
  have resolved : (some parts).map (fun parts =>
      (world.registryOf place).type? (.string parts.typeName)) = (some owner).map some :=
    congrArg some registered
  obtain ⟨nodes, interned, made, forms⟩ := nodesOf_of_spells text sound.faithful spells.2.1
  have start : lift (PathText.parseStatic text) world = .ok (some parts) world := by
    rw [parsed]
    rfl
  have split : lift (PathText.splitSegments text parts.body) world =
      .ok (texts.map String.ofList) world := by
    rw [PathText.splitSegments_of_spells spells text]
    rfl
  have counted : checkCount place text (texts.map String.ofList).length world = .ok () world := by
    refine checkCount_of_allows text limited ?_
    rw [List.length_map, ← spells.2.1.length_eq]
    exact allows
  -- The first node takes arguments, so no type is walked and nothing can be found missing.
  have walked : checkRoot place text (some owner) (some parts) nodes interned = .ok () interned := by
    cases nodes with
    | nil => cases forms
    | cons node others =>
        have takesKeys : node.needsArguments = true := by
          rw [Node.needsArguments, node.argumentKeys_eq, (List.cons.inj forms).1]
          simpa using takes
        have stops : walkedIndex? (node :: others) = none := by
          rw [walkedIndex?, List.takeWhile_cons_of_neg (by simp [takesKeys])]
          rfl
        rw [checkRoot, checkTypes, stops]
        rfl
  have entered := enterPath_ensures place text nodes (some owner) interned
  cases ended : enterPath place text nodes (some owner) interned with
  | error fault later =>
      rw [(entered.error ended).2.1] at forms
      cases forms
  | ok path later =>
      obtain ⟨_, _, _, sameNodes, root⟩ := entered.ok ended
      have isNew : newPath place text world = .ok (path, some parts.typeName) later := by
        rw [newPath, bind_of_ok start, bind_of_ok (rootTypeOf_of_resolved text resolved)]
        dsimp only [Option.map_some, Option.getD_some]
        rw [bind_of_ok split, bind_of_ok counted, bind_of_ok made, bind_of_ok walked,
          bind_of_ok ended]
        rfl
      have notEmpty : Text.trim text ≠ "" := by
        rw [trimmed]
        rintro rfl
        cases parsed
      have compiled := compile_of_fresh notEmpty (by rwa [trimmed]) (by rwa [trimmed])
      rw [trimmed] at compiled
      cases result : compile place text world with
      | error fault final => cases isNew.symm.trans (compiled.error result)
      | ok found final =>
          obtain ⟨_, _, again⟩ := compiled.ok result
          cases isNew.symm.trans again
          exact ⟨path, final, rfl, root, by rw [sameNodes, forms]⟩

/-- A text is bound to a registered type and compiled, whatever type the static text names. -/
theorem compileBound_of_arguments (sound : Sound world place)
    (matched : (world.registryOf place).Matched) {limit : Number}
    (limited : (world.compiler place).maxNodes = .number limit)
    (unhandled : (world.compiler place).handlers .compiled = []) {type : Value}
    {name text body : String}
    (registered : (world.registryOf place).type? (.string name) = some type)
    (stripped : PathText.toNonStatic text = .ok body)
    (fresh : world.cached? place (PathText.withType name body) = none)
    {parts : PathText.StaticParts}
    (parsed : PathText.parseStatic (PathText.withType name body) = .ok (some parts)) {owner : Value}
    (named : (world.registryOf place).type? (.string parts.typeName) = some owner)
    {first : Form} {rest : List Form} {texts : List (List Char)}
    (spells : PathText.Spells (first :: rest) texts parts.body.toList)
    (allows : limit.Allows (rest.length + 1)) (takes : first.base.keys ≠ []) :
    ∃ path later, compileBound place type text world = .ok path later ∧
      path.rootType = some owner ∧ path.nodes.map Node.form = first :: rest := by
  have asked := boundText_of_registered matched registered stripped
  have consults := (consulting_boundText place type text world world (.refl world)).ok asked
  have sameRegistry : (world.setRegistry (world.compiler place).registry
      (world.registryOf place)).registryOf place = world.registryOf place := by
    change (world.setRegistry (world.compiler place).registry _).registry
      (world.compiler place).registry = _
    rw [registry_setRegistry, if_pos rfl]
  obtain ⟨path, later, compiled, found⟩ := compile_of_arguments (consults.changes.sound sound)
    limited (PathText.trim_withType name (PathText.trimEnd_of_toNonStatic stripped)) fresh
    (reportReturns_of_unhandled _ unhandled) parsed (by rwa [sameRegistry]) spells allows takes
  exact ⟨path, later, by rw [compileBound, bind_of_ok asked, compiled], found⟩

/-- A text bound to a class that is known by a name without a closing parenthesis compiles to a
path that starts from that class, and whose nodes are the segments of the text without a type. -/
theorem compile_bound_has_type {mark : Nat} {start : World} (fresh : Fresh start place)
    (matched : ∀ name, (start.registry name).Matched) (reached : Reached place start world mark)
    {owner : Nat} {name text : String}
    (names : (world.registryOf place).Names world.graph name (.object owner))
    (closed : ')' ∉ name.toList) {path : Path} {later : World}
    (bound : compileValues place [.object owner, .string text] world = .ok path later) :
    path.rootType = some (.object owner) ∧ ∃ body, PathText.toNonStatic text = .ok body ∧
      PathText.splitSegments body body = .ok (path.nodes.map Node.text) := by
  have isBound : compileBound place (.object owner) text world = .ok path later := bound
  obtain ⟨_, _, root, body, stripped, _, split⟩ :=
    compileBound_ok (reached.sound fresh.sound) (reached.matched matched _) names closed isBound
  exact ⟨root, body, stripped, split⟩

theorem spells_call_of_key : Base.Spells (.method "m" ["k"]) "m(k)".toList := by
  have keys : KeysSpell ["k"] ['k'] := .last (by decide) ⟨[], [], by decide, by decide, by decide⟩
  have spells : Base.Spells (.method "m" ["k"]) ("m".toList ++ '(' :: ['k'] ++ [')']) :=
    .method (by decide) keys
  exact spells

theorem spells_call :
    PathText.Spells [⟨.method "m" ["k"], []⟩] ["m(k)".toList] "m(k)".toList :=
  ⟨by simp, .cons (Form.spells_base.2 ⟨spells_call_of_key, by simp⟩) .nil, by decide⟩

/-- A text that starts with a call is bound to a registered class. -/
theorem compile_bound_has_type_of_call :
    let world := stateAfter (register World.standardRegistry "A" (.object BuiltinClass.number.place))
      (World.initial .standard)
    ∃ path later, compileValues World.standardPlace
        [.object BuiltinClass.number.place, .string " class(B)m(k)"] world = .ok path later ∧
      path.rootType = some (.object BuiltinClass.number.place) ∧
      PathText.splitSegments "m(k)" "m(k)" = .ok (path.nodes.map Node.text) := by
  intro world
  have reached : Reached World.standardPlace (World.initial .standard) world 0 :=
    .registered _ _ _ .start
  have registered : (world.registryOf World.standardPlace).type? (.string "A") =
      some (.object BuiltinClass.number.place) := by decide
  have stripped : PathText.toNonStatic " class(B)m(k)" = .ok "m(k)" := rfl
  have sound := reached.sound (fresh_initial .standard).sound
  have parsed : PathText.parseStatic (PathText.withType "A" "m(k)") = .ok (some ⟨"A", "m(k)"⟩) := rfl
  have limited : (world.compiler World.standardPlace).maxNodes = .number (.ofNat 64) := rfl
  obtain ⟨path, later, compiled, _⟩ := compileBound_of_arguments sound
    (reached.matched (matched_initial .standard) _) limited rfl registered stripped rfl parsed
    registered spells_call (Number.allows_ofNat.2 (by decide)) (by decide)
  obtain ⟨root, body, strippedAgain, split⟩ := compile_bound_has_type (fresh_initial .standard)
    (matched_initial .standard) reached (.inl registered) (by decide) compiled
  obtain rfl : body = "m(k)" := Except.ok.inj (strippedAgain.symm.trans stripped)
  exact ⟨path, later, compiled, root, split⟩

/-- Two classes are registered, and the text `[0]` is bound to the one whose name has a closing
parenthesis: the path that is compiled starts from the other class. -/
theorem bound_text_misses_its_class :
    let world := stateAfter
      (register World.standardRegistry "A)m(k" (.object BuiltinClass.number.place))
      (stateAfter (register World.standardRegistry "A" (.object BuiltinClass.string.place))
        (World.initial .standard))
    (world.registryOf World.standardPlace).type? (.string "A)m(k") =
        some (.object BuiltinClass.number.place) ∧
      ∃ path later, compileValues World.standardPlace
          [.object BuiltinClass.number.place, .string "[0]"] world = .ok path later ∧
        path.rootType ≠ some (.object BuiltinClass.number.place) ∧
        path.nodes.map Node.form = [⟨.method "m" ["k"], [0]⟩] := by
  intro world
  have reached : Reached World.standardPlace (World.initial .standard) world 0 :=
    .registered _ _ _ (.registered _ _ _ .start)
  have registered : (world.registryOf World.standardPlace).type? (.string "A)m(k") =
      some (.object BuiltinClass.number.place) := by decide
  have named : (world.registryOf World.standardPlace).type? (.string "A") =
      some (.object BuiltinClass.string.place) := by decide
  have spells : PathText.Spells [⟨.method "m" ["k"], [0]⟩] ["m(k)[0]".toList] "m(k)[0]".toList := by
    refine ⟨by simp, .cons ⟨"m(k)".toList, ["[0]".toList], spells_call_of_key, .cons ?_ .nil, by simp,
      by decide⟩ .nil, by decide⟩
    exact ⟨['0'], ['0'], by decide, by decide, by decide, ⟨[], [], by decide, by decide, by decide⟩,
      by decide⟩
  have stripped : PathText.toNonStatic "[0]" = .ok "[0]" := rfl
  have parsed : PathText.parseStatic (PathText.withType "A)m(k" "[0]") =
      .ok (some ⟨"A", "m(k)[0]"⟩) := rfl
  have limited : (world.compiler World.standardPlace).maxNodes = .number (.ofNat 64) := rfl
  obtain ⟨path, later, compiled, root, forms⟩ := compileBound_of_arguments
    (reached.sound (fresh_initial .standard).sound) (reached.matched (matched_initial .standard) _)
    limited rfl registered stripped rfl parsed named spells (Number.allows_ofNat.2 (by decide))
    (by decide)
  exact ⟨registered, path, later, compiled, by rw [root]; decide, forms⟩

end Session

end ObjectPath
