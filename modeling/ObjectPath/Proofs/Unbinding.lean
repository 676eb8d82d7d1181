import ObjectPath.Proofs.Binding

/-!
# Unbinding a path

Taking the type off a path that was bound gives the path that it was bound from, and binding a
path to the type that was taken off gives the bound path back.  Both hold as long as the text that
is left does not itself start like a bound one.
-/

namespace ObjectPath

namespace PathText

/-! ## Trimmed texts -/

theorem plain_of_parseStatic {text : String} (parsed : parseStatic text = .ok none) :
    ¬ NamesType text := by
  rintro ⟨rest, same⟩
  have behind : afterStaticMark? text.toList = some rest := by
    rw [← same, afterStaticMark?_append]
  unfold parseStatic at parsed
  rw [behind] at parsed
  dsimp only at parsed
  split at parsed <;> cases parsed

theorem toNonStatic_of_plain {text : String} (trimmed : Text.trim text = text)
    (plain : ¬ NamesType text) : toNonStatic text = .ok text := by
  rw [toNonStatic, trimmed, withoutType, parseStatic_of_plain plain]

theorem toNonStatic_of_static {text : String} {parts : StaticParts}
    (trimmed : Text.trim text = text) (parsed : parseStatic text = .ok (some parts)) :
    toNonStatic text = .ok parts.body := by
  rw [toNonStatic, trimmed, withoutType, parsed]

/-- What spells a path is trimmed if it is trimmed at its end. -/
theorem trim_of_spells {text : String} (trimmed : Text.trimEnd text.toList = text.toList)
    {segments : List Form} {texts : List (List Char)}
    (spells : Spells segments texts text.toList) : Text.trim text = text := by
  obtain ⟨character, rest, same, noBlank⟩ := spells.exists_head
  rw [Text.trim, same, Text.trimList_cons noBlank, ← Text.trimEnd_cons noBlank, ← same, trimmed,
    String.ofList_toList]

end PathText

namespace Session

open World

variable {world : World} {place : Nat} {limit : Number}

/-! ## What is known of a path -/

/-- A path that starts from no type has a text that names none. -/
theorem plain_of_cached {path : Path} (cached : Cached world place (path.source, path))
    (noType : path.rootType = none) : ¬ PathText.NamesType path.source := by
  obtain ⟨parts, segments, parsed, resolved, _⟩ := cached.isRead.read
  have none : parts = none := by
    have resolved : parts.map _ = path.rootType.map some := resolved
    rwa [noType, Option.map_none, Option.map_eq_none_iff] at resolved
  subst none
  exact PathText.plain_of_parseStatic parsed

/-- A path that starts from a type is written as the name of the type and what its nodes spell. -/
theorem static_of_cached {path : Path} (cached : Cached world place (path.source, path))
    {owner : Value} (root : path.rootType = some owner) :
    ∃ name body texts, path.source = PathText.withType name body ∧ ')' ∉ name.toList ∧
      (world.registryOf place).type? (.string name) = some owner ∧
      PathText.toNonStatic path.source = .ok body ∧ body ≠ "" ∧
      PathText.Spells (path.nodes.map Node.form) texts body.toList ∧
      path.nodes.map Node.text = texts.map String.ofList := by
  obtain ⟨parts, segments, parsed, resolved, split, read⟩ := cached.isRead.read
  cases parts with
  | none =>
      have resolved : none = path.rootType.map some := resolved
      rw [root] at resolved
      cases resolved
  | some parts =>
      have resolved : some _ = path.rootType.map some := resolved
      rw [root] at resolved
      obtain ⟨isStatic, closed, _, notEmpty⟩ := PathText.eq_withType_of_parseStatic parsed
      obtain ⟨spells, texts⟩ := PathText.spells_of_read split read
      refine ⟨parts.typeName, parts.body, _, isStatic, closed, Option.some.inj resolved,
        PathText.toNonStatic_of_static cached.isRead.trimmed parsed, notEmpty, spells, ?_⟩
      rw [texts, List.map_map]
      simp

/-- A compiled text without a type has the nodes that it spells. -/
theorem parts_of_plain {path : Path} {text : String} (cached : Cached world place (text, path))
    (plain : ¬ PathText.NamesType text) {segments : List Form} {texts : List (List Char)}
    (spells : PathText.Spells segments texts text.toList) :
    path.rootType = none ∧ path.nodes.map Node.text = texts.map String.ofList := by
  obtain ⟨parts, split, parsed, resolved, isSplit, read⟩ := cached.isRead.read
  have source : path.source = text := cached.source
  rw [source] at parsed isSplit
  rw [PathText.parseStatic_of_plain plain] at parsed
  cases parsed
  have resolved : none = path.rootType.map some := resolved
  rw [Option.map_none, Option.getD_none, PathText.splitSegments_of_spells spells] at isSplit
  exact ⟨Option.map_eq_none_iff.1 resolved.symm,
    (PathText.spells_of_read (PathText.splitSegments_of_spells spells text)
      (Except.ok.inj isSplit ▸ read)).2⟩

/-- A text that spells a path compiles to a path without a type. -/
theorem compile_of_spells (sound : Sound world place)
    (limited : (world.compiler place).maxNodes = .number limit) {text : String}
    (trimmed : Text.trim text = text) (plain : ¬ PathText.NamesType text) {segments : List Form}
    {texts : List (List Char)} (spells : PathText.Spells segments texts text.toList)
    (allows : limit.Allows segments.length) (returns : ReportReturns place text world) :
    ∃ path later, compile place text world = .ok path later ∧ Changes world later ∧
      Cached later place (text, path) ∧ path.rootType = none ∧
      path.nodes.map Node.text = texts.map String.ofList := by
  have notEmpty : Text.trim text ≠ "" := by
    obtain ⟨character, rest, same, _⟩ := spells.exists_head
    rw [trimmed]
    rintro rfl
    cases same
  have plainTrimmed : ¬ PathText.NamesType (Text.trim text) := by rwa [trimmed]
  obtain ⟨path, later, compiled⟩ := compile_of_accepts sound plainTrimmed limited notEmpty
    (by rwa [trimmed]) (by rw [trimmed]; exact ⟨segments, texts, spells, allows⟩)
  obtain ⟨changes, _, cached⟩ := cached_of_compile sound compiled
  rw [trimmed] at cached
  exact ⟨path, later, compiled, changes, cached, parts_of_plain cached plain spells⟩

/-! ## Back and forth -/

theorem unbind_eq {path : Path} {type : Value} (root : path.rootType = some type) {body : String}
    (stripped : PathText.toNonStatic path.source = .ok body) :
    unbind path world = compile path.compiler body world := by
  have lifted : lift (PathText.toNonStatic path.source) world = .ok body world := by
    rw [stripped]
    rfl
  have isStatic : path.isStatic = true := by
    rw [Path.isStatic, root]
    rfl
  rw [unbind, if_pos isStatic, bind_of_ok lifted]

/-- A path without a type is bound to a path whose text gives its text back. -/
theorem bind_of_plain {path : Path} (sound : Sound world place)
    (cached : Cached world place (path.source, path)) (matched : (world.registryOf place).Matched)
    (noType : path.rootType = none) {type : Value} {name : String}
    (names : (world.registryOf place).Names world.graph name type) (closed : ')' ∉ name.toList)
    {bound : Path} {later : World} (ended : bind path type world = .ok bound later) :
    Changes world later ∧ Cached later place (bound.source, bound) ∧ bound.rootType = some type ∧
      PathText.toNonStatic bound.source = .ok path.source ∧ ¬ PathText.NamesType path.source := by
  have maker : path.compiler = place := cached.maker
  rw [bind, maker] at ended
  obtain ⟨changes, boundCached, root, body, stripped, source, _⟩ :=
    compileBound_ok sound matched names closed ended
  have plain := plain_of_cached cached noType
  rw [PathText.toNonStatic_of_plain cached.isRead.trimmed plain] at stripped
  obtain rfl : path.source = body := Except.ok.inj stripped
  refine ⟨changes, boundCached, root, ?_, plain⟩
  obtain ⟨parts, _, parsed, _⟩ := boundCached.isRead.read
  have parsed : PathText.parseStatic bound.source = .ok parts := parsed
  have isParts : parts = some ⟨name, path.source⟩ := by
    rw [source] at parsed
    exact PathText.parts_withType closed parsed
  rw [isParts] at parsed
  exact PathText.toNonStatic_of_static boundCached.isRead.trimmed parsed

/-- A path with a type is unbound to a path of the same nodes that has no type. -/
theorem unbind_of_static {path : Path} (sound : Sound world place)
    (limited : (world.compiler place).maxNodes = .number limit)
    (cached : Cached world place (path.source, path)) {owner : Value}
    (root : path.rootType = some owner) {body : String}
    (stripped : PathText.toNonStatic path.source = .ok body) (plain : ¬ PathText.NamesType body)
    (returns : ReportReturns place body world) :
    ∃ unbound later, unbind path world = .ok unbound later ∧ Changes world later ∧
      Cached later place (unbound.source, unbound) ∧ unbound.source = body ∧
      unbound.rootType = none ∧ unbound.nodes.map Node.text = path.nodes.map Node.text := by
  obtain ⟨name, found, texts, _, _, _, strippedAgain, _, spells, nodeTexts⟩ :=
    static_of_cached cached root
  obtain rfl : body = found := Except.ok.inj (stripped.symm.trans strippedAgain)
  have trimmed := PathText.trim_of_spells (PathText.trimEnd_of_toNonStatic stripped) spells
  obtain ⟨unbound, later, compiled, changes, unboundCached, noType, sameTexts⟩ :=
    compile_of_spells sound limited trimmed plain spells
      (by rw [List.length_map]; exact cached.allowed limit limited) returns
  have source : unbound.source = body := unboundCached.source
  refine ⟨unbound, later, ?_, changes, source ▸ unboundCached, source, noType, ?_⟩
  · have maker : path.compiler = place := cached.maker
    rw [unbind_eq root stripped, maker]
    exact compiled
  · rw [sameTexts, nodeTexts]

section Rebinding

variable {path unbound : Path} (matched : (world.registryOf place).Matched)
  (cached : Cached world place (path.source, path)) {owner : Value}
  (root : path.rootType = some owner) (maker : unbound.compiler = place)
  (stripped : PathText.toNonStatic path.source = .ok unbound.source)
  (plain : ¬ PathText.NamesType unbound.source)
  (trimmed : Text.trim unbound.source = unbound.source)

include matched cached root maker stripped plain trimmed

/-- What was unbound is bound to the same type again. -/
theorem bind_of_unbind (sound : Sound world place) {bound : Path} {later : World}
    (ended : bind unbound owner world = .ok bound later) : bound.equal path = true := by
  obtain ⟨name, body, _, source, closed, registered, strippedAgain, _⟩ :=
    static_of_cached cached root
  obtain rfl : unbound.source = body := Except.ok.inj (stripped.symm.trans strippedAgain)
  rw [bind, maker] at ended
  obtain ⟨_, _, _, body, strippedPlain, boundSource, _⟩ :=
    compileBound_ok sound matched (.inl registered) closed ended
  rw [PathText.toNonStatic_of_plain trimmed plain] at strippedPlain
  obtain rfl : unbound.source = body := Except.ok.inj strippedPlain
  rw [Path.equal, boundSource, source, beq_self_eq_true]

/-- If the path with the type is still cached, it is that path which is bound again. -/
theorem bind_of_unbind_cached (found : world.cached? place path.source = some path) :
    ∃ later, bind unbound owner world = .ok path later := by
  obtain ⟨name, body, _, source, closed, registered, strippedAgain, _⟩ :=
    static_of_cached cached root
  obtain rfl : unbound.source = body := Except.ok.inj (stripped.symm.trans strippedAgain)
  have asked := boundText_of_registered matched registered
    (PathText.toNonStatic_of_plain trimmed plain)
  rw [← source] at asked
  refine ⟨world.setRegistry (world.compiler place).registry (world.registryOf place), ?_⟩
  rw [bind, maker, compileBound, bind_of_ok asked]
  have sameTrimmed : Text.trim path.source = path.source := cached.isRead.trimmed
  exact compile_of_cached (by rw [sameTrimmed]; exact cached.isRead.notEmpty)
    (by rw [sameTrimmed]; exact found)

end Rebinding

/-- In every world that is reached from fresh caches, with a number for the limit of the nodes: a
path without a type that was bound to a type, known by a name without a closing parenthesis, is
unbound to an equal path; and a path with a type is unbound to a path without a type that has the
same nodes, and which, bound to that type again, gives an equal path, if the text that is left does
not itself name a type.  No handler may fail on the report of a path that is unbound. -/
theorem static_forms_are_inverse {mark : Nat} {start : World} (fresh : Fresh start place)
    (matched : ∀ name, (start.registry name).Matched) (reached : Reached place start world mark)
    (limited : (world.compiler place).maxNodes = .number limit) :
    (∀ path, Made place start world path → path.rootType = none → ∀ type name,
      (world.registryOf place).Names world.graph name type → ')' ∉ name.toList →
      ∀ bound later, bind path type world = .ok bound later →
      ∀ further passed, Reached place later further passed →
      ReportReturns place path.source further →
        ∃ unbound final, unbind bound further = .ok unbound final ∧ unbound.equal path = true) ∧
      ∀ path owner, Made place start world path → path.rootType = some owner →
        ∃ body, PathText.toNonStatic path.source = .ok body ∧
          (¬ PathText.NamesType body → ReportReturns place body world →
            ∃ unbound later, unbind path world = .ok unbound later ∧ unbound.isStatic = false ∧
              unbound.nodes.map Node.text = path.nodes.map Node.text ∧
              ∀ further passed, Reached place later further passed →
                (∀ bound final, bind unbound owner further = .ok bound final →
                  bound.equal path = true) ∧
                (further.cached? place path.source = some path →
                  ∃ final, bind unbound owner further = .ok path final)) := by
  have sound := reached.sound fresh.sound
  have matched := reached.matched matched
  constructor
  · intro path made noType type name names closed bound later ended further passed onward returns
    obtain ⟨changes, boundCached, root, stripped, plain⟩ :=
      bind_of_plain sound (made.cached fresh) (matched _) noType names closed ended
    have limitedFurther : (further.compiler place).maxNodes = .number limit := by
      rw [onward.maxNodes, changes.maxNodes, limited]
    obtain ⟨unbound, final, ended, _, _, source, _⟩ := unbind_of_static
      (onward.sound (changes.sound sound)) limitedFurther (onward.cached boundCached) root stripped
      plain returns
    exact ⟨unbound, final, ended, by rw [Path.equal, source, beq_self_eq_true]⟩
  -- The other way round the path is bound already, and the name that its type is registered under
  -- is the one in its text.
  · intro path owner made root
    have cached := made.cached fresh
    obtain ⟨_, body, _, _, _, _, stripped, _⟩ := static_of_cached cached root
    refine ⟨body, stripped, fun plain returns => ?_⟩
    obtain ⟨unbound, later, ended, changes, unboundCached, source, noType, nodes⟩ :=
      unbind_of_static sound limited cached root stripped plain returns
    refine ⟨unbound, later, ended, by rw [Path.isStatic, noType]; rfl, nodes,
      fun further passed onward => ?_⟩
    have furtherMatched := onward.matched (changes.matched matched) (further.compiler place).registry
    have furtherCached := onward.cached (changes.cached cached)
    rw [← source] at stripped plain
    exact ⟨fun bound final ended => bind_of_unbind furtherMatched furtherCached root
        unboundCached.maker stripped plain unboundCached.isRead.trimmed
        (onward.sound (changes.sound sound)) ended,
      bind_of_unbind_cached furtherMatched furtherCached root unboundCached.maker stripped plain
        unboundCached.isRead.trimmed⟩

/-- A path that is bound to a registered class is unbound, and bound again it is the same path. -/
theorem static_forms_are_inverse_of_call :
    let world := stateAfter (register World.standardRegistry "A" (.object BuiltinClass.number.place))
      (World.initial .standard)
    ∃ path later unbound further final,
      compile World.standardPlace "class(A)m(k)" world = .ok path later ∧
        unbind path later = .ok unbound further ∧
        unbound.nodes.map Node.text = path.nodes.map Node.text ∧ unbound.isStatic = false ∧
        bind unbound (.object BuiltinClass.number.place) further = .ok path final := by
  intro world
  have registering : Reached World.standardPlace (World.initial .standard) world 0 :=
    .registered _ _ _ .start
  have sound := registering.sound (fresh_initial .standard).sound
  have registered : (world.registryOf World.standardPlace).type? (.string "A") =
      some (.object BuiltinClass.number.place) := by decide
  have parsed : PathText.parseStatic "class(A)m(k)" = .ok (some ⟨"A", "m(k)"⟩) := rfl
  have limited : (world.compiler World.standardPlace).maxNodes = .number (.ofNat 64) := rfl
  obtain ⟨path, later, compiled, root, _⟩ := compile_of_arguments sound limited (by decide) rfl
    (reportReturns_of_unhandled _ rfl) parsed registered spells_call
    (Number.allows_ofNat.2 (by decide)) (by decide)
  obtain ⟨changes, found, cached⟩ := cached_of_compile sound compiled
  have source : path.source = "class(A)m(k)" := cached.source
  have reached : Reached World.standardPlace (World.initial .standard) later 0 := by
    have asked : compileValues World.standardPlace [.string "class(A)m(k)"] world =
        .ok path later := compiled
    rw [← stateAfter_of_ok asked]
    exact .compiled _ _ registering
  have made : Made World.standardPlace (World.initial .standard) later path :=
    ⟨later, _, _, reached, .start, by rw [source]; exact Entries.mem_of_get? found⟩
  obtain ⟨_, inverse⟩ := static_forms_are_inverse (fresh_initial .standard)
    (matched_initial .standard) reached (by rw [changes.maxNodes, limited])
  obtain ⟨body, stripped, unbinds⟩ := inverse path _ made root
  obtain rfl : "m(k)" = body := by
    rw [source] at stripped
    exact Except.ok.inj stripped
  have plain : ¬ PathText.NamesType "m(k)" := by
    rw [PathText.NamesType]
    decide
  obtain ⟨unbound, further, unbinding, isPlain, nodes, again⟩ := unbinds plain
    (reportReturns_of_unhandled _ (unhandled_of_compile rfl compiled))
  have kept : further.cached? World.standardPlace path.source = some path := by
    have compiledAgain : compile World.standardPlace "m(k)" later = .ok unbound further := by
      rw [unbind_eq root stripped] at unbinding
      rwa [show path.compiler = World.standardPlace from cached.maker] at unbinding
    have laterSound := changes.sound sound
    rw [source]
    exact (cached_of_compile laterSound compiledAgain).1.cached? laterSound.present found
  obtain ⟨final, bound⟩ := (again further _ .start).2 kept
  exact ⟨path, later, unbound, further, final, compiled, unbinding, nodes, isPlain, bound⟩

/-- A text whose type cannot be read does not compile. -/
theorem compile_of_unparsed (sound : Sound world place) {text : String} (notEmpty : text ≠ "")
    (trimmed : Text.trim text = text) {fault : Fault}
    (unparsed : PathText.parseStatic text = .error fault) :
    compile place text world = .error fault world := by
  have uncached : world.cached? place text = none := by
    cases found : world.cached? place text with
    | none => rfl
    | some path =>
        have cached := sound.cached _ (Entries.mem_of_get? found)
        have source : path.source = text := cached.source
        obtain ⟨parts, _, parsed, _⟩ := cached.isRead.read
        rw [source, unparsed] at parsed
        cases parsed
  have unmade : newPath place text world = .error fault world := by
    have start : lift (PathText.parseStatic text) world = .error fault world := by
      rw [unparsed]
      rfl
    rw [newPath, bind_of_error start]
  rw [World.cached?] at uncached
  rw [compile_eq, compileWith, trimmed, if_neg notEmpty, bind_get, uncached]
  dsimp only
  rw [makePath, bind_of_error unmade]

/-- A class is registered, and a path is bound to it that starts with a call of a method named
`class`: unbinding it is refused. -/
theorem static_form_is_not_unbound :
    let world := stateAfter (register World.standardRegistry "A" (.object BuiltinClass.string.place))
      (World.initial .standard)
    ∃ path later, compile World.standardPlace "class(A)class(k)" world = .ok path later ∧
      path.rootType = some (.object BuiltinClass.string.place) ∧
      path.nodes.map Node.form = [⟨.method "class" ["k"], []⟩] ∧
      unbind path later = .error (.invalidExpression "class(k)" .noNodes none) later := by
  intro world
  have reached : Reached World.standardPlace (World.initial .standard) world 0 :=
    .registered _ _ _ .start
  have sound := reached.sound (fresh_initial .standard).sound
  have registered : (world.registryOf World.standardPlace).type? (.string "A") =
      some (.object BuiltinClass.string.place) := by decide
  have limited : (world.compiler World.standardPlace).maxNodes = .number (.ofNat 64) := rfl
  have parsed : PathText.parseStatic "class(A)class(k)" = .ok (some ⟨"A", "class(k)"⟩) := rfl
  have keys : KeysSpell ["k"] ['k'] := .last (by decide) ⟨[], [], by decide, by decide, by decide⟩
  have start : Base.Spells (.method "class" ["k"]) ("class".toList ++ '(' :: ['k'] ++ [')']) :=
    .method (by decide) keys
  have spells : PathText.Spells [⟨.method "class" ["k"], []⟩] ["class(k)".toList]
      "class(k)".toList :=
    ⟨by simp, .cons (Form.spells_base.2 ⟨start, by simp⟩) .nil, by decide⟩
  obtain ⟨path, later, compiled, root, forms⟩ := compile_of_arguments sound limited (by decide) rfl
    (reportReturns_of_unhandled _ rfl) parsed registered spells (Number.allows_ofNat.2 (by decide))
    (by decide)
  obtain ⟨changes, _, cached⟩ := cached_of_compile sound compiled
  have source : path.source = "class(A)class(k)" := cached.source
  have maker : path.compiler = World.standardPlace := cached.maker
  have stripped : PathText.toNonStatic path.source = .ok "class(k)" := by
    rw [source]
    rfl
  refine ⟨path, later, compiled, root, forms, ?_⟩
  rw [unbind_eq root stripped, maker]
  exact compile_of_unparsed (changes.sound sound) (by decide) (by decide) rfl

end Session

end ObjectPath
