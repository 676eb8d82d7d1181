import ObjectPath.Proofs.Binding
import ObjectPath.Proofs.Walking

/-!
# Static texts that are accepted

A static text names a type and spells a path behind it.  It becomes a path exactly if the name is
bound, the path is not longer than its compiler allows, and the types can be walked along the
segments before the first one that takes arguments.  Whether the compilation returns as well is up
to the handlers of its report.
-/

namespace ObjectPath

namespace PathText

/-- A text spells a static path: it names a type up to the first closing parenthesis, and what is
behind it spells segments. -/
def SpellsStatic (name : String) (segments : List Form) (source : String) : Prop :=
  name ≠ "" ∧ ')' ∉ name.toList ∧
    ∃ body texts, source = withType name body ∧ body ≠ "" ∧ Spells segments texts body.toList

theorem parseStatic_withType {name body : String} (named : name ≠ "") (closed : ')' ∉ name.toList)
    (notEmpty : body ≠ "") : parseStatic (withType name body) = .ok (some ⟨name, body⟩) := by
  have found : Text.cutAt ')' (name.toList ++ ')' :: body.toList) =
      some (name.toList, body.toList) := Text.cutAt_eq_some.2 ⟨closed, rfl⟩
  unfold parseStatic
  rw [toList_withType, afterStaticMark?_append]
  dsimp only
  rw [found]
  split
  · rename_i impossible
    cases impossible
  · rename_i nothing
    exact absurd (String.toList_eq_nil_iff.1 (Prod.mk.inj (Option.some.inj nothing)).1) named
  · rename_i nothing
    exact absurd (String.toList_eq_nil_iff.1 (Prod.mk.inj (Option.some.inj nothing)).2) notEmpty
  · rename_i same
    cases same
    simp

/-- What names a type has two parts, if it can be taken apart. -/
theorem NamesType.exists_parts {text : String} (namesType : NamesType text)
    {parts : Option StaticParts} (parsed : parseStatic text = .ok parts) :
    ∃ found, parts = some found := by
  obtain ⟨rest, isStatic⟩ := namesType
  unfold parseStatic at parsed
  rw [← isStatic, afterStaticMark?_append] at parsed
  dsimp only at parsed
  split at parsed <;> cases parsed
  exact ⟨_, rfl⟩

theorem namesType_withType (name body : String) : NamesType (withType name body) := by
  rw [NamesType, toList_withType]
  exact List.prefix_append ..

theorem NamesType.ne_empty {text : String} (namesType : NamesType text) : text ≠ "" := by
  rintro rfl
  exact absurd (List.prefix_nil.1 namesType) (by decide)

theorem parseStatic_error {text : String} {fault : Fault}
    (failed : parseStatic text = .error fault) :
    ∃ reason cause, fault = .invalidExpression text reason cause := by
  unfold parseStatic at failed
  split at failed
  · cases failed
  · split at failed <;> cases failed <;> exact ⟨_, _, rfl⟩

/-- What spells a static path can be taken apart. -/
theorem SpellsStatic.parts {name source : String} {segments : List Form}
    (spells : SpellsStatic name segments source) :
    ∃ body texts, parseStatic source = .ok (some ⟨name, body⟩) ∧
      Spells segments texts body.toList := by
  obtain ⟨named, closed, body, texts, rfl, notEmpty, spelled⟩ := spells
  exact ⟨body, texts, parseStatic_withType named closed notEmpty, spelled⟩

/-- What a text spells is spelled by the parts that it is taken apart into. -/
theorem SpellsStatic.of_parts {name other body source : String} {segments : List Form}
    (spells : SpellsStatic other segments source)
    (parsed : parseStatic source = .ok (some ⟨name, body⟩)) :
    other = name ∧ ∃ texts, Spells segments texts body.toList := by
  obtain ⟨own, texts, whole, spelled⟩ := spells.parts
  obtain ⟨rfl, rfl⟩ := StaticParts.mk.inj (Option.some.inj
    (Except.ok.inj (whole.symm.trans parsed)))
  exact ⟨rfl, texts, spelled⟩

theorem SpellsStatic.namesType {name source : String} {segments : List Form}
    (spells : SpellsStatic name segments source) : NamesType source := by
  obtain ⟨_, _, body, _, rfl, _⟩ := spells
  exact namesType_withType name body

/-- A text spells one static path at most. -/
theorem SpellsStatic.unique {name otherName source : String} {segments others : List Form}
    (spells : SpellsStatic name segments source)
    (spellsOthers : SpellsStatic otherName others source) :
    name = otherName ∧ segments = others := by
  obtain ⟨body, texts, parsed, spelled⟩ := spells.parts
  obtain ⟨rfl, otherTexts, spelledOther⟩ := spellsOthers.of_parts parsed
  exact ⟨rfl, (spelled.unique spelledOther).1⟩

end PathText

/-- What a world asks of a static text: it spells a path whose length a limit allows, the name in
it is bound to a type, and the types can be walked from there along the segments before the first
one that takes arguments. -/
structure World.AcceptsStatic (world : World) (place : Nat) (limit : Number) (source name : String)
    (owner : Value) (segments : List Form) : Prop where
  spells : PathText.SpellsStatic name segments source
  bound : (world.registryOf place).type? (.string name) = some owner
  allowed : limit.Allows segments.length
  resolves : Resolves (world.compiler place).resolver (Form.leading segments) owner .onClass
    world.graph

namespace Session

open World

variable {world : World} {place : Nat} {source : String} {limit : Number}

/-! ## New paths -/

theorem nodesOf_graph (place : Nat) (source : String) (segments : List String) (world : World) :
    Ensures (nodesOf place source segments) world (fun _ later => later.graph = world.graph)
      fun _ later => later.graph = world.graph := by
  induction segments generalizing world with
  | nil => rfl
  | cons segment rest inductionHypothesis =>
      have first : Ensures (nodeOf place source segment) world
          (fun _ later => later.graph = world.graph) fun _ later => later.graph = world.graph := by
        refine Ensures.get_bind ?_
        split <;> rfl
      unfold nodesOf
      refine first.bind fun node middle same => ?_
      refine Ensures.bind ((inductionHypothesis middle).mono (fun _ _ further => further.trans same)
        fun _ _ further => further.trans same) fun _ _ kept => kept

theorem rootTypeOf_of_unbound (source : String) (parts : PathText.StaticParts)
    (unbound : (world.registryOf place).type? (.string parts.typeName) = none) :
    ∃ cause, rootTypeOf place source (some parts) world =
      .error (.invalidExpression source (.unknownType parts.typeName) (some cause)) world := by
  rw [World.registryOf] at unbound
  unfold rootTypeOf
  dsimp only
  rw [bind_get, Registry.resolve, unbound]
  exact ⟨_, rfl⟩

/-- The parts of a text make a path of a type if the types can be walked along the segments that
they spell. -/
theorem walkedPath_ensures {name body : String} {owner : Value} {parts : List String}
    (sound : Sound world place) (split : PathText.splitSegments source body = .ok parts) :
    Ensures (do
      let nodes ← nodesOf place source parts
      checkTypes place source name owner nodes
      let path ← enterPath place source nodes (some owner)
      pure (path, some name)) world
      (fun made _ => made.1.rootType = some owner ∧
        (∃ texts, PathText.Spells (made.1.nodes.map Node.form) texts body.toList) ∧
        Resolves (world.compiler place).resolver (Form.leading (made.1.nodes.map Node.form)) owner
          .onClass world.graph)
      fun fault _ => (∃ reason cause, fault = .invalidExpression source reason cause) ∧
        ∀ segments texts, PathText.Spells segments texts body.toList →
          ¬ Resolves (world.compiler place).resolver (Form.leading segments) owner .onClass
            world.graph := by
  refine Ensures.bind_weaker ((nodesOf_spells split sound.faithful).and
    (nodesOf_graph place source parts world)) ?_ ?_
  · rintro fault _ ⟨⟨_, named, spellsNot⟩, _⟩
    exact ⟨named, fun segments texts spells => absurd spells (spellsNot segments texts)⟩
  rintro nodes interned ⟨⟨prepared, _, spelled⟩, sameGraph⟩
  have spells := spelled sound.present
  have sameResolver : (interned.compiler place).resolver = (world.compiler place).resolver := by
    obtain ⟨table, same, _⟩ := prepared.idle.compiler place
    rw [same]
  have walk := checkTypes_resolves place source name owner nodes interned
  rw [sameResolver, sameGraph] at walk
  refine walk.bind_weaker ?_ ?_
  · rintro fault _ ⟨⟨cause, rfl⟩, resolvesNot⟩
    refine ⟨⟨_, _, rfl⟩, fun segments texts others => ?_⟩
    rwa [(others.unique spells).1]
  rintro _ walked resolves
  refine Ensures.bind_weaker (enterPath_ensures place source nodes (some owner) walked) ?_ ?_
  · rintro fault _ ⟨_, nothing, _⟩
    rw [nothing] at spells
    exact absurd rfl spells.1
  · rintro path _ ⟨_, _, _, rfl, isRoot⟩
    exact ⟨isRoot, ⟨_, spells⟩, resolves⟩

/-- A new path is made of the parts of a static text exactly if the text is accepted. -/
theorem newPath_of_parts {name body : String}
    (parsed : PathText.parseStatic source = .ok (some ⟨name, body⟩)) (sound : Sound world place)
    (limited : (world.compiler place).maxNodes = .number limit) :
    Ensures (newPath place source) world
      (fun made _ => ∃ owner, made.1.rootType = some owner ∧
        world.AcceptsStatic place limit source name owner (made.1.nodes.map Node.form))
      fun fault _ => (∃ reason cause, fault = .invalidExpression source reason cause) ∧
        ∀ other owner segments, ¬ world.AcceptsStatic place limit source other owner segments := by
  obtain ⟨isStatic, closed, named, notEmpty⟩ := PathText.eq_withType_of_parseStatic parsed
  unfold newPath
  rw [parsed]
  refine Ensures.ok_bind rfl ?_
  -- The text is refused at the first of its parts that fails, and then no spelling of it is
  -- accepted.
  cases bound : (world.registryOf place).type? (.string name) with
  | none =>
      obtain ⟨cause, unresolved⟩ := rootTypeOf_of_unbound source ⟨name, body⟩ bound
      refine Ensures.error_bind unresolved ⟨⟨_, _, rfl⟩, fun other owner segments accepts => ?_⟩
      have found := accepts.bound
      rw [(accepts.spells.of_parts parsed).1, bound] at found
      cases found
  | some owner =>
      have resolved : rootTypeOf place source (some ⟨name, body⟩) world = .ok (some owner) world :=
        rootTypeOf_of_resolved source (congrArg some bound)
      refine Ensures.ok_bind resolved ?_
      dsimp only [Option.map_some, Option.getD_some]
      cases split : PathText.splitSegments source body with
      | error fault =>
          obtain ⟨fails, spellsNot⟩ := PathText.not_spells_of_split_error split
          refine ⟨fails, fun other type segments accepts => ?_⟩
          obtain ⟨_, texts, spells⟩ := accepts.spells.of_parts parsed
          exact spellsNot _ _ spells
      | ok texts =>
          refine Ensures.ok_bind rfl ?_
          by_cases allows : limit.Allows texts.length
          · refine Ensures.ok_bind (checkCount_of_allows source limited allows) ?_
            refine (walkedPath_ensures sound split).mono ?_ ?_
            · rintro made _ ⟨isRoot, ⟨texts, spells⟩, resolves⟩
              exact ⟨owner, isRoot, ⟨named, closed, body, texts, isStatic, notEmpty, spells⟩, bound,
                (spells.parts split).2 ▸ allows, resolves⟩
            · rintro fault _ ⟨fails, resolvesNot⟩
              refine ⟨fails, fun other type segments accepts => ?_⟩
              obtain ⟨rfl, texts, spells⟩ := accepts.spells.of_parts parsed
              obtain rfl := Option.some.inj (accepts.bound.symm.trans bound)
              exact resolvesNot segments texts spells accepts.resolves
          · refine Ensures.error_bind (checkCount_of_exceeded source limited allows)
              ⟨⟨_, _, rfl⟩, fun other type segments accepts => ?_⟩
            obtain ⟨_, _, spells⟩ := accepts.spells.of_parts parsed
            exact allows ((spells.parts split).2 ▸ accepts.allowed)

/-- A new path is made of a static text exactly if the text is accepted.  The path starts from the
type that is named, and its nodes are the segments that are spelled. -/
theorem newPath_static (namesType : PathText.NamesType source) (sound : Sound world place)
    (limited : (world.compiler place).maxNodes = .number limit) :
    Ensures (newPath place source) world
      (fun made _ => ∃ name owner, made.1.rootType = some owner ∧
        world.AcceptsStatic place limit source name owner (made.1.nodes.map Node.form))
      fun fault _ => (∃ reason cause, fault = .invalidExpression source reason cause) ∧
        ∀ name owner segments, ¬ world.AcceptsStatic place limit source name owner segments := by
  cases parsed : PathText.parseStatic source with
  | error fault =>
      have failed : lift (PathText.parseStatic source) world = .error fault world := by
        rw [parsed]
        rfl
      refine Ensures.error_bind failed
        ⟨PathText.parseStatic_error parsed, fun name owner segments accepts => ?_⟩
      obtain ⟨body, texts, whole, _⟩ := accepts.spells.parts
      cases parsed.symm.trans whole
  | ok parts =>
      obtain ⟨⟨name, body⟩, rfl⟩ := namesType.exists_parts parsed
      exact (newPath_of_parts parsed sound limited).mono
        (fun _ _ ⟨owner, isRoot, accepts⟩ => ⟨name, owner, isRoot, accepts⟩) fun _ _ => id

/-- A path of what is spelled is made of a text that is accepted. -/
theorem newPath_of_accepts (sound : Sound world place)
    (limited : (world.compiler place).maxNodes = .number limit) {name : String} {owner : Value}
    {segments : List Form}
    (accepts : world.AcceptsStatic place limit source name owner segments) :
    ∃ path typeName later, newPath place source world = .ok (path, typeName) later ∧
      path.rootType = some owner ∧ path.nodes.map Node.form = segments := by
  have makes := newPath_static accepts.spells.namesType sound limited
  cases made : newPath place source world with
  | error fault later => exact absurd accepts ((makes.error made).2 name owner segments)
  | ok result later =>
      obtain ⟨path, typeName⟩ := result
      obtain ⟨other, type, isRoot, own⟩ := makes.ok made
      obtain ⟨rfl, sameSegments⟩ := own.spells.unique accepts.spells
      obtain rfl := Option.some.inj (own.bound.symm.trans accepts.bound)
      exact ⟨path, typeName, later, rfl, isRoot, sameSegments⟩

/-! ## Compiling static texts -/

/-- A text that is accepted compiles to a path of what it spells. -/
theorem compile_of_acceptsStatic {text : String} (sound : Sound world place)
    (limited : (world.compiler place).maxNodes = .number limit)
    (uncached : world.cached? place (Text.trim text) = none)
    (returns : ReportReturns place (Text.trim text) world) {name : String} {owner : Value}
    {segments : List Form}
    (accepts : world.AcceptsStatic place limit (Text.trim text) name owner segments) :
    ∃ path later, compile place text world = .ok path later ∧ path.rootType = some owner ∧
      path.nodes.map Node.form = segments := by
  have notEmpty := accepts.spells.namesType.ne_empty
  obtain ⟨path, _, _, made, isRoot, sameSegments⟩ := newPath_of_accepts sound limited accepts
  obtain ⟨found, later, compiled⟩ :=
    (compile_ok_iff_of_uncached notEmpty uncached).2 ⟨⟨_, _, made⟩, returns⟩
  obtain ⟨_, _, again, _⟩ := newPath_of_compile uncached compiled
  cases made.symm.trans again
  exact ⟨path, later, compiled, isRoot, sameSegments⟩

/-- A static text that is not cached compiles exactly if it is accepted and its report returns.
If it is not accepted, the fault names it, no compiler has cached anything and nothing has been
logged.  If it is accepted, a path of what it spells is cached for it, whatever the handlers of the
report do, and the walks along the declared types to all nodes before the first one that takes
arguments return. -/
theorem compile_static_iff_accepts {mark : Nat} {start : World} (fresh : Fresh start place)
    (reached : Reached place start world mark) {text : String}
    (namesType : PathText.NamesType (Text.trim text))
    (limited : (world.compiler place).maxNodes = .number limit)
    (uncached : world.cached? place (Text.trim text) = none) :
    ((∃ path later, compile place text world = .ok path later) ↔
        (∃ name owner segments,
          world.AcceptsStatic place limit (Text.trim text) name owner segments) ∧
          ReportReturns place (Text.trim text) world) ∧
      ((∀ name owner segments,
          ¬ world.AcceptsStatic place limit (Text.trim text) name owner segments) →
        ∃ reason cause later, compile place text world =
            .error (.invalidExpression (Text.trim text) reason cause) later ∧
          later.events = world.events ∧
          ∀ other, (later.compiler other).expressions = (world.compiler other).expressions) ∧
      ∀ name owner segments, world.AcceptsStatic place limit (Text.trim text) name owner segments →
        ∃ path, (stateAfter (compile place text) world).cached? place (Text.trim text) = some path ∧
          (∀ made later, compile place text world = .ok made later → made = path) ∧
          path.rootType = some owner ∧ path.nodes.map Node.form = segments ∧
          ∀ index < (Form.leading segments).length, ∃ member graph,
            memberAlong (world.compiler place).resolver none path.nodes index owner .onClass
              world.graph = .ok member graph := by
  have sound := reached.sound fresh.sound
  have notEmpty := namesType.ne_empty
  have makes := newPath_static namesType sound limited
  -- All three parts are read off one account of what making a new path comes to.
  refine ⟨?_, fun refuses => ?_, fun name owner segments accepts => ?_⟩
  · rw [compile_ok_iff_of_uncached notEmpty uncached]
    refine and_congr_left fun _ => ⟨?_, ?_⟩
    · rintro ⟨made, later, isNew⟩
      obtain ⟨name, owner, _, accepts⟩ := makes.ok isNew
      exact ⟨name, owner, _, accepts⟩
    · rintro ⟨name, owner, segments, accepts⟩
      obtain ⟨path, typeName, later, made, _⟩ := newPath_of_accepts sound limited accepts
      exact ⟨_, later, made⟩
  · cases made : newPath place (Text.trim text) world with
    | ok result later =>
        obtain ⟨name, owner, _, accepts⟩ := makes.ok made
        exact absurd accepts (refuses name owner _)
    | error fault later =>
        obtain ⟨⟨reason, cause, rfl⟩, _⟩ := makes.error made
        have idle := ((newPath_ensures place (Text.trim text) world).error made).idle
        refine ⟨reason, cause, later, compile_of_newPath_error notEmpty uncached made, idle.events,
          fun other => ?_⟩
        obtain ⟨table, same, _⟩ := idle.compiler other
        rw [same]
  · obtain ⟨path, typeName, later, made, isRoot, rfl⟩ := newPath_of_accepts sound limited accepts
    have stays := stateAfter_compile_of_newPath sound.present notEmpty uncached made
    refine ⟨path, stays, fun again final compiled => ?_, isRoot, rfl, ?_⟩
    · rw [stateAfter_of_ok compiled] at stays
      exact Option.some.inj ((cached_of_compile sound compiled).2.1.symm.trans stays)
    · exact resolves_leading_iff_forall.1 accepts.resolves

/-- A text with one segment behind its type is accepted if the segment can be walked. -/
theorem acceptsStatic_of_segment {name body : String} {owner : Value} {segment : Form}
    (whole : source = PathText.withType name body) (named : name ≠ "") (closed : ')' ∉ name.toList)
    (notEmpty : body ≠ "") (bound : (world.registryOf place).type? (.string name) = some owner)
    (spells : segment.Spells body.toList) (allowed : limit.Allows 1)
    (resolves : Resolves (world.compiler place).resolver (Form.leading [segment]) owner .onClass
      world.graph) : world.AcceptsStatic place limit source name owner [segment] where
  spells := ⟨named, closed, body, [body.toList], whole, notEmpty, by simp, .cons spells .nil,
    List.intercalate_singleton.symm⟩
  bound := bound
  allowed := allowed
  resolves := resolves

/-- The world in which the class of texts is registered under a name. -/
def namedString : World :=
  stateAfter (register World.standardRegistry "A" (.object BuiltinClass.string.place))
    (World.initial .standard)

theorem reached_namedString : Reached World.standardPlace (World.initial .standard) namedString 0 :=
  .registered _ _ _ .start

/-- The name of the class of texts is a static field of it. -/
theorem member?_name_string :
    (Base.field "name").member? .standard (.object BuiltinClass.string.place) .onClass
        namedString.graph =
      .ok (some (.field (openField (.object BuiltinClass.string.place) "name" .onClass)))
        namedString.graph :=
  rfl

theorem compile_static_iff_accepts_of_string :
    namedString.AcceptsStatic World.standardPlace (.ofNat 64) "class(A)name.length.m(k)" "A"
        (.object BuiltinClass.string.place)
        [⟨.field "name", []⟩, ⟨.field "length", []⟩, ⟨.method "m" ["k"], []⟩] ∧
      ∃ path later, compile World.standardPlace " class(A)name.length.m(k)" namedString =
          .ok path later ∧
        path.nodes.map Node.form =
          [⟨.field "name", []⟩, ⟨.field "length", []⟩, ⟨.method "m" ["k"], []⟩] := by
  have trimmed : Text.trim " class(A)name.length.m(k)" = "class(A)name.length.m(k)" := by decide
  have word : ∀ name, Text.isIdentifier name = true →
      (⟨.field name, []⟩ : Form).Spells name.toList := fun name identifier =>
    Form.spells_base.2 ⟨.field identifier, by simp⟩
  have spells : PathText.Spells
      [⟨.field "name", []⟩, ⟨.field "length", []⟩, ⟨.method "m" ["k"], []⟩]
      ["name".toList, "length".toList, "m(k)".toList] "name.length.m(k)".toList :=
    ⟨by simp, .cons (word _ (by decide)) (.cons (word _ (by decide)) spells_call.2.1), by decide⟩
  have accepts : namedString.AcceptsStatic World.standardPlace (.ofNat 64)
      "class(A)name.length.m(k)" "A" (.object BuiltinClass.string.place)
      [⟨.field "name", []⟩, ⟨.field "length", []⟩, ⟨.method "m" ["k"], []⟩] :=
    { spells := ⟨by decide, by decide, _, _, by decide, by decide, spells⟩
      bound := rfl
      allowed := Number.allows_ofNat.2 (by decide)
      resolves := .step member?_name_string rfl (.last rfl) }
  have namesType : PathText.NamesType (Text.trim " class(A)name.length.m(k)") := by
    rw [trimmed]
    exact PathText.namesType_withType "A" "name.length.m(k)"
  obtain ⟨compiles, _, paths⟩ := compile_static_iff_accepts (fresh_initial .standard)
    reached_namedString namesType rfl rfl
  rw [trimmed] at compiles paths
  obtain ⟨path, later, compiled⟩ := compiles.2
    ⟨⟨_, _, _, accepts⟩, reportReturns_of_unhandled _ rfl⟩
  obtain ⟨found, _, same, _, forms, _⟩ := paths _ _ _ accepts
  obtain rfl := same path later compiled
  exact ⟨accepts, path, later, compiled, forms⟩

/-- A text that is accepted does not compile if a handler of its report raises a fault, and its
path is cached all the same. -/
theorem handler_refuses_accepted_text :
    let world := stateAfter
      (subscribe World.standardPlace .compiled "guard" ⟨.compiled, .raise "refused"⟩) namedString
    world.cached? World.standardPlace "class(A)name" = none ∧
      world.AcceptsStatic World.standardPlace (.ofNat 64) "class(A)name" "A"
        (.object BuiltinClass.string.place) [⟨.field "name", []⟩] ∧
      ∃ path later, compile World.standardPlace "class(A)name" world =
          .error (.raised "refused") later ∧
        later.cached? World.standardPlace "class(A)name" = some path := by
  intro world
  have accepts : world.AcceptsStatic World.standardPlace (.ofNat 64) "class(A)name" "A"
      (.object BuiltinClass.string.place) [⟨.field "name", []⟩] :=
    acceptsStatic_of_segment (by decide) (by decide) (by decide) (by decide) rfl
      (Form.spells_base.2 ⟨.field (by decide), by simp⟩) (Number.allows_ofNat.2 (by decide))
      (.last member?_name_string)
  have sound : Sound world World.standardPlace := Fresh.sound ⟨by decide, rfl, rfl⟩
  have handled : (world.compiler World.standardPlace).handlers .compiled = ["guard"] := rfl
  have raises : Entries.get? world.handlers "guard" = some ⟨.compiled, .raise "refused"⟩ := rfl
  obtain ⟨path, _, _, made, _⟩ := newPath_of_accepts sound rfl accepts
  exact ⟨rfl, accepts, path, compile_of_raise sound.present (by decide) rfl handled raises made⟩

end Session

end ObjectPath
