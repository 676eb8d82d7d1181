import ObjectPath.Path.Operations
import ObjectPath.Proofs.Members
import ObjectPath.Proofs.Resolving

/-!
# Where static paths start

A static path starts from its root type.  If its first node takes no arguments and names a member,
the member is a static one, and it was there when the path was made.  A first node that is nothing
but indices names no member, and the type walk passes over it.
-/

namespace ObjectPath

/-- The name that the start of a segment gives. -/
def Base.name? : Base → Option String
  | .nothing => none
  | .field name => some name
  | .method name _ => some name

theorem Base.eq_nothing_of_name? {base : Base} (unnamed : base.name? = none) : base = .nothing := by
  cases base with
  | nothing => rfl
  | _ => cases unnamed

/-- Where a segment starts with a name, the member that is found is of this name. -/
theorem Base.member?_meets {base : Base} {name : String} (named : base.name? = some name)
    (resolver : Resolver) (owner : Value) (scope : Scope) :
    Gives (base.member? resolver owner scope) fun member =>
      ∃ found, member = some found ∧ found.Meets owner (resolver.actualName name) scope := by
  cases base with
  | nothing => cases named
  | field own =>
      obtain rfl := Option.some.inj named
      intro graph member later ended
      obtain ⟨field, middle, found, given⟩ := ok_of_bind ended
      cases given
      exact ⟨_, rfl, findField_meets owner _ scope none graph field _ found⟩
  | method own keys =>
      obtain rfl := Option.some.inj named
      intro graph member later ended
      obtain ⟨method, middle, found, given⟩ := ok_of_bind ended
      cases given
      exact ⟨_, rfl, findMethod_meets resolver owner _ [] scope none graph method _ found⟩

/-- The text of a path with a root type names a type. -/
theorem Path.IsRead.namesType {registry : Registry} {path : Path} (isRead : path.IsRead registry)
    {owner : Value} (isRoot : path.rootType = some owner) : PathText.NamesType path.source := by
  obtain ⟨parts, _, parsed, resolved, _⟩ := isRead.read
  rw [isRoot] at resolved
  cases parts with
  | none => cases resolved
  | some parts =>
      rw [(PathText.eq_withType_of_parseStatic parsed).1]
      exact PathText.namesType_withType parts.typeName parts.body

namespace Session

open World

variable {world : World} {place : Nat} {limit : Number}

/-- The member of a node is looked up along the declared types, from the class at which its path
starts. -/
theorem memberOf_of_start {path : Path} {index owner : Value} {given : Option Value}
    {position : Nat} (isPosition : positionOf? path.size index = some position)
    (starts : ownerOf path given world = .ok owner world) (arguments : Option ArgumentMap) :
    memberOf path index given arguments world =
      onGraph (memberAlong (world.compiler path.compiler).resolver arguments path.nodes position
        owner (firstScope path)) world := by
  have checked : checkPosition "index" path.size path.size index world = .ok position world := by
    rw [checkPosition, isPosition]
    rfl
  rw [memberOf, bind_of_ok checked, bind_of_ok starts, bind_get]

/-- The first node of a static path is looked up on the root type. -/
theorem memberOf_first {path : Path} {owner : Value} (isRoot : path.rootType = some owner)
    (world : World) :
    memberOf path (.ofNat 0) none none world =
      onGraph (memberAlong (world.compiler path.compiler).resolver none path.nodes 0 owner
        .onClass) world := by
  have isFirst : positionOf? path.size (.ofNat 0) = some 0 :=
    if_pos (List.length_pos_iff.2 path.nodes_ne_nil)
  have root : ownerOf path none world = .ok owner world := by
    unfold ownerOf
    rw [isRoot]
    rfl
  have scope : firstScope path = .onClass := by
    rw [firstScope, Path.isStatic, isRoot]
    rfl
  rw [memberOf_of_start isFirst root, scope]

/-- When a path is made, its first node is found on the graph as it is then. -/
theorem newPath_finds_first {source : String} (namesType : PathText.NamesType source)
    (sound : Sound world place) (limited : (world.compiler place).maxNodes = .number limit)
    {path : Path} {typeName : Option String} {later : World}
    (made : newPath place source world = .ok (path, typeName) later) {owner : Value}
    (isRoot : path.rootType = some owner) {first : Node} {rest : List Node}
    (nodes : path.nodes = first :: rest) (plain : first.argumentKeys = []) :
    ∃ member graph, first.form.base.member? (world.compiler place).resolver owner .onClass
      world.graph = .ok member graph := by
  obtain ⟨_, type, isType, accepts⟩ := (newPath_static namesType sound limited).ok made
  obtain rfl := Option.some.inj (isType.symm.trans isRoot)
  have leads : 0 < (Form.leading (path.nodes.map Node.form)).length := by
    rw [nodes, Form.leading, List.map_cons, List.map_cons, List.takeWhile_cons_of_pos]
    · exact Nat.succ_pos _
    · rw [← first.argumentKeys_eq, plain]
      rfl
  obtain ⟨member, graph, found⟩ := resolves_leading_iff_forall.1 accepts.resolves 0 leads
  rw [nodes, memberAlong_zero plain] at found
  exact ⟨member, graph, found⟩

/-- Whatever a compiler gives was made of its text in a sound world, which is the one in which it is
asked for if the text is not cached there. -/
theorem origin_of_compile {mark : Nat} {start : World} (fresh : Fresh start place)
    (reached : Reached place start world mark) {text : String} {path : Path} {later : World}
    (compiled : compile place text world = .ok path later) :
    (∃ early, Origin early world place (Text.trim text) path) ∧
      (world.cached? place (Text.trim text) = none →
        Origin world world place (Text.trim text) path) := by
  have isNew : world.cached? place (Text.trim text) = none →
      Origin world world place (Text.trim text) path := by
    intro uncached
    obtain ⟨typeName, after, made, _⟩ := newPath_of_compile uncached compiled
    exact ⟨reached.sound fresh.sound, rfl, typeName, after, made⟩
  refine ⟨?_, isNew⟩
  cases known : world.cached? place (Text.trim text) with
  | some cached =>
      cases (compile_of_cached (trim_ne_empty_of_compile compiled) known).symm.trans compiled
      exact reached.traced fresh _ _ known
  | none => exact ⟨world, isNew known⟩

/-- A static path whose first node takes no arguments was made in some world, which is the one of
the compilation if the text was not cached.  If the node is nothing but indices, it names no member
in any world.  If it starts with a name, it names a static member of the root type whenever it names
anything, and it does so in every world with the graph and the resolver of the one in which the path
was made. -/
theorem static_path_starts_at_static_member {mark : Nat} {start : World} (fresh : Fresh start place)
    (reached : Reached place start world mark)
    (limited : (world.compiler place).maxNodes = .number limit) {text : String} {path : Path}
    {later : World} (compiled : compile place text world = .ok path later) {owner : Value}
    (isRoot : path.rootType = some owner) {first : Node} {rest : List Node}
    (nodes : path.nodes = first :: rest) (plain : first.argumentKeys = []) :
    (∃ early, Origin early world place (Text.trim text) path) ∧
      (world.cached? place (Text.trim text) = none →
        Origin world world place (Text.trim text) path) ∧
      (first.form.base.name? = none →
        ∀ other, memberOf path (.ofNat 0) none none other = .ok none other) ∧
      ∀ name, first.form.base.name? = some name →
        (∀ other member final, memberOf path (.ofNat 0) none none other = .ok member final →
          ∃ found, member = some found ∧
            found.Meets owner ((other.compiler place).resolver.actualName name) .onClass) ∧
        ∀ early, Origin early world place (Text.trim text) path →
          ∀ other : World, other.graph = early.graph →
            (other.compiler place).resolver = (early.compiler place).resolver →
            ∃ found final, memberOf path (.ofNat 0) none none other = .ok (some found) final ∧
              found.Meets owner ((other.compiler place).resolver.actualName name) .onClass := by
  obtain ⟨_, _, cached⟩ := cached_of_compile (reached.sound fresh.sound) compiled
  have maker : path.compiler = place := cached.maker
  have namesType : PathText.NamesType (Text.trim text) := by
    rw [← show path.source = Text.trim text from cached.source]
    exact cached.isRead.namesType isRoot
  obtain ⟨hasOrigin, isOrigin⟩ := origin_of_compile fresh reached compiled
  have looks : ∀ other, memberOf path (.ofNat 0) none none other =
      onGraph (first.form.base.member? (other.compiler place).resolver owner .onClass) other := by
    intro other
    rw [memberOf_first isRoot, maker, nodes, memberAlong_zero plain]
  have meets : ∀ {name}, first.form.base.name? = some name → ∀ other member final,
      memberOf path (.ofNat 0) none none other = .ok member final → ∃ found, member = some found ∧
        found.Meets owner ((other.compiler place).resolver.actualName name) .onClass := by
    intro name named other member final ended
    rw [looks other] at ended
    exact ((onGraph_gives (Base.member?_meets named _ owner .onClass) other).ok ended).1
  refine ⟨hasOrigin, isOrigin, fun unnamed other => ?_, fun name named => ⟨meets named, ?_⟩⟩
  · rw [looks other, Base.eq_nothing_of_name? unnamed]
    rfl
  · intro early origin other sameGraph sameResolver
    obtain ⟨typeName, after, made⟩ := origin.made
    obtain ⟨member, graph, found⟩ := newPath_finds_first namesType origin.sound
      (origin.limit.trans limited) made isRoot nodes plain
    have ended : memberOf path (.ofNat 0) none none other =
        .ok member { other with graph := graph } := by
      rw [looks other, sameResolver]
      exact onGraph_of_ok (by rw [sameGraph, found])
    obtain ⟨named, rfl, isStatic⟩ := meets named other _ _ ended
    exact ⟨named, _, ended, isStatic⟩

theorem static_path_starts_at_name :
    ∃ path later, compile World.standardPlace "class(A)name" namedString = .ok path later ∧
      ∃ found final, memberOf path (.ofNat 0) none none namedString = .ok (some found) final ∧
        found.Meets (.object BuiltinClass.string.place) "name" .onClass := by
  have sound : Sound namedString World.standardPlace :=
    reached_namedString.sound (fresh_initial .standard).sound
  have limited : (namedString.compiler World.standardPlace).maxNodes = .number (.ofNat 64) := rfl
  have accepts : namedString.AcceptsStatic World.standardPlace (.ofNat 64)
      (Text.trim "class(A)name") "A" (.object BuiltinClass.string.place) [⟨.field "name", []⟩] :=
    acceptsStatic_of_segment (by decide) (by decide) (by decide) (by decide) rfl
      (Form.spells_base.2 ⟨.field (by decide), by simp⟩) (Number.allows_ofNat.2 (by decide))
      (.last member?_name_string)
  obtain ⟨path, later, compiled, isRoot, forms⟩ :=
    compile_of_acceptsStatic sound limited rfl (reportReturns_of_unhandled _ rfl) accepts
  obtain ⟨first, rest, nodes, form, _⟩ := List.map_eq_cons_iff.1 forms
  have plain : first.argumentKeys = [] := by rw [first.argumentKeys_eq, form]; rfl
  obtain ⟨_, isOrigin, _, named⟩ := static_path_starts_at_static_member (fresh_initial .standard)
    reached_namedString limited compiled isRoot nodes plain
  obtain ⟨_, finds⟩ := named "name" (by rw [form]; rfl)
  exact ⟨path, later, compiled, finds _ (isOrigin rfl) _ rfl rfl⟩

/-- A static path is made whose first node indexes the root type and so names no member. -/
theorem indexed_type_is_accepted :
    ∃ path later, compile World.standardPlace "class(A)[0]" namedString = .ok path later ∧
      path.rootType = some (.object BuiltinClass.string.place) ∧
      path.nodes.map Node.argumentKeys = [[]] ∧
      memberOf path (.ofNat 0) none none later = .ok none later := by
  have sound : Sound namedString World.standardPlace :=
    reached_namedString.sound (fresh_initial .standard).sound
  have index : IndexSpells 0 "[0]".toList :=
    ⟨['0'], ['0'], by decide, by decide, by decide, ⟨[], [], by decide, by decide, by decide⟩,
      by decide⟩
  have spells : (⟨.nothing, [0]⟩ : Form).Spells "[0]".toList :=
    ⟨[], ["[0]".toList], .nothing, .cons index .nil, by simp, by decide⟩
  have accepts : namedString.AcceptsStatic World.standardPlace (.ofNat 64)
      (Text.trim "class(A)[0]") "A" (.object BuiltinClass.string.place) [⟨.nothing, [0]⟩] :=
    acceptsStatic_of_segment (by decide) (by decide) (by decide) (by decide) rfl spells
      (Number.allows_ofNat.2 (by decide)) (.last rfl)
  obtain ⟨path, later, compiled, isRoot, forms⟩ :=
    compile_of_acceptsStatic sound rfl rfl (reportReturns_of_unhandled _ rfl) accepts
  obtain ⟨first, rest, nodes, form, others⟩ := List.map_eq_cons_iff.1 forms
  obtain rfl := List.map_eq_nil_iff.1 others
  have plain : first.argumentKeys = [] := by rw [first.argumentKeys_eq, form]; rfl
  refine ⟨path, later, compiled, isRoot, by rw [nodes, List.map_singleton, plain], ?_⟩
  rw [memberOf_first isRoot, nodes, memberAlong_zero plain, form]
  rfl

end Session

end ObjectPath
