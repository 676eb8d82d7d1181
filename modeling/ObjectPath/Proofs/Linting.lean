import Mathlib.Data.List.Basic
import ObjectPath.Lint.Node

/-!
# What the lint rule reports

The rule goes by one name: the local name of the first import of the decorator.  In every class
with a property that is declared by this name it reports the public properties that are not, once
each and in their order.  If a program imports the decorator by several names, these are the
properties without any declaration only in the classes that use no other name than the first.
-/

namespace ObjectPath.Lint

/-! ## Readings that do not fail -/

section Readings

variable {α : Type}

/-- A reading gives something that satisfies a condition. -/
def Reads (reading : Reading α) (holds : α → Prop) : Prop :=
  ∃ value, reading = .ok value ∧ holds value

/-- A reading gives a list, and each item of it something that satisfies a condition. -/
def ReadsEach (readings : Reading (List (Reading α))) (holds : α → Prop) : Prop :=
  ∃ values : List α, readings = .ok (values.map .ok) ∧ ∀ value ∈ values, holds value

@[simp]
theorem ok_bind {β : Type} (value : α) (next : α → Reading β) :
    ((Except.ok value : Reading α) >>= next) = next value :=
  rfl

/-- The items of a list that can be read. -/
def readable (readings : Reading (List (Reading α))) : List α :=
  (readings.toOption.getD []).filterMap Except.toOption

@[simp]
theorem readable_ok (values : List α) : readable (.ok (values.map .ok)) = values := by
  simp [readable, Except.toOption, List.filterMap_map, Function.comp_def]

end Readings

/-! ## The names of the decorator -/

/-- The local name that an entry of an import list gives the decorator. -/
def ImportSpecifier.decoratorName? : ImportSpecifier → Option Tree
  | .named (.ok imported) (.ok localName) => if imported.isDecorator then some localName else none
  | _ => none

/-- The local names that a statement gives the decorator. -/
def ProgramStatement.decoratorNames : ProgramStatement → List Tree
  | .importFrom (.ok source) specifiers =>
      if source.isText packageName then
        (readable specifiers).filterMap ImportSpecifier.decoratorName?
      else
        []
  | _ => []

/-- The local names under which a program imports the decorator, in order. -/
def Program.decoratorNames (program : Program) : List Tree :=
  (readable program).flatMap ProgramStatement.decoratorNames

/-- An entry of an import list can be read and its local name is not empty. -/
def ImportSpecifier.Sound : ImportSpecifier → Prop
  | .named imported localName =>
      Reads imported (fun _ => True) ∧ Reads localName fun name => name.isTruthy = true
  | .other => True

/-- An import can be read. -/
def ProgramStatement.Sound : ProgramStatement → Prop
  | .importFrom source specifiers =>
      Reads source (fun _ => True) ∧ ReadsEach specifiers ImportSpecifier.Sound
  | .other => True

/-- All imports of a program can be read. -/
def Program.Sound (program : Program) : Prop :=
  ReadsEach program ProgramStatement.Sound

theorem localName?_eq {specifiers : List ImportSpecifier}
    (sound : ∀ specifier ∈ specifiers, specifier.Sound) :
    localName? (specifiers.map .ok) =
      .ok (specifiers.filterMap ImportSpecifier.decoratorName?).head? := by
  induction specifiers with
  | nil => rfl
  | cons specifier rest inductionHypothesis =>
      obtain ⟨soundHead, soundRest⟩ := List.forall_mem_cons.1 sound
      have onward := inductionHypothesis soundRest
      cases specifier with
      | other => exact onward
      | named imported localName =>
          obtain ⟨⟨imported, rfl, -⟩, localName, rfl, -⟩ := soundHead
          cases isDecorator : imported.isDecorator with
          | true => simp [localName?, isDecorator, ImportSpecifier.decoratorName?]
          | false =>
              simpa [localName?, isDecorator, ImportSpecifier.decoratorName?] using onward

theorem findImport_eq {statements : List ProgramStatement}
    (sound : ∀ statement ∈ statements, statement.Sound) :
    findImport (statements.map .ok) =
      .ok (statements.flatMap ProgramStatement.decoratorNames).head? := by
  induction statements with
  | nil => rfl
  | cons statement rest inductionHypothesis =>
      obtain ⟨soundHead, soundRest⟩ := List.forall_mem_cons.1 sound
      have onward := inductionHypothesis soundRest
      cases statement with
      | other => exact onward
      | importFrom source specifiers =>
          obtain ⟨⟨source, rfl, -⟩, specifiers, rfl, soundEach⟩ := soundHead
          have named := localName?_eq soundEach
          cases isPackage : source.isText packageName with
          | false => simpa [findImport, isPackage, ProgramStatement.decoratorNames] using onward
          | true =>
              simp only [List.map_cons, findImport, ok_bind, isPackage, if_true, named,
                List.flatMap_cons, ProgramStatement.decoratorNames, readable_ok,
                List.head?_append]
              cases (specifiers.filterMap ImportSpecifier.decoratorName?).head? with
              | some name => rfl
              | none => exact onward

/-! ## Properties -/

/-- The name that a decorator calls. -/
def Decorator.called? : Decorator → Option Tree
  | .callOf name => some name
  | .other => none

theorem hasCallOf_eq (localName : Tree) (decorators : List Decorator) :
    hasCallOf localName (decorators.map .ok) =
      .ok ((decorators.filterMap Decorator.called?).any (·.same localName)) := by
  induction decorators with
  | nil => rfl
  | cons decorator rest inductionHypothesis =>
      cases decorator with
      | other => exact inductionHypothesis
      | callOf name =>
          have calls : (Decorator.callOf name :: rest).filterMap Decorator.called? =
              name :: rest.filterMap Decorator.called? := rfl
          rw [List.map_cons, hasCallOf, ok_bind, inductionHypothesis, calls, List.any_cons]
          dsimp only
          cases name.same localName <;> rfl

namespace PropertyNode

/-- A property can be read. -/
structure Sound (property : PropertyNode) : Prop where
  key : Reads property.key fun key => ∀ value, key = .literal value →
    Reads value.shown fun _ => True
  decorators : ReadsEach property.decorators fun _ => True

/-- The names that the decorators of a property call. -/
def called (property : PropertyNode) : List Tree :=
  (readable property.decorators).filterMap Decorator.called?

/-- Whether a decorator of a property is a call of one of some names. -/
def isDeclaredBy (property : PropertyNode) (names : List Tree) : Bool :=
  names.any fun name => property.called.any (·.same name)

/-- Whether a property is public and is more than a note to the compiler. -/
def isPublic (property : PropertyNode) : Bool :=
  match property.key, property.accessibility with
  | .ok .privateName, _ => false
  | _, .members => false
  | _, .everyone => !property.declareOnly

variable {property : PropertyNode} (sound : property.Sound) (localName : Tree)
include sound

theorem isDeclared_eq :
    property.isDeclared localName = .ok (property.isDeclaredBy [localName]) := by
  obtain ⟨decorators, same, -⟩ := sound.decorators
  unfold isDeclared isDeclaredBy called
  rw [same, readable_ok, List.any_cons, List.any_nil, Bool.or_false, ok_bind, hasCallOf_eq]

theorem isMissing_eq : property.isMissing localName =
    .ok (property.isPublic && !property.isDeclaredBy [localName]) := by
  obtain ⟨key, same, -⟩ := sound.key
  unfold isMissing isPublic
  rw [same, ok_bind, isDeclared_eq sound]
  cases key <;> cases property.accessibility <;> cases property.declareOnly <;> rfl

theorem name_ok : Reads property.name fun _ => True := by
  obtain ⟨key, same, shown⟩ := sound.key
  unfold name
  rw [same, ok_bind]
  cases key with
  | identifier name => exact ⟨name, rfl, trivial⟩
  | literal value =>
      obtain ⟨text, isShown, -⟩ := shown value rfl
      exact ⟨.text text, by simp only [isShown, ok_bind], trivial⟩
  | privateName => exact ⟨_, rfl, trivial⟩
  | computed => exact ⟨_, rfl, trivial⟩

end PropertyNode

/-! ## Classes -/

/-- A property can be read, if the member is one. -/
def ClassMember.Sound : ClassMember → Prop
  | .property node => node.Sound
  | .other => True

/-- All members of a class can be read. -/
def ClassNode.Sound (node : ClassNode) : Prop :=
  ReadsEach node.members ClassMember.Sound

/-- The property that a member with its position is. -/
def placed? : ClassMember × Nat → Option (Nat × PropertyNode)
  | (.property property, position) => some (position, property)
  | (.other, _) => none

theorem position_of_placed? {member : ClassMember × Nat} {entry : Nat × PropertyNode}
    (placed : placed? member = some entry) : member.2 = entry.1 := by
  obtain ⟨member, position⟩ := member
  cases member with
  | other => cases placed
  | property property => cases placed; rfl

/-- The properties of a class with their positions, in order. -/
def ClassNode.placed (node : ClassNode) : List (Nat × PropertyNode) :=
  (readable node.members).zipIdx.filterMap placed?

theorem propertiesFrom_eq (position : Nat) (members : List ClassMember) :
    propertiesFrom position (members.map .ok) =
      .ok ((members.zipIdx position).filterMap placed?) := by
  induction members generalizing position with
  | nil => rfl
  | cons member rest inductionHypothesis =>
      simp only [List.map_cons, propertiesFrom, ok_bind, inductionHypothesis, List.zipIdx_cons]
      cases member <;> rfl

theorem ClassNode.properties_eq {node : ClassNode} (sound : node.Sound) :
    properties node = .ok node.placed := by
  obtain ⟨members, same, -⟩ := sound
  unfold properties placed
  rw [same, ok_bind, propertiesFrom_eq, readable_ok]

theorem ClassNode.sound_of_placed {node : ClassNode} (sound : node.Sound) :
    ∀ entry ∈ node.placed, entry.2.Sound := by
  obtain ⟨members, same, soundEach⟩ := sound
  unfold placed
  rw [same, readable_ok]
  intro entry isPlaced
  obtain ⟨⟨member, position⟩, isMember, placed⟩ := List.mem_filterMap.1 isPlaced
  have soundMember := soundEach member (List.fst_mem_of_mem_zipIdx isMember)
  cases member with
  | other => cases placed
  | property property =>
      cases placed
      exact soundMember

theorem ClassNode.placed_sorted (node : ClassNode) :
    node.placed.Pairwise fun first second => first.1 < second.1 := by
  have increasing : (readable node.members).zipIdx.Pairwise fun first second =>
      first.2 < second.2 := by
    rw [← List.pairwise_map, List.zipIdx_map_snd]
    exact List.pairwise_lt_range'
  refine List.pairwise_filterMap.2 (increasing.imp ?_)
  intro first second before entry placed entrySecond placedSecond
  rw [← position_of_placed? placed, ← position_of_placed? placedSecond]
  exact before

theorem anyDeclared_eq (localName : Tree) {placed : List (Nat × PropertyNode)}
    (sound : ∀ entry ∈ placed, entry.2.Sound) :
    anyDeclared localName placed = .ok (placed.any (·.2.isDeclaredBy [localName])) := by
  induction placed with
  | nil => rfl
  | cons entry rest inductionHypothesis =>
      obtain ⟨soundHead, soundRest⟩ := List.forall_mem_cons.1 sound
      obtain ⟨position, property⟩ := entry
      rw [anyDeclared, PropertyNode.isDeclared_eq soundHead, ok_bind,
        inductionHypothesis soundRest, List.any_cons]
      cases property.isDeclaredBy [localName] <;> rfl

/-- The report on a property. -/
def reportOn (className : Tree) (entry : Nat × PropertyNode) : Report :=
  ⟨entry.1, entry.2.name.toOption.getD .absent, className⟩

theorem reportsOn_eq (localName className : Tree) {placed : List (Nat × PropertyNode)}
    (sound : ∀ entry ∈ placed, entry.2.Sound) :
    reportsOn localName className placed =
      .ok ((placed.filter fun entry => entry.2.isPublic && !entry.2.isDeclaredBy [localName]).map
        (reportOn className)) := by
  induction placed with
  | nil => rfl
  | cons entry rest inductionHypothesis =>
      obtain ⟨soundHead, soundRest⟩ := List.forall_mem_cons.1 sound
      obtain ⟨position, property⟩ := entry
      obtain ⟨name, named, -⟩ := PropertyNode.name_ok soundHead
      rw [reportsOn, PropertyNode.isMissing_eq soundHead, ok_bind, inductionHypothesis soundRest,
        named, List.filter_cons]
      cases property.isPublic && !property.isDeclaredBy [localName] with
      | false => rfl
      | true => simp [reportOn, named, Except.toOption]

namespace ClassNode

/-- A class misses a declaration by one of some names: it has a declared property, and the report
is on a public property that is not declared, with its name and that of the class. -/
structure Misses (node : ClassNode) (names : List Tree) (report : Report) : Prop where
  optsIn : ∃ property, ClassMember.property property ∈ readable node.members ∧
    property.isDeclaredBy names = true
  undeclared : ∃ property, (readable node.members)[report.position]? = some (.property property) ∧
    property.isPublic = true ∧ property.isDeclaredBy names = false ∧
      property.name = .ok report.name
  className : report.className = node.shownName

theorem mem_placed {node : ClassNode} {position : Nat} {property : PropertyNode} :
    (position, property) ∈ node.placed ↔
      (readable node.members)[position]? = some (.property property) := by
  unfold placed
  rw [List.mem_filterMap]
  constructor
  · rintro ⟨⟨member, other⟩, isMember, placed⟩
    cases member with
    | other => cases placed
    | property property =>
        cases placed
        exact List.mem_zipIdx_iff_getElem?.1 isMember
  · intro found
    exact ⟨(.property property, position), List.mem_zipIdx_iff_getElem?.2 found, rfl⟩

/-- What is reported on are the properties that are public and not declared. -/
theorem mem_reported {node : ClassNode} (sound : node.Sound) {names : List Tree} {report : Report} :
    (report ∈ (node.placed.filter fun entry =>
      entry.2.isPublic && !entry.2.isDeclaredBy names).map (reportOn node.shownName)) ↔
      (∃ property, (readable node.members)[report.position]? = some (.property property) ∧
        property.isPublic = true ∧ property.isDeclaredBy names = false ∧
          property.name = .ok report.name) ∧ report.className = node.shownName := by
  simp only [List.mem_map, List.mem_filter, Bool.and_eq_true, Bool.not_eq_true']
  constructor
  · rintro ⟨⟨position, property⟩, ⟨isPlaced, isPublic, undeclared⟩, rfl⟩
    obtain ⟨name, named, -⟩ := PropertyNode.name_ok (node.sound_of_placed sound _ isPlaced)
    refine ⟨⟨property, mem_placed.1 isPlaced, isPublic, undeclared, ?_⟩, rfl⟩
    rw [reportOn, named]
    rfl
  · rintro ⟨⟨property, found, isPublic, undeclared, named⟩, className⟩
    refine ⟨(report.position, property), ⟨mem_placed.2 found, isPublic, undeclared⟩, ?_⟩
    rw [reportOn, named, ← className]
    rfl

theorem declares_iff {node : ClassNode} {names : List Tree} :
    node.placed.any (·.2.isDeclaredBy names) = true ↔
      ∃ property, ClassMember.property property ∈ readable node.members ∧
        property.isDeclaredBy names = true := by
  simp only [List.any_eq_true, Prod.exists, mem_placed]
  constructor
  · rintro ⟨position, property, found, declared⟩
    exact ⟨property, List.mem_of_getElem? found, declared⟩
  · rintro ⟨property, isMember, declared⟩
    obtain ⟨position, found⟩ := List.getElem?_of_mem isMember
    exact ⟨position, property, found, declared⟩

/-- A class is checked by reporting, in order of its members, what it misses by the local name. -/
theorem checkWith_spec {node : ClassNode} (sound : node.Sound) (localName : Tree) :
    ∃ reports, checkWith localName node = .ok reports ∧
      (reports.Pairwise fun first second => first.position < second.position) ∧
      ∀ report, report ∈ reports ↔ node.Misses [localName] report := by
  have soundEach := node.sound_of_placed sound
  unfold checkWith
  rw [node.properties_eq sound, ok_bind, anyDeclared_eq localName soundEach, ok_bind]
  cases declares : node.placed.any (·.2.isDeclaredBy [localName]) with
  | false =>
      refine ⟨[], rfl, List.Pairwise.nil, fun report => ⟨nofun, fun misses => ?_⟩⟩
      rw [declares_iff.2 misses.optsIn] at declares
      cases declares
  | true =>
      have optsIn := declares_iff.1 declares
      refine ⟨_, reportsOn_eq localName node.shownName soundEach, ?_, fun report => ?_⟩
      · exact List.pairwise_map.2 (node.placed_sorted.filter _)
      · rw [mem_reported sound]
        exact ⟨fun ⟨undeclared, className⟩ => ⟨optsIn, undeclared, className⟩,
          fun misses => ⟨misses.undeclared, misses.className⟩⟩

/-- Without a local name a class misses nothing. -/
theorem not_misses_nil {node : ClassNode} {report : Report} : ¬ node.Misses [] report := by
  rintro ⟨⟨_, _, declared⟩, _, _⟩
  cases declared

theorem check_spec {node : ClassNode} (sound : node.Sound) {localName : Option Tree}
    (truthy : ∀ name ∈ localName, name.isTruthy = true) :
    ∃ reports, check localName node = .ok reports ∧
      (reports.Pairwise fun first second => first.position < second.position) ∧
      ∀ report, report ∈ reports ↔ node.Misses localName.toList report := by
  cases localName with
  | none => exact ⟨[], rfl, List.Pairwise.nil, fun report => ⟨nofun, not_misses_nil.elim⟩⟩
  | some name =>
      have checks : check (some name) node = checkWith name node := if_pos (truthy name rfl)
      rw [checks]
      exact checkWith_spec sound name

end ClassNode

/-! ## Programs -/

/-- One report comes before another one: it is on an earlier class, or on an earlier member of the
same class. -/
def Before (first second : Nat × Report) : Prop :=
  first.1 < second.1 ∨ first.1 = second.1 ∧ first.2.position < second.2.position

theorem checkFrom_spec {localName : Option Tree}
    (truthy : ∀ name ∈ localName, name.isTruthy = true) {classes : List ClassNode}
    (sound : ∀ node ∈ classes, node.Sound) (start : Nat) :
    ∃ reports, checkFrom localName start classes = .ok reports ∧ reports.Pairwise Before ∧
      ∀ number report, (number, report) ∈ reports ↔
        ∃ index node, number = start + index ∧ classes[index]? = some node ∧
          node.Misses localName.toList report := by
  induction classes generalizing start with
  | nil => exact ⟨[], rfl, List.Pairwise.nil, by simp⟩
  | cons node rest inductionHypothesis =>
      obtain ⟨soundHead, soundRest⟩ := List.forall_mem_cons.1 sound
      obtain ⟨reports, checked, sorted, reported⟩ := node.check_spec soundHead truthy
      obtain ⟨later, checkedLater, sortedLater, reportedLater⟩ :=
        inductionHypothesis soundRest (start + 1)
      refine ⟨reports.map (fun report => (start, report)) ++ later, ?_, ?_, ?_⟩
      · rw [checkFrom, checked, ok_bind, checkedLater, ok_bind]
      · refine List.pairwise_append.2 ⟨List.pairwise_map.2 ?_, sortedLater, ?_⟩
        · exact sorted.imp fun before => Or.inr ⟨rfl, before⟩
        · intro first isFirst second isSecond
          obtain ⟨report, -, rfl⟩ := List.mem_map.1 isFirst
          obtain ⟨index, _, same, _⟩ := (reportedLater second.1 second.2).1 isSecond
          exact Or.inl (by dsimp only; omega)
      · intro number report
        rw [List.mem_append, reportedLater]
        constructor
        · rintro (isHead | ⟨index, other, rfl, found, misses⟩)
          · obtain ⟨report, member, same⟩ := List.mem_map.1 isHead
            cases same
            exact ⟨0, node, rfl, rfl, (reported report).1 member⟩
          · exact ⟨index + 1, other, by omega, found, misses⟩
        · rintro ⟨index, other, rfl, found, misses⟩
          cases index with
          | zero =>
              cases found
              exact Or.inl (List.mem_map.2 ⟨report, (reported report).2 misses, rfl⟩)
          | succ index => exact Or.inr ⟨index, other, by omega, found, misses⟩

theorem ImportSpecifier.truthy_of_sound {specifier : ImportSpecifier} (sound : specifier.Sound)
    {name : Tree} (given : specifier.decoratorName? = some name) : name.isTruthy = true := by
  cases specifier with
  | other => cases given
  | named imported localName =>
      obtain ⟨⟨imported, rfl, -⟩, localName, rfl, truthy⟩ := sound
      unfold decoratorName? at given
      dsimp only at given
      split at given
      · cases given
        exact truthy
      · cases given

theorem Program.truthy_of_sound {program : Program} (sound : program.Sound) :
    ∀ name ∈ program.decoratorNames, name.isTruthy = true := by
  obtain ⟨statements, same, soundEach⟩ := sound
  unfold decoratorNames
  rw [same, readable_ok]
  intro name isName
  obtain ⟨statement, isStatement, isGiven⟩ := List.mem_flatMap.1 isName
  have soundStatement := soundEach statement isStatement
  cases statement with
  | other => cases isGiven
  | importFrom source specifiers =>
      obtain ⟨⟨source, rfl, -⟩, specifiers, rfl, soundSpecifiers⟩ := soundStatement
      cases isPackage : source.isText packageName with
      | false => simp [ProgramStatement.decoratorNames, isPackage] at isGiven
      | true =>
          simp only [ProgramStatement.decoratorNames, isPackage, if_true, readable_ok,
            List.mem_filterMap] at isGiven
          obtain ⟨specifier, isSpecifier, given⟩ := isGiven
          exact ImportSpecifier.truthy_of_sound (soundSpecifiers specifier isSpecifier) given

theorem Program.findImport_eq {program : Program} (sound : program.Sound) :
    (program >>= findImport) = .ok program.decoratorNames.head? := by
  obtain ⟨statements, same, soundEach⟩ := sound
  unfold decoratorNames
  rw [same, ok_bind, Lint.findImport_eq soundEach, readable_ok]

namespace ClassNode

/-- In a class, the properties that are declared by some names are declared by the first of
them. -/
def KeepsToFirst (node : ClassNode) (names : List Tree) : Prop :=
  ∀ property, ClassMember.property property ∈ readable node.members →
    property.isDeclaredBy names = true → property.isDeclaredBy names.head?.toList = true

theorem misses_congr {node : ClassNode} {names others : List Tree} {report : Report}
    (same : ∀ property, ClassMember.property property ∈ readable node.members →
      property.isDeclaredBy names = property.isDeclaredBy others) :
    node.Misses names report ↔ node.Misses others report := by
  have half : ∀ {names others : List Tree}, (∀ property,
      ClassMember.property property ∈ readable node.members →
        property.isDeclaredBy names = property.isDeclaredBy others) →
      node.Misses names report → node.Misses others report := by
    rintro names others same ⟨⟨declared, isMember, isDeclared⟩,
      ⟨property, found, isPublic, undeclared, named⟩, className⟩
    have samePlaced := same property (List.mem_of_getElem? found)
    exact ⟨⟨declared, isMember, (same declared isMember).symm.trans isDeclared⟩,
      ⟨property, found, isPublic, samePlaced.symm.trans undeclared, named⟩, className⟩
  exact ⟨half same, half fun property isMember => (same property isMember).symm⟩

/-- In a class that keeps to the first name, it comes to the same to go by the first name only. -/
theorem KeepsToFirst.misses_iff {node : ClassNode} {names : List Tree} {report : Report}
    (keeps : node.KeepsToFirst names) :
    node.Misses names.head?.toList report ↔ node.Misses names report := by
  refine misses_congr fun property isMember => Bool.eq_iff_iff.2 ⟨fun declared => ?_,
    keeps property isMember⟩
  obtain ⟨name, isFirst, calls⟩ := List.any_eq_true.1 declared
  exact List.any_eq_true.2 ⟨name, List.mem_of_head? (Option.mem_toList.1 isFirst), calls⟩

end ClassNode

/-- What the rule reports.  It goes through any program and its classes without a fault, and its
reports are in the order of the classes and of their members, so that none is made twice.  They are
on the public properties that are not declared by the first local name of the decorator, in the
classes that have a property that is.  In a class that declares properties by no other name of the
decorator, these are the public properties that are not declared by any of the names, if the class
has a declared property at all. -/
theorem reports_are_undeclared {program : Program} (sound : program.Sound)
    {classes : List ClassNode} (soundClasses : ∀ node ∈ classes, node.Sound) :
    ∃ reports, checkAll (some program) classes = .ok reports ∧ reports.Pairwise Before ∧
      (∀ number report, (number, report) ∈ reports ↔ ∃ node, classes[number]? = some node ∧
        node.Misses program.decoratorNames.head?.toList report) ∧
      ∀ number node, classes[number]? = some node →
        node.KeepsToFirst program.decoratorNames →
          ∀ report, (number, report) ∈ reports ↔ node.Misses program.decoratorNames report := by
  have truthy : ∀ name ∈ program.decoratorNames.head?, name.isTruthy = true := fun name isFirst =>
    program.truthy_of_sound sound name (List.mem_of_head? isFirst)
  obtain ⟨reports, checked, sorted, reported⟩ := checkFrom_spec truthy soundClasses 0
  have byFirst : ∀ number report, (number, report) ∈ reports ↔
      ∃ node, classes[number]? = some node ∧
        node.Misses program.decoratorNames.head?.toList report := by
    simpa using reported
  refine ⟨reports, ?_, sorted, byFirst, fun number node found keeps report => ?_⟩
  · have parts : checkAll (some program) classes =
        (program >>= findImport) >>= fun localName => checkFrom localName 0 classes :=
      (bind_assoc ..).symm
    rw [parts, program.findImport_eq sound, ok_bind]
    exact checked
  · rw [byFirst, ← keeps.misses_iff]
    constructor
    · rintro ⟨other, foundOther, misses⟩
      obtain rfl : node = other := Option.some.inj (found.symm.trans foundOther)
      exact misses
    · exact fun misses => ⟨node, found, misses⟩

/-! ## Some programs -/

/-- An import of one name under another one. -/
def importTree (imported localName : String) : Tree :=
  .node [("type", .text "ImportDeclaration"), ("source", .node [("value", .text packageName)]),
    ("specifiers", .list [.node [("type", .text "ImportSpecifier"),
      ("imported", .node [("type", .text "Identifier"), ("name", .text imported)]),
      ("local", .node [("name", .text localName)])]])]

/-- A property with a call of each of some decorators. -/
def propertyTree (name : String) (decorators : List String) : Tree :=
  .node [("type", .text "PropertyDefinition"),
    ("key", .node [("type", .text "Identifier"), ("name", .text name)]),
    ("decorators", .list (decorators.map fun decorator =>
      .node [("expression", .node [("type", .text "CallExpression"),
        ("callee", .node [("type", .text "Identifier"), ("name", .text decorator)])])]))]

/-- A class with some members. -/
def classTree (name : String) (members : List Tree) : Tree :=
  .node [("id", .node [("name", .text name)]), ("body", .node [("body", .list members)])]

/-- The program that some trees are. -/
def programOf (statements : List Tree) : Program :=
  .ofTree (.node [("body", .list statements)])

/-- A class with a property that is declared by the name `typed`, and one that is not declared. -/
def gridClass : ClassNode :=
  .ofTree (classTree "Grid" [propertyTree "meta" ["typed"], propertyTree "size" []])

theorem gridClass_sound : gridClass.Sound := by
  refine ⟨[.property ⟨.ok (.identifier (.text "meta")), .everyone, false,
      .ok [.ok (.callOf (.text "typed"))]⟩,
    .property ⟨.ok (.identifier (.text "size")), .everyone, false, .ok []⟩], rfl, ?_⟩
  refine List.forall_mem_cons.2 ⟨⟨⟨_, rfl, nofun⟩, ⟨[.callOf (.text "typed")], rfl, ?_⟩⟩,
    List.forall_mem_singleton.2 ⟨⟨_, rfl, nofun⟩, ⟨[], rfl, nofun⟩⟩⟩
  exact fun _ _ => trivial

/-- The undeclared property is reported, if the decorator is imported as `typed`, and the declared
one is not. -/
theorem size_is_reported :
    ∃ reports, checkAll (some (programOf [importTree "field" "typed"])) [gridClass] = .ok reports ∧
      (0, ⟨1, .text "size", .text "Grid"⟩) ∈ reports ∧
      ∀ name className, (0, ⟨0, name, className⟩) ∉ reports := by
  have sound : (programOf [importTree "field" "typed"]).Sound := by
    refine ⟨[.importFrom (.ok (.text packageName)) (.ok [.ok (.named
      (.ok (.identifier (.text "field"))) (.ok (.text "typed")))])], rfl, ?_⟩
    refine List.forall_mem_singleton.2 ⟨⟨_, rfl, trivial⟩, ⟨[.named
      (.ok (.identifier (.text "field"))) (.ok (.text "typed"))], rfl, ?_⟩⟩
    exact List.forall_mem_singleton.2 ⟨⟨_, rfl, trivial⟩, ⟨_, rfl, rfl⟩⟩
  obtain ⟨reports, checked, _, _, exactly⟩ := reports_are_undeclared sound
    (List.forall_mem_singleton.2 gridClass_sound)
  have misses := exactly 0 gridClass rfl fun property _ declared => declared
  refine ⟨reports, checked, (misses _).2 ⟨⟨_, List.mem_cons_self, rfl⟩, ⟨_, rfl, rfl, rfl, rfl⟩,
    rfl⟩, fun name className reported => ?_⟩
  obtain ⟨_, ⟨property, found, _, undeclared, _⟩, _⟩ := (misses _).1 reported
  cases found
  cases undeclared

/-- A class with a property for each of two names of the decorator. -/
def mixedClass : ClassNode :=
  .ofTree (classTree "Mixed" [propertyTree "first" ["field"], propertyTree "second" ["typed"]])

/-- A property that is declared by the second of two imported names is reported. -/
theorem second_name_is_not_seen :
    let program := programOf [importTree "field" "field", importTree "field" "typed"]
    program.decoratorNames = [.text "field", .text "typed"] ∧
      (∃ property, (readable mixedClass.members)[1]? = some (.property property) ∧
        property.isDeclaredBy program.decoratorNames = true) ∧
      checkAll (some program) [mixedClass] =
        .ok [(0, ⟨1, .text "second", .text "Mixed"⟩)] :=
  ⟨rfl, ⟨_, rfl, rfl⟩, rfl⟩

end ObjectPath.Lint
