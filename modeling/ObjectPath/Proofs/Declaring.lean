import Mathlib.Data.List.Perm.Subperm
import ObjectPath.Proofs.Listing

/-!
# Declarations and the classes that inherit them

Decorators are applied one after the other, to classes and to what their instances share, and
anything else may happen in between.  Each lookup of a class gives, for every name, the last
declaration that was applied on the nearest class of its lineage that has one.  So a decorator
changes the lookups of the classes that inherit from where it was applied, except those for which a
nearer class declares the name.
-/

namespace ObjectPath

/-! ## Lineages -/

namespace Graph

variable (graph : Graph)

/-- Whether there is a function at a place, other than the one that all functions share. -/
def isClassAt (place : Nat) : Bool :=
  graph.isCallable (.object place) && place != BuiltinClass.function.sharedPlace

/-- The chain of classes from a place up through the parents, as far as there are classes. -/
inductive Chain : Option Nat → List Nat → Prop
  | top {start : Option Nat} : (∀ place ∈ start, ¬ graph.isClassAt place = true) → Chain start []
  | link {place : Nat} {rest : List Nat} : graph.isClassAt place = true →
      Chain ((graph.object? place).bind (·.parent)) rest → Chain (some place) (place :: rest)

variable {graph} {start : Option Nat} {chain : List Nat} {place : Nat}

theorem lt_size_of_isClassAt (isClass : graph.isClassAt place = true) :
    place < graph.objects.size := by
  have callable : graph.isCallable (.object place) = true := (Bool.and_eq_true_iff.1 isClass).1
  exact knows_object.1 (knows_of_isCallable callable)

namespace Chain

/-- From one place there is only one chain. -/
theorem unique {other : List Nat} (first : graph.Chain start chain)
    (second : graph.Chain start other) : chain = other := by
  induction first generalizing other with
  | top noClass =>
      cases second with
      | top => rfl
      | link isClass => exact absurd isClass (noClass _ rfl)
  | link isClass _ inductionHypothesis =>
      cases second with
      | top noClass => exact absurd isClass (noClass _ rfl)
      | link _ onward => rw [inductionHypothesis onward]

theorem isClassAt (chained : graph.Chain start chain) :
    ∀ place ∈ chain, graph.isClassAt place = true := by
  induction chained with
  | top => nofun
  | link isClass _ inductionHypothesis =>
      exact List.forall_mem_cons.2 ⟨isClass, inductionHypothesis⟩

/-- From a place in a chain the rest of the chain goes on. -/
theorem onward (chained : graph.Chain start chain) (member : place ∈ chain) :
    ∃ rest, graph.Chain (some place) (place :: rest) ∧ (place :: rest).length ≤ chain.length := by
  induction chained with
  | top => cases member
  | link isClass above inductionHypothesis =>
      rcases List.mem_cons.1 member with rfl | later
      · exact ⟨_, .link isClass above, le_rfl⟩
      · obtain ⟨rest, further, shorter⟩ := inductionHypothesis later
        exact ⟨rest, further, shorter.trans (Nat.le_succ _)⟩

/-- A chain comes to no class twice: it would go on from there for ever. -/
theorem nodup (chained : graph.Chain start chain) : chain.Nodup := by
  induction chained with
  | top => exact List.nodup_nil
  | @link place rest isClass above inductionHypothesis =>
      refine List.nodup_cons.2 ⟨fun again => ?_, inductionHypothesis⟩
      obtain ⟨others, further, shorter⟩ := above.onward again
      have same := unique (.link isClass above) further
      rw [← same, List.length_cons] at shorter
      exact Nat.not_succ_le_self _ shorter

theorem length_le (chained : graph.Chain start chain) : chain.length ≤ graph.objects.size := by
  have within : chain ⊆ List.range graph.objects.size := fun place member =>
    List.mem_range.2 (lt_size_of_isClassAt (chained.isClassAt place member))
  simpa using (chained.nodup.subperm within).length_le

theorem takeWhile_placesFrom (chained : graph.Chain start chain) {limit : Nat}
    (enough : chain.length ≤ limit) :
    (graph.placesFrom limit start).takeWhile graph.isClassAt = chain := by
  induction chained generalizing limit with
  | @top start noClass =>
      cases limit with
      | zero => rfl
      | succ limit =>
          cases start with
          | none => rfl
          | some place => exact List.takeWhile_cons_of_neg (noClass place rfl)
  | link isClass _ inductionHypothesis =>
      cases limit with
      | zero => cases enough
      | succ limit =>
          rw [placesFrom, List.takeWhile_cons_of_pos isClass,
            inductionHypothesis (Nat.le_of_succ_le_succ enough)]

/-- The lineage of a class is the chain of classes that starts with it. -/
theorem lineage (chained : graph.Chain (some place) chain) :
    graph.lineage (.object place) = chain := by
  have whole : (graph.placesFrom (graph.objects.size + 1) (some place)).takeWhile _ = chain :=
    chained.takeWhile_placesFrom (chained.length_le.trans (Nat.le_succ _))
  exact whole

end Chain

end Graph

/-! ## Declarations -/

/-- What a decorator declares: a field or a method. -/
inductive Declaration
  | field (declared : FieldDeclaration)
  | method (declared : MethodDeclaration)

namespace Declaration

/-- Applies a decorator to a class or to what its instances share. -/
def apply (target : Value) : Declaration → Run Unit
  | .field declared => Run.declareField target declared.name declared.type
  | .method declared =>
      Run.declareMethod target declared.name declared.returnType declared.schemas

/-- Enters what a decorator declares. -/
def enter (scope : Scope) : Declaration → Declarations → Declarations
  | .field declared => (·.declareField scope declared)
  | .method declared => (·.declareMethod scope declared)

theorem apply_eq (target : Value) (declaration : Declaration) :
    declaration.apply target = (do
      let (place, scope) ← Run.declarationOwner target
      modify (·.declare place (declaration.enter scope))) := by
  cases declaration <;> rfl

end Declaration

/-- A kind of declarations: what names them, in which declarations they are entered, and how they
are looked up on a class. -/
structure DeclarationKind (α : Type) where
  name : α → String
  of? : Declaration → Option α
  table : Declarations → Scope → List (String × α)
  lookups : Graph → Value → Scope → List (String × α)
  table_none : ∀ scope, table Graph.noDeclarations scope = []
  table_enter : ∀ declaration declarations scope asked,
    table (declaration.enter scope declarations) asked =
      match of? declaration with
      | some declared =>
          if asked = scope then Entries.put (table declarations asked) (name declared) declared
          else table declarations asked
      | none => table declarations asked
  lookups_eq : ∀ graph owner scope,
    lookups graph owner scope = (graph.lineage owner).foldl
      (fun merged place => Entries.orElse merged (table (graph.declarationsAt place) scope)) []

namespace DeclarationKind

/-- The declared fields. -/
def field : DeclarationKind FieldDeclaration where
  name := FieldDeclaration.name
  of?
    | .field declared => some declared
    | .method _ => none
  table := Declarations.fields
  lookups := Graph.fields
  table_none _ := rfl
  table_enter declaration declarations scope asked := by
    cases declaration <;> rfl
  lookups_eq _ _ _ := rfl

/-- The declared methods. -/
def method : DeclarationKind MethodDeclaration where
  name := MethodDeclaration.name
  of?
    | .field _ => none
    | .method declared => some declared
  table := Declarations.methods
  lookups := Graph.methods
  table_none _ := rfl
  table_enter declaration declarations scope asked := by
    cases declaration <;> rfl
  lookups_eq _ _ _ := rfl

end DeclarationKind

/-! ## Applying decorators -/

namespace Graph

variable (graph : Graph)

/-- A target stands for a class in a scope: a class stands for itself, and what its instances share
stands for the class that it holds as its `constructor`. -/
inductive Stands : Value → Nat → Scope → Prop
  | owner {place : Nat} : graph.isCallable (.object place) = true →
      Stands (.object place) place .onClass
  | shared {holder place : Nat} : graph.isCallable (.object holder) = false →
      graph.look? (.object holder) (.name "constructor") = some (.object place) →
      Stands (.object holder) place .onInstance

variable {graph} {target : Value} {place : Nat} {scope : Scope}

theorem Stands.declarationOwner (stands : graph.Stands target place scope) :
    Run.declarationOwner target graph = .ok (place, scope) graph := by
  cases stands with
  | owner callable =>
      unfold Run.declarationOwner
      rw [bind_get, if_pos callable]
      rfl
  | @shared holder _ notCallable looked =>
      rw [← Key.ofText_constructor] at looked
      have step : Run.step (.object holder) "constructor" graph = .ok (.object place) graph :=
        Run.stepWith_of_look? perform rfl looked
      unfold Run.declarationOwner
      rw [bind_get, notCallable, if_neg Bool.false_ne_true]
      rw [bind_of_ok step]
      rfl

/-- A decorator enters its declaration under the class that its target stands for. -/
theorem Stands.apply (stands : graph.Stands target place scope) (declaration : Declaration) :
    declaration.apply target graph = .ok () (graph.declare place (declaration.enter scope)) := by
  rw [declaration.apply_eq, bind_of_ok stands.declarationOwner]
  rfl

theorem declarationsAt_declare (place other : Nat) (change : Declarations → Declarations) :
    (graph.declare place change).declarationsAt other =
      if other = place then change (graph.declarationsAt other)
      else graph.declarationsAt other := by
  unfold declare declarationsAt
  dsimp only
  rw [Entries.get?_put]
  split
  · rename_i same
    rw [same]
    rfl
  · rfl

theorem placesFrom_declare (place : Nat) (change : Declarations → Declarations) (limit : Nat)
    (start : Option Nat) :
    (graph.declare place change).placesFrom limit start = graph.placesFrom limit start := by
  induction limit generalizing start with
  | zero => rfl
  | succ limit inductionHypothesis =>
      cases start with
      | none => rfl
      | some first => rw [placesFrom, placesFrom, inductionHypothesis]; rfl

/-- A declaration changes no lineage. -/
theorem lineage_declare (place : Nat) (change : Declarations → Declarations) (owner : Value) :
    (graph.declare place change).lineage owner = graph.lineage owner := by
  unfold lineage ancestors
  rw [placesFrom_declare]
  rfl

/-- Nor does it change what targets stand for. -/
theorem Stands.declare (stands : graph.Stands target place scope) (entered : Nat)
    (change : Declarations → Declarations) :
    (graph.declare entered change).Stands target place scope := by
  cases stands with
  | owner callable => exact .owner callable
  | shared notCallable looked =>
      refine .shared notCallable ?_
      unfold look? find? inherited? ancestors at looked ⊢
      rw [placesFrom_declare]
      exact looked

end Graph

/-! ## Histories -/

/-- A decorator that was applied: where its declaration was entered, and the declaration. -/
structure Applied where
  place : Nat
  scope : Scope
  declaration : Declaration

/-- The decorators that were applied from the start, in order, and the graph that has come of it.
Anything that declares nothing may happen in between. -/
inductive Decorated : List Applied → Graph → Prop
  | start {graph : Graph} : graph.declarations = [] → Decorated [] graph
  | applied {history : List Applied} {graph later : Graph} {target : Value} {place : Nat}
      {scope : Scope} (declaration : Declaration) : Decorated history graph →
        graph.Stands target place scope → declaration.apply target graph = .ok () later →
          Decorated (history ++ [⟨place, scope, declaration⟩]) later
  | beside {history : List Applied} {graph later : Graph} : Decorated history graph →
      later.declarations = graph.declarations → Decorated history later

namespace DeclarationKind

variable {α : Type} (kind : DeclarationKind α) (history : List Applied)

/-- The declaration of a name that a decorator entered at a place in a scope. -/
def entered? (place : Nat) (scope : Scope) (name : String) (applied : Applied) : Option α :=
  (kind.of? applied.declaration).filter fun declared =>
    applied.place = place ∧ applied.scope = scope ∧ kind.name declared = name

/-- The last declaration of a name that was entered at a place in a scope. -/
def last? (place : Nat) (scope : Scope) (name : String) : Option α :=
  history.reverse.findSome? (kind.entered? place scope name)

/-- The last declaration of a name on the nearest class of a lineage that has one. -/
def nearest? (lineage : List Nat) (scope : Scope) (name : String) : Option α :=
  lineage.findSome? (kind.last? history · scope name)

/-- A class gets a name from a place: the place is the class itself or one that it inherits from,
and no nearer one declares the name. -/
def Inherits (graph : Graph) (owner : Value) (place : Nat) (scope : Scope) (name : String) : Prop :=
  ∃ nearer farther, graph.lineage owner = nearer ++ place :: farther ∧
    ∀ other ∈ nearer, kind.last? history other scope name = none

theorem last?_append (applied : Applied) (place : Nat) (scope : Scope) (name : String) :
    kind.last? (history ++ [applied]) place scope name =
      (kind.entered? place scope name applied).or (kind.last? history place scope name) := by
  rw [last?, List.reverse_append, List.reverse_singleton, List.singleton_append,
    List.findSome?_cons]
  cases kind.entered? place scope name applied <;> rfl

variable {kind history}

theorem get?_table_enter (applied : Applied) (declarations : Declarations) (scope : Scope)
    (name : String) :
    Entries.get? (kind.table (applied.declaration.enter applied.scope declarations) scope) name =
      (kind.entered? applied.place scope name applied).or
        (Entries.get? (kind.table declarations scope) name) := by
  rw [kind.table_enter, entered?]
  cases kind.of? applied.declaration with
  | none => rfl
  | some declared =>
      by_cases sameScope : scope = applied.scope
      · by_cases sameName : name = kind.name declared
        · simp [sameScope, sameName, Entries.get?_put, Option.filter]
        · simp [sameScope, sameName, Entries.get?_put, Option.filter, Ne.symm sameName]
      · simp [sameScope, Option.filter, Ne.symm sameScope]

end DeclarationKind

/-- What is entered under each class is the last declaration of each name. -/
theorem Decorated.get?_table {α : Type} (kind : DeclarationKind α) {history : List Applied}
    {graph : Graph} (decorated : Decorated history graph) (place : Nat) (scope : Scope)
    (name : String) :
    Entries.get? (kind.table (graph.declarationsAt place) scope) name =
      kind.last? history place scope name := by
  induction decorated with
  | start nothing =>
      unfold Graph.declarationsAt
      rw [nothing, Entries.get?_nil, Option.getD_none, kind.table_none]
      rfl
  | @applied history graph later target other otherScope declaration _ stands ended
      inductionHypothesis =>
      obtain ⟨-, rfl⟩ := EStateM.Result.ok.inj ((stands.apply declaration).symm.trans ended)
      rw [Graph.declarationsAt_declare, kind.last?_append, ← inductionHypothesis]
      split
      · rename_i same
        subst same
        exact DeclarationKind.get?_table_enter ⟨place, otherScope, declaration⟩ _ scope name
      · rename_i different
        have elsewhere : kind.entered? place scope name ⟨other, otherScope, declaration⟩ =
            none := by
          simp [DeclarationKind.entered?, Ne.symm different]
        rw [elsewhere, Option.none_or]
  | beside _ same inductionHypothesis =>
      unfold Graph.declarationsAt at inductionHypothesis ⊢
      rw [same, inductionHypothesis]

/-! ## Lookups -/

theorem get?_foldl_orElse {α : Type} (table : Nat → List (String × α)) (lineage : List Nat)
    (merged : List (String × α)) (name : String) :
    Entries.get? (lineage.foldl (fun merged place => Entries.orElse merged (table place)) merged)
        name =
      (Entries.get? merged name).or (lineage.findSome? fun place => Entries.get? (table place) name)
      := by
  induction lineage generalizing merged with
  | nil => simp
  | cons place rest inductionHypothesis =>
      rw [List.foldl_cons, inductionHypothesis, Graph.get?_orElse, List.findSome?_cons]
      cases Entries.get? merged name <;> cases Entries.get? (table place) name <;> rfl

/-- Only one place of a row gets another answer.  If nearer ones answer already, the first answer
of the row stays as it is. -/
theorem findSome?_congr_of_hidden {α : Type} {first second : Nat → Option α} {place : Nat}
    (elsewhere : ∀ other, other ≠ place → second other = first other) {row : List Nat}
    (hidden : ∀ nearer farther, row = nearer ++ place :: farther →
      ∃ other ∈ nearer, first other ≠ none) :
    row.findSome? second = row.findSome? first := by
  induction row with
  | nil => rfl
  | cons head rest inductionHypothesis =>
      have notHead : head ≠ place := by
        rintro rfl
        obtain ⟨_, nowhere, _⟩ := hidden [] rest rfl
        cases nowhere
      rw [List.findSome?_cons, List.findSome?_cons, elsewhere head notHead]
      cases answer : first head with
      | some found => rfl
      | none =>
          refine inductionHypothesis fun nearer farther parts => ?_
          obtain ⟨other, isNearer, answers⟩ :=
            hidden (head :: nearer) farther (by rw [parts, List.cons_append])
          rcases List.mem_cons.1 isNearer with rfl | later
          · exact absurd answer answers
          · exact ⟨other, later, answers⟩

/-- If only one place of a row gets another answer and no nearer one answers, it is the first
answer of the row. -/
theorem findSome?_of_reached {α : Type} {first second : Nat → Option α} {place : Nat} {answer : α}
    (here : second place = some answer)
    (elsewhere : ∀ other, other ≠ place → second other = first other) {nearer farther : List Nat}
    (silent : ∀ other ∈ nearer, first other = none) :
    (nearer ++ place :: farther).findSome? second = some answer := by
  induction nearer with
  | nil => rw [List.nil_append, List.findSome?_cons, here]
  | cons head rest inductionHypothesis =>
      rw [List.cons_append, List.findSome?_cons]
      by_cases same : head = place
      · rw [same, here]
      · rw [elsewhere head same, silent head List.mem_cons_self]
        exact inductionHypothesis fun other isNearer =>
          silent other (List.mem_cons_of_mem _ isNearer)

namespace DeclarationKind

variable {α : Type} (kind : DeclarationKind α)

/-- The lookups of each class follow its lineage: no name is listed twice, and each has the last
declaration of the nearest class that has one. -/
structure Follows (history : List Applied) (graph : Graph) : Prop where
  distinct : ∀ owner scope, ((kind.lookups graph owner scope).map Prod.fst).Nodup
  nearest : ∀ owner scope name, Entries.get? (kind.lookups graph owner scope) name =
    kind.nearest? history (graph.lineage owner) scope name

/-- What a decorator changes: for a class that gets the name from where the declaration was
entered, the name stands for the declaration now.  All other lookups are as before. -/
structure Changes (history : List Applied) (graph : Graph) (applied : Applied) (later : Graph) :
    Prop where
  inherits : ∀ owner declared, kind.of? applied.declaration = some declared →
    kind.Inherits history graph owner applied.place applied.scope (kind.name declared) →
      Entries.get? (kind.lookups later owner applied.scope) (kind.name declared) = some declared
  others : ∀ owner scope name,
    (∀ declared, kind.of? applied.declaration = some declared → applied.scope = scope →
      kind.name declared = name → ¬ kind.Inherits history graph owner applied.place scope name) →
    Entries.get? (kind.lookups later owner scope) name =
      Entries.get? (kind.lookups graph owner scope) name

variable {kind}

theorem follows {history : List Applied} {graph : Graph} (decorated : Decorated history graph) :
    kind.Follows history graph where
  distinct owner scope := by
    rw [kind.lookups_eq]
    exact List.foldlRecOn (motive := fun merged : List (String × α) =>
      (merged.map Prod.fst).Nodup) (graph.lineage owner) _ List.nodup_nil
      fun _ holds _ _ => nodup_orElse holds _
  nearest owner scope name := by
    rw [kind.lookups_eq, get?_foldl_orElse, Entries.get?_nil, Option.none_or]
    simp only [decorated.get?_table kind]
    rfl

theorem entered?_cases {applied : Applied} {place : Nat} {scope : Scope} {name : String}
    {declared : α} (entered : kind.entered? place scope name applied = some declared) :
    kind.of? applied.declaration = some declared ∧ applied.place = place ∧
      applied.scope = scope ∧ kind.name declared = name := by
  obtain ⟨isOf, holds⟩ := Option.filter_eq_some_iff.1 entered
  exact ⟨isOf, by simpa using holds⟩

/-- A decorator leaves what is entered elsewhere as it is. -/
theorem last?_elsewhere {applied : Applied} {other : Nat} (different : other ≠ applied.place)
    (history : List Applied) (scope : Scope) (name : String) :
    kind.last? (history ++ [applied]) other scope name = kind.last? history other scope name := by
  have elsewhere : kind.entered? other scope name applied = none := by
    simp [entered?, different.symm]
  rw [kind.last?_append, elsewhere, Option.none_or]

theorem changes_of_follows {history : List Applied} {graph later : Graph} {applied : Applied}
    (before : kind.Follows history graph) (after : kind.Follows (history ++ [applied]) later)
    (lineage : ∀ owner, later.lineage owner = graph.lineage owner) :
    kind.Changes history graph applied later where
  inherits owner declared isOf := by
    rintro ⟨nearer, farther, parts, silent⟩
    have entered : kind.entered? applied.place applied.scope (kind.name declared) applied =
        some declared := by
      simp [entered?, isOf, Option.filter]
    rw [after.nearest, lineage, parts]
    refine findSome?_of_reached ?_ (fun other different => last?_elsewhere different ..) silent
    rw [kind.last?_append, entered, Option.some_or]
  others owner scope name apart := by
    rw [after.nearest, before.nearest, lineage]
    cases entered : kind.entered? applied.place scope name applied with
    | none =>
        have same : ∀ place, kind.last? (history ++ [applied]) place scope name =
            kind.last? history place scope name := by
          intro place
          by_cases here : place = applied.place
          · rw [kind.last?_append, here, entered, Option.none_or]
          · exact last?_elsewhere here ..
        simp only [nearest?, same]
    | some declared =>
        obtain ⟨isOf, -, sameScope, sameName⟩ := entered?_cases entered
        refine findSome?_congr_of_hidden (fun other different => last?_elsewhere different ..)
          fun nearer farther parts => ?_
        by_contra silent
        push Not at silent
        exact apart declared isOf sameScope sameName ⟨nearer, farther, parts, silent⟩

end DeclarationKind

/-- Declarations follow the classes.  Whatever decorators were applied, and in whatever order, the
lookups of every class give for each name the last declaration of its kind and scope on the nearest
class of the lineage that has one, and no other names.  Applying one more decorator changes the
lookups of its kind and scope only, and there those of the name on the class that the target stands
for and on the classes that inherit the name from it, and all of these give the new declaration. -/
theorem declarations_follow_lineage {history : List Applied} {graph : Graph}
    (decorated : Decorated history graph) :
    (∀ place chain, graph.Chain (some place) chain → graph.lineage (.object place) = chain) ∧
      DeclarationKind.field.Follows history graph ∧ DeclarationKind.method.Follows history graph ∧
      ∀ target place scope, graph.Stands target place scope → ∀ declaration : Declaration,
        ∃ later, declaration.apply target graph = .ok () later ∧
          Decorated (history ++ [⟨place, scope, declaration⟩]) later ∧
          DeclarationKind.field.Changes history graph ⟨place, scope, declaration⟩ later ∧
          DeclarationKind.method.Changes history graph ⟨place, scope, declaration⟩ later := by
  refine ⟨fun place chain chained => chained.lineage, DeclarationKind.follows decorated,
    DeclarationKind.follows decorated, fun target place scope stands declaration => ?_⟩
  have applies := stands.apply declaration
  have onward := decorated.applied declaration stands applies
  have lineage := graph.lineage_declare place (declaration.enter scope)
  exact ⟨_, applies, onward,
    DeclarationKind.changes_of_follows (DeclarationKind.follows decorated)
      (DeclarationKind.follows onward) lineage,
    DeclarationKind.changes_of_follows (DeclarationKind.follows decorated)
      (DeclarationKind.follows onward) lineage⟩

/-- The standard graph with a class and one that descends from it. -/
@[irreducible]
def familyGraph : Graph :=
  stateAfter (do
    let parent ← Run.newClass "Parent" none ⟨none, none, []⟩
    Run.newClass "Child" (some parent) ⟨none, none, []⟩)
    Graph.standard

/-- The class from which the other one of the family descends. -/
def parentPlace : Nat :=
  Graph.standard.objects.size

/-- The class that descends from the other one. -/
def childPlace : Nat :=
  parentPlace + 2

/-- A method that gives instances of a built-in class. -/
def giving (owner : BuiltinClass) : MethodDeclaration :=
  ⟨"m", .object owner.place, []⟩

/-- The declarations of the family: the child declares a method, and later the parent does. -/
def familyHistory : List Applied :=
  [⟨childPlace, .onInstance, .method (giving .string)⟩,
    ⟨parentPlace, .onInstance, .method (giving .number)⟩]

theorem family_decorated : ∃ graph, Decorated familyHistory graph ∧
    (∀ owner, graph.lineage owner = familyGraph.lineage owner) ∧
    graph.Stands (.object parentPlace) parentPlace .onClass := by
  have nothing : familyGraph.declarations = [] := List.isEmpty_iff.1 (by decide +kernel)
  have child : familyGraph.Stands (.object (childPlace + 1)) childPlace .onInstance :=
    .shared (by decide +kernel) (by decide +kernel)
  have parent : familyGraph.Stands (.object (parentPlace + 1)) parentPlace .onInstance :=
    .shared (by decide +kernel) (by decide +kernel)
  have itself : familyGraph.Stands (.object parentPlace) parentPlace .onClass :=
    .owner (by decide +kernel)
  have childFirst := (Decorated.start nothing).applied (.method (giving .string)) child
    (child.apply _)
  have parentLater := parent.declare childPlace
    ((Declaration.method (giving .string)).enter .onInstance)
  refine ⟨_, childFirst.applied (.method (giving .number)) parentLater (parentLater.apply _), ?_,
    (itself.declare _ _).declare _ _⟩
  intro owner
  rw [Graph.lineage_declare, Graph.lineage_declare]

theorem lineage_family :
    familyGraph.lineage (.object childPlace) = [childPlace, parentPlace] ∧
      familyGraph.lineage (.object parentPlace) = [parentPlace] := by
  constructor <;> decide +kernel

theorem last?_family :
    let last? := DeclarationKind.method.last? familyHistory
    last? childPlace .onInstance "m" = some (giving .string) ∧
      last? parentPlace .onInstance "m" = some (giving .number) ∧
      last? childPlace .onClass "m" = none := by
  simp [DeclarationKind.last?, DeclarationKind.entered?, DeclarationKind.method, familyHistory,
    giving, Option.filter, childPlace]

/-- Each class of the family has its own declaration of the method.  A method of the class itself
that the parent declares is one of the child, too, and changes nothing else. -/
theorem child_keeps_its_method :
    ∃ graph later, Decorated familyHistory graph ∧
      Entries.get? (graph.methods (.object childPlace) .onInstance) "m" = some (giving .string) ∧
      Entries.get? (graph.methods (.object parentPlace) .onInstance) "m" = some (giving .number) ∧
      (Declaration.method (giving .date)).apply (.object parentPlace) graph = .ok () later ∧
      Entries.get? (later.methods (.object childPlace) .onClass) "m" = some (giving .date) ∧
      Entries.get? (later.methods (.object childPlace) .onInstance) "m" =
        some (giving .string) := by
  obtain ⟨graph, decorated, lineage, itself⟩ := family_decorated
  obtain ⟨lineageChild, lineageParent⟩ := lineage_family
  obtain ⟨ofChild, ofParent, ofChildItself⟩ := last?_family
  obtain ⟨_, _, methods, applies⟩ := declarations_follow_lineage decorated
  obtain ⟨later, applied, _, _, changes⟩ :=
    applies (.object parentPlace) parentPlace .onClass itself (.method (giving .date))
  have forChild : Entries.get? (graph.methods (.object childPlace) .onInstance) "m" =
      some (giving .string) := by
    refine (methods.nearest (.object childPlace) .onInstance "m").trans ?_
    rw [lineage, lineageChild, DeclarationKind.nearest?, List.findSome?_cons, ofChild]
  refine ⟨graph, later, decorated, forChild, ?_, applied, ?_, ?_⟩
  · refine (methods.nearest (.object parentPlace) .onInstance "m").trans ?_
    rw [lineage, lineageParent, DeclarationKind.nearest?, List.findSome?_cons, ofParent]
  · refine changes.inherits (.object childPlace) (giving .date) rfl ⟨[childPlace], [], ?_, ?_⟩
    · rw [lineage, lineageChild]
      rfl
    · exact List.forall_mem_singleton.2 ofChildItself
  · refine (changes.others (.object childPlace) .onInstance "m" ?_).trans forChild
    intro _ _ sameScope
    cases sameScope

/-- The standard graph with a class that holds a function of its own as the `constructor` of its
instances. -/
@[irreducible]
def strayGraph : Graph :=
  stateAfter (do
    let owner ← Run.newClass "Stray" none ⟨none, none, []⟩
    let shared ← Run.read owner "prototype"
    let function ← Run.newFunction "constructor" []
    Run.defineMember shared (.ofText "constructor") (.data function .hidden))
    Graph.standard

/-- A method that is declared on what the instances of a class share is not found on the class, if
they have another `constructor`. -/
theorem declaration_misses_its_class :
    let owner := Value.object Graph.standard.objects.size
    strayGraph.declarations.isEmpty = true ∧
      (do
        let shared ← Run.read owner "prototype"
        (Declaration.method ⟨"m", openType, []⟩).apply shared
        let graph ← get
        pure (Entries.get? (graph.methods owner .onInstance) "m").isSome : Run Bool).run'
          strayGraph = some false := by
  constructor <;> decide +kernel

end ObjectPath
