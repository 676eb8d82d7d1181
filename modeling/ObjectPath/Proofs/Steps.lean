import ObjectPath.Node.Access
import ObjectPath.Proofs.Naming
import ObjectPath.Proofs.Region

/-!
# Paths as steps

A path of field and array nodes is a list of steps: names of fields and element numbers.
What such a path reads is a function of the graph, as long as nothing has to be computed on
the way.  This module defines that function and says which changes of a graph it survives.
-/

namespace ObjectPath

/-! ## Steps -/

/-- One step of a path: to a field, by the name that is looked up, or to an element. -/
inductive Step
  | field (name : String)
  | element (index : Nat)
  deriving DecidableEq

/-- The key of the slot that a step names. -/
def Step.key : Step → Key
  | .field name => .ofText name
  | .element index => .ofIndex index

namespace Node

/-- Whether a node calls no method. -/
def isPlain : Node → Bool
  | .field _ _ => true
  | .method _ _ _ _ => false
  | .array _ _ _ none => true
  | .array _ _ _ (some inner) => inner.isPlain

/-- A node that calls no method is a field, an element of its target, or an element of what
another such node gives. -/
theorem plainInduction {motive : ∀ node : Node, node.isPlain = true → Prop}
    (field : ∀ serial name, motive (.field serial name) rfl)
    (element : ∀ serial text index, motive (.array serial text index none) rfl)
    (nested : ∀ serial text index inner (plain : inner.isPlain = true), motive inner plain →
      motive (.array serial text index (some inner)) plain) :
    ∀ (node : Node) (plain : node.isPlain = true), motive node plain
  | .field serial name, _ => field serial name
  | .array serial text index none, _ => element serial text index
  | .array serial text index (some inner), plain =>
      nested serial text index inner plain (plainInduction field element nested inner plain)

variable (resolver : Resolver)

/-- The last step of a node that calls no method. -/
def final : Node → Step
  | .field _ name => .field (resolver.actualName name)
  | .method _ _ name _ => .field name
  | .array _ _ index _ => .element index

/-- The steps before the last one of a node that calls no method. -/
def leading : Node → List Step
  | .field _ _ => []
  | .method _ _ _ _ => []
  | .array _ _ _ none => []
  | .array _ _ _ (some inner) => inner.leading ++ [inner.final resolver]

/-- The steps of a node that calls no method. -/
def steps (node : Node) : List Step :=
  node.leading resolver ++ [node.final resolver]

end Node

namespace Graph

/-! ## Single steps -/

/-- The class of a value: what it finds as its constructor, if that is a class. -/
def classOf (graph : Graph) (value : Value) : Value :=
  let owner := graph.member value (.name "constructor")
  if graph.isArray value then
    .object BuiltinClass.array.place
  else if graph.isCallable owner && graph.member owner (.name "prototype") ≠ .undefined then
    owner
  else
    ObjectPath.openType

/-- The member that the objects shared by the instances of a class have under a name. -/
def shared? (graph : Graph) (owner : Value) (name : String) : Option Property :=
  ownAmong? graph (holdersFrom graph (graph.member owner (.name "prototype")) .onInstance) name

/-- Whether a value that finds some content under a name has a field of that name although its
class has none. -/
def hasOpenField (graph : Graph) (target : Value) (name : String) (content : Value) : Bool :=
  graph.has target (.ofText name) && !graph.isCallable content || graph.isPlainRecord target

/-- Whether a name that a class declares no field of is a field of a value all the same: a
shared slot that holds no function, or an open field of the value itself. -/
def hasUndeclared (graph : Graph) (owner target : Value) (name : String) : Bool :=
  match graph.shared? owner name with
  | some property => !holdsFunction graph property
  | none =>
      match graph.look? target (.ofText name) with
      | some content => graph.hasOpenField target name content
      | none => false

/-- The field of a name on a value that is there. -/
def field? (graph : Graph) (target : Value) (name : String) : Option FieldMember :=
  if blockedNames.contains name then
    none
  else
    match Entries.get? (graph.fields (graph.classOf target) .onInstance) name with
    | some declaration =>
        some ⟨name, graph.classOf target, declaration.type, .onInstance, true⟩
    | none =>
        if graph.hasUndeclared (graph.classOf target) target name then
          some (openField (graph.classOf target) name .onInstance)
        else
          none

/-- What a step gives on a value that is there. -/
def take? (graph : Graph) (value : Value) : Step → Option Value
  | .field name => (graph.field? value name).bind fun _ => graph.look? value (.ofText name)
  | .element index => if graph.isArray value then graph.look? value (.ofIndex index) else none

/-! ## Several steps -/

/-- What steps give in a row.  Nothing is stepped into where a value is missing. -/
def travel? (graph : Graph) : Value → List Step → Option Value
  | value, [] => some value
  | value, step :: rest =>
      if value.isMissing then some .null
      else (graph.take? value step).bind fun content => graph.travel? content rest

/-- Whether the lookups of steps ask an object for a key. -/
def Asks (graph : Graph) : Value → List Step → Nat → Key → Prop
  | _, [], _, _ => False
  | value, step :: rest, place, key =>
      (step.key = key ∧ place ∈ graph.asked value key) ∨
        graph.Asks (graph.member value step.key) rest place key

instance decidableAsks (graph : Graph) :
    ∀ value steps place key, Decidable (graph.Asks value steps place key)
  | _, [], _, _ => inferInstanceAs (Decidable False)
  | value, step :: rest, place, key =>
      have := graph.decidableAsks (graph.member value step.key) rest place key
      inferInstanceAs (Decidable ((step.key = key ∧ place ∈ graph.asked value key) ∨
        graph.Asks (graph.member value step.key) rest place key))

theorem travel?_of_isMissing (graph : Graph) {value : Value} (missing : value.isMissing = true)
    (steps : List Step) :
    ∃ content, graph.travel? value steps = some content ∧ content.isMissing = true := by
  cases steps with
  | nil => exact ⟨value, rfl, missing⟩
  | cons step rest => exact ⟨.null, by rw [travel?, if_pos missing], rfl⟩

theorem travel?_append (graph : Graph) (value : Value) (first second : List Step) :
    graph.travel? value (first ++ second) =
      (graph.travel? value first).bind fun content => graph.travel? content second := by
  induction first generalizing value with
  | nil => rfl
  | cons step rest inductionHypothesis =>
      cases missing : value.isMissing with
      | true =>
          simp only [List.cons_append, travel?, missing, if_true, Option.bind_some]
          cases second <;> rfl
      | false =>
          simp only [List.cons_append, travel?, missing, Bool.false_eq_true, if_false,
            inductionHypothesis, Option.bind_assoc]

theorem take?_look? {graph : Graph} {value content : Value} {step : Step}
    (taken : graph.take? value step = some content) :
    graph.look? value step.key = some content := by
  cases step with
  | field name =>
      obtain ⟨_, _, looked⟩ := Option.bind_eq_some_iff.1 taken
      exact looked
  | element index =>
      simp only [take?] at taken
      split at taken
      · exact taken
      · cases taken

/-- Steps that lead to a value which is there lead from values which are there. -/
theorem travel?_cons {graph : Graph} {value content : Value} {step : Step} {rest : List Step}
    (travelled : graph.travel? value (step :: rest) = some content)
    (present : content.isMissing = false) :
    value.isMissing = false ∧ ∃ next, graph.take? value step = some next ∧
      next.isMissing = false ∧ graph.travel? next rest = some content := by
  rw [travel?] at travelled
  split at travelled
  · cases travelled
    cases present
  · rename_i there
    obtain ⟨next, taken, onward⟩ := Option.bind_eq_some_iff.1 travelled
    refine ⟨by simpa using there, next, taken, ?_, onward⟩
    by_contra missing
    simp only [Bool.not_eq_false] at missing
    obtain ⟨other, travelledOther, otherMissing⟩ := graph.travel?_of_isMissing missing rest
    rw [onward, Option.some.injEq] at travelledOther
    rw [travelledOther, otherMissing] at present
    cases present

theorem asks_append {graph : Graph} {value content : Value} {first : List Step}
    (travelled : graph.travel? value first = some content) (present : content.isMissing = false)
    (second : List Step) (place : Nat) (key : Key) :
    graph.Asks value (first ++ second) place key ↔
      graph.Asks value first place key ∨ graph.Asks content second place key := by
  induction first generalizing value with
  | nil =>
      cases travelled
      simp [Asks]
  | cons step rest inductionHypothesis =>
      obtain ⟨_, next, taken, _, onward⟩ := travel?_cons travelled present
      have same := member_of_look? (take?_look? taken)
      simp only [List.cons_append, Asks, same, inductionHypothesis onward, or_assoc]

/-- A way that leads somewhere does not ask an object that lacks what it is asked for. -/
theorem Closed.not_asks_of_lacks {graph : Graph} (closed : graph.Closed) {value content : Value}
    {steps : List Step} (travelled : graph.travel? value steps = some content)
    (present : content.isMissing = false) {place : Nat} {key : Key}
    (lacks : graph.Lacks (.object place) key) : ¬ graph.Asks value steps place key := by
  induction steps generalizing value with
  | nil => exact id
  | cons step rest inductionHypothesis =>
      obtain ⟨_, next, taken, there, onward⟩ := travel?_cons travelled present
      have looked := take?_look? taken
      rintro (⟨rfl, isAsked⟩ | later)
      · unfold look? at looked
        split at looked <;> rename_i found <;> cases looked
        · cases there
        · exact closed.not_asked_of_lacks lacks found there isAsked
      · rw [member_of_look? looked] at later
        exact inductionHypothesis onward later

end Graph

end ObjectPath
