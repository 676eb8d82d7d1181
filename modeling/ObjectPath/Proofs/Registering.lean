import ObjectPath.Proofs.Outcome
import ObjectPath.Registry

/-!
# Registries

A registry only gains bindings, and it gains one only for a name and a type that are both not
bound.  So a name stays bound to its type, and names and types are matched one to one.
-/

namespace ObjectPath

/-! ## Identity -/

theorem Number.equal_self {number : Number} (isNumber : number ≠ .nan) :
    number.equal number = true := by
  unfold Number.equal
  rcases number with _ | ⟨_ | _⟩ | _ | _
  · exact absurd rfl isNumber
  all_goals exact beq_self_eq_true _

theorem Value.sameOrNan_self (value : Value) : value.sameOrNan value = true := by
  unfold Value.sameOrNan
  split
  · rfl
  · rename_i notNan
    cases value with
    | number number => exact Number.equal_self fun isNan => notNan (congrArg _ isNan) (congrArg _ isNan)
    | _ => exact beq_self_eq_true _

theorem Value.sameOrNan_string {value : Value} {text : String} :
    value.sameOrNan (.string text) = true ↔ value = .string text := by
  cases value <;> simp [Value.sameOrNan, Value.same]

theorem Value.same_object {value : Value} {place : Nat} :
    value.same (.object place) = true ↔ value = .object place := by
  cases value <;> simp [Value.same]

theorem Value.sameOrNan_object {value : Value} {place : Nat} :
    value.sameOrNan (.object place) = true ↔ value = .object place := by
  cases value <;> simp [Value.sameOrNan, Value.same]

theorem Value.exists_of_isObject {value : Value} (isObject : value.isObject = true) :
    ∃ place, value = .object place := by
  cases value with
  | object place => exact ⟨place, rfl⟩
  | _ => cases isObject

namespace Registry

/-! ## Tables -/

theorem lookUp_append_of_some {table : List (Value × Value)} {key value : Value}
    (found : lookUp table key = some value) (entry : Value × Value) :
    lookUp (table ++ [entry]) key = some value := by
  rw [lookUp, Option.map_eq_some_iff] at found ⊢
  obtain ⟨pair, first, rfl⟩ := found
  exact ⟨pair, by rw [List.find?_append, first]; rfl, rfl⟩

theorem lookUp_append_self {table : List (Value × Value)} {key : Value}
    (free : lookUp table key = none) (value : Value) :
    lookUp (table ++ [(key, value)]) key = some value := by
  rw [lookUp, Option.map_eq_none_iff] at free
  rw [lookUp, List.find?_append, free, Option.none_or, List.find?_singleton,
    if_pos (Value.sameOrNan_self key)]
  rfl

theorem lookUp_eq_none_iff {table : List (Value × Value)} {key : Value} :
    lookUp table key = none ↔ ∀ entry ∈ table, entry.1.sameOrNan key = false := by
  rw [lookUp, Option.map_eq_none_iff, List.find?_eq_none]
  simp only [Bool.not_eq_true]

/-- The keys of a table differ from each other. -/
def Distinct (table : List (Value × Value)) : Prop :=
  table.Pairwise fun earlier later => earlier.1.sameOrNan later.1 = false

theorem Distinct.append {table : List (Value × Value)} (distinct : Distinct table) {key : Value}
    (free : lookUp table key = none) (value : Value) : Distinct (table ++ [(key, value)]) := by
  refine List.pairwise_append.2 ⟨distinct, List.pairwise_singleton _ _, fun entry member => ?_⟩
  simpa using lookUp_eq_none_iff.1 free entry member

/-- Of a table whose keys differ from each other, every entry is found. -/
theorem Distinct.lookUp_of_mem {table : List (Value × Value)} (distinct : Distinct table)
    {key value : Value} (member : (key, value) ∈ table) : lookUp table key = some value := by
  induction table with
  | nil => cases member
  | cons first rest inductionHypothesis =>
      obtain ⟨firstDiffers, restDistinct⟩ := List.pairwise_cons.1 distinct
      rcases List.mem_cons.1 member with rfl | isLater
      · rw [lookUp, List.find?_cons, show (key, value).1.sameOrNan key = true from
          Value.sameOrNan_self key]
        rfl
      · rw [lookUp, List.find?_cons_of_neg (by
          rw [firstDiffers _ isLater]; exact Bool.false_ne_true)]
        exact inductionHypothesis restDistinct isLater

/-- What is found under a key that is the same as no other value is held under that key. -/
theorem mem_of_lookUp {table : List (Value × Value)} {key value : Value}
    (exactly : ∀ other : Value, other.sameOrNan key = true → other = key)
    (found : lookUp table key = some value) : (key, value) ∈ table := by
  rw [lookUp, Option.map_eq_some_iff] at found
  obtain ⟨entry, first, rfl⟩ := found
  have same := List.find?_some first
  rw [← exactly _ same]
  exact List.mem_of_find?_eq_some first

/-! ## Registrations -/

/-- What registering a type under a name makes of a registry: it stays as it is, or it gains
their binding, where both were not bound. -/
inductive Registers (registry : Registry) (name type : Value) : Registry → Prop
  | same : Registers registry name type registry
  | bound : registry.type? name = none → registry.name? type = none →
      Registers registry name type (registry.bind name type)

section Registers

variable {registry later : Registry} {name type : Value}

theorem Registers.type? (registers : Registers registry name type later) {other found : Value}
    (isBound : registry.type? other = some found) : later.type? other = some found := by
  cases registers with
  | same => exact isBound
  | bound => exact lookUp_append_of_some isBound _

theorem Registers.name? (registers : Registers registry name type later) {other found : Value}
    (isBound : registry.name? other = some found) : later.name? other = some found := by
  cases registers with
  | same => exact isBound
  | bound => exact lookUp_append_of_some isBound _

theorem type?_bind (free : registry.type? name = none) :
    (registry.bind name type).type? name = some type :=
  lookUp_append_self free type

/-- A text that is bound afterwards was bound before, or it is what the type was registered
under. -/
theorem Registers.eq_of_type? (registers : Registers registry name type later) {text : String}
    {found : Value} (isBound : later.type? (.string text) = some found) :
    registry.type? (.string text) = some found ∨ .string text = name ∧ found = type := by
  cases registers with
  | same => exact Or.inl isBound
  | bound =>
      rw [Registry.type?, bind] at isBound
      cases before : registry.type? (.string text) with
      | some other =>
          rw [lookUp_append_of_some before] at isBound
          exact Or.inl isBound
      | none =>
          have member := mem_of_lookUp (fun _ => Value.sameOrNan_string.1) isBound
          rcases List.mem_append.1 member with isOld | isNew
          · have differs := lookUp_eq_none_iff.1 before _ isOld
            rw [Value.sameOrNan_self] at differs
            cases differs
          · exact Or.inr (Prod.mk.inj (List.mem_singleton.1 isNew))

theorem register_of_free (freeName : registry.type? name = none)
    (freeType : registry.name? type = none) :
    registry.register name type = pure (registry.bind name type) := by
  unfold register
  simp only [freeName, freeType]

theorem register_of_taken {existing : Value} (taken : registry.type? name = some existing)
    (different : existing.same type = false) :
    Gives (registry.register name type) fun _ => False := by
  unfold register
  simp only [taken, different]
  exact Gives.bind fun _ => Gives.bind fun _ => Gives.bind fun _ => Gives.throw

theorem register_gives (registry : Registry) (name type : Value) :
    Gives (registry.register name type) (Registers registry name type) := by
  unfold register
  split
  · split
    · exact Gives.pure .same
    · exact Gives.bind fun _ => Gives.bind fun _ => Gives.bind fun _ => Gives.throw
  · split
    · exact Gives.bind fun _ => Gives.bind fun _ => Gives.bind fun _ => Gives.throw
    · rename_i freeName _ freeType
      exact Gives.pure (.bound freeName freeType)

/-- A class that could be registered under a name is bound to it. -/
theorem register_binds (registry : Registry) (name : Value) (place : Nat) :
    Gives (registry.register name (.object place)) fun later =>
      later.type? name = some (.object place) := by
  unfold register
  split
  · rename_i existing found
    split
    · rename_i same
      rw [Value.same_object.1 same] at found
      exact Gives.pure found
    · exact Gives.bind fun _ => Gives.bind fun _ => Gives.bind fun _ => Gives.throw
  · split
    · exact Gives.bind fun _ => Gives.bind fun _ => Gives.bind fun _ => Gives.throw
    · rename_i freeName _ _
      exact Gives.pure (type?_bind freeName)

theorem nameOf_gives (registry : Registry) (type : Value) :
    Gives (registry.nameOf type) fun named => ∃ name, Registers registry name type named.2 := by
  unfold nameOf
  split
  · exact Gives.pure ⟨.undefined, .same⟩
  · refine Gives.bind fun asked => ?_
    split
    · refine Gives.bind fun name graph named later ended => ?_
      obtain ⟨registered, middle, start, finish⟩ := ok_of_bind ended
      cases finish
      exact ⟨name, register_gives registry name type _ _ _ start⟩
    · exact Gives.throw

end Registers

/-! ## One to one -/

/-- Names and types are matched one to one: no name and no type is bound twice, and the two
tables hold the same bindings. -/
structure Matched (registry : Registry) : Prop where
  names : Distinct registry.byName
  types : Distinct registry.byType
  inverse : registry.byType = registry.byName.map Prod.swap

theorem matched_empty : Matched .empty :=
  ⟨List.Pairwise.nil, List.Pairwise.nil, rfl⟩

theorem Registers.matched {registry later : Registry} {name type : Value}
    (registers : Registers registry name type later) (matched : registry.Matched) :
    later.Matched := by
  cases registers with
  | same => exact matched
  | bound freeName freeType =>
      constructor
      · exact matched.names.append freeName type
      · exact matched.types.append freeType name
      · rw [bind, matched.inverse, List.map_append, List.map_singleton, Prod.swap_prod_mk]

section Matched

variable {registry : Registry} (matched : registry.Matched)

include matched

theorem Matched.mem_byType {name type : Value} :
    (type, name) ∈ registry.byType ↔ (name, type) ∈ registry.byName := by
  rw [matched.inverse, List.mem_map]
  constructor
  · rintro ⟨⟨_, _⟩, member, ⟨⟩⟩
    exact member
  · exact fun member => ⟨_, member, rfl⟩

/-- A type that a name is bound to has a name. -/
theorem Matched.name?_ne_none {name type : Value} (found : registry.type? name = some type) :
    registry.name? type ≠ none := by
  rw [Registry.type?, lookUp, Option.map_eq_some_iff] at found
  obtain ⟨⟨own, _⟩, first, rfl⟩ := found
  have member := matched.mem_byType.2 (List.mem_of_find?_eq_some first)
  rw [Registry.name?, matched.types.lookUp_of_mem member]
  exact Option.some_ne_none own

/-- The name of the type that a name is bound to is that name. -/
theorem Matched.name?_of_type? {name : String} {type : Value}
    (found : registry.type? (.string name) = some type) :
    registry.name? type = some (.string name) := by
  have member := mem_of_lookUp (fun _ => Value.sameOrNan_string.1) found
  exact matched.types.lookUp_of_mem (matched.mem_byType.2 member)

/-- The name of a class is bound to it. -/
theorem Matched.type?_of_name? {place : Nat} {name : Value}
    (found : registry.name? (.object place) = some name) :
    registry.type? name = some (.object place) := by
  have member := mem_of_lookUp (fun _ => Value.sameOrNan_object.1) found
  exact matched.names.lookUp_of_mem (matched.mem_byType.1 member)

/-! ## Naming -/

/-- A type is known by a name: it is registered under the name, or it is an object that is not
registered and whose own name, which can be read again and again, is that name. -/
def Names (registry : Registry) (graph : Graph) (name : String) (type : Value) : Prop :=
  registry.type? (.string name) = some type ∨
    type.isObject = true ∧ registry.name? type = none ∧
      Run.step type "name" graph = .ok (.string name) graph

/-- The name of a registered type is looked up. -/
theorem nameOf_of_registered {name : String} {type : Value}
    (found : registry.type? (.string name) = some type) :
    registry.nameOf type = pure (some (.string name), registry) := by
  unfold nameOf
  rw [matched.name?_of_type? found]

/-- A class whose name is known, or can be read again and again, is bound to the name that it
is given. -/
theorem nameOf_of_steady {graph : Graph} {place : Nat}
    (steady : registry.name? (.object place) = none →
      Peeks (Run.step (.object place) "name") graph fun _ => True) :
    Ensures (registry.nameOf (.object place)) graph
      (fun named after => after = graph ∧ ∃ name, named.2.type? name = some (.object place) ∧
        (named.1 = some name ∧ registry.name? (.object place) = some name ∨
          named.1 = none ∧ registry.name? (.object place) = none ∧
            Run.step (.object place) "name" graph = .ok name graph))
      fun _ _ => True := by
  unfold nameOf
  cases known : registry.name? (.object place) with
  | some name => exact ⟨rfl, name, matched.type?_of_name? known, Or.inl ⟨rfl, rfl⟩⟩
  | none =>
      have peeks := steady known
      unfold Peeks Ensures at peeks
      cases read : Run.step (.object place) "name" graph with
      | error fault after => exact Ensures.error_bind read trivial
      | ok name after =>
          rw [read] at peeks
          obtain ⟨rfl, -⟩ := peeks
          refine Ensures.ok_bind read ?_
          split
          · refine Ensures.ok_bind read ?_
            cases bound : registry.type? name with
            | none =>
                rw [register_of_free bound known]
                exact Ensures.ok_bind rfl
                  ⟨rfl, name, type?_bind bound, Or.inr ⟨rfl, rfl, rfl⟩⟩
            | some existing =>
                have different : existing.same (.object place) = false := by
                  rw [Bool.eq_false_iff]
                  intro same
                  rw [Value.same_object.1 same] at bound
                  exact matched.name?_ne_none bound known
                refine Ensures.bind (register_of_taken bound different).ensures ?_
                exact fun _ _ impossible => impossible.elim
          · trivial

/-- Whenever a type is given its name, it is bound to the name that it is known by. -/
theorem nameOf_of_names {graph : Graph} {name : String} {type : Value}
    (names : registry.Names graph name type) :
    Ensures (registry.nameOf type) graph
      (fun named after => after = graph ∧
        (named.1 = some (.string name) ∨
          named.1 = none ∧ Run.step type "name" graph = .ok (.string name) graph) ∧
        named.2.type? (.string name) = some type)
      fun _ _ => True := by
  rcases names with found | ⟨isObject, free, read⟩
  · rw [nameOf_of_registered matched found]
    exact ⟨rfl, .inl rfl, found⟩
  · obtain ⟨place, rfl⟩ := Value.exists_of_isObject isObject
    have steady : Peeks (Run.step (.object place) "name") graph fun _ => True := by
      rw [Peeks, Ensures, read]
      exact ⟨rfl, trivial⟩
    refine (nameOf_of_steady matched fun _ => steady).mono ?_ fun _ _ => id
    rintro named after ⟨same, own, bound, ⟨_, known⟩ | ⟨unknown, _, again⟩⟩
    · cases free.symm.trans known
    · cases read.symm.trans again
      exact ⟨same, Or.inr ⟨unknown, read⟩, bound⟩

end Matched

end Registry

end ObjectPath
