import ObjectPath.Member
import ObjectPath.Proofs.Outcome

/-!
# Members that are found

Wherever a member is found, among the declarations, on what holds the members of a class or on a
value, it has the name, the class and the scope that were asked for.  A method that is found is
either a function that was read under its name, or one whose lookup is put off.
-/

namespace ObjectPath

namespace Member

/-- The class on which a member was looked up. -/
def owner : Member → Value
  | .field member => member.owner
  | .method member => member.owner

/-- The scope in which a member was looked up. -/
def scope : Member → Scope
  | .field member => member.scope
  | .method member => member.scope

/-- A member is one that was asked for. -/
structure Meets (member : Member) (owner : Value) (name : String) (scope : Scope) : Prop where
  name : member.name = name
  owner : member.owner = owner
  scope : member.scope = scope

end Member

/-! ## Fields -/

theorem fieldOnValue_open (owner : Value) (name : String) (value : Value) :
    Gives (fieldOnValue owner name value) fun field => field = openField owner name .onInstance := by
  refine Gives.bind fun content => Gives.bind fun graph => ?_
  split
  · exact Gives.pure rfl
  · split
    · exact Gives.throw
    · split
      · exact Gives.pure rfl
      · exact Gives.bind fun _ => Gives.throw

/-- What the lookup of a field can come to: the field that the class declares, which is found at
once, or an open one, if it declares none. -/
inductive FoundField (owner : Value) (name : String) (scope : Scope) (start : Graph) :
    FieldMember → Graph → Prop
  | declared (declaration : FieldDeclaration)
      (entered : Entries.get? (start.fields owner scope) name = some declaration) :
      FoundField owner name scope start ⟨name, owner, declaration.type, scope, true⟩ start
  | undeclared (absent : Entries.get? (start.fields owner scope) name = none) (later : Graph) :
      FoundField owner name scope start (openField owner name scope) later

/-- A lookup that ends was for a name that is not blocked, and found a field. -/
theorem findField_cases {owner : Value} {name : String} {scope : Scope} {value? : Option Value}
    {start later : Graph} {field : FieldMember}
    (ended : findField owner name scope value? start = .ok field later) :
    blockedNames.contains name = false ∧ FoundField owner name scope start field later := by
  unfold findField at ended
  split at ended
  · obtain ⟨_, _, _, thrown⟩ := ok_of_bind ended
    cases thrown
  rename_i unblocked
  refine ⟨Bool.eq_false_iff.2 unblocked, ?_⟩
  rw [bind_get] at ended
  cases entered : Entries.get? (start.fields owner scope) name with
  | some declaration =>
      rw [entered] at ended
      cases ended
      exact .declared declaration entered
  | none =>
      -- Whatever is found without an entry is an open field.
      rw [entered] at ended
      obtain ⟨holder, middle, _, onward⟩ := ok_of_bind ended
      rw [bind_get] at onward
      cases own : ownAmong? middle (holdersFrom middle holder scope) name with
      | some property =>
          simp only [own] at onward
          split at onward
          · obtain ⟨_, _, _, thrown⟩ := ok_of_bind onward
            cases thrown
          · cases onward
            exact .undeclared entered _
      | none =>
          simp only [own] at onward
          cases scope with
          | onClass =>
              obtain ⟨_, _, _, thrown⟩ := ok_of_bind onward
              cases thrown
          | onInstance =>
              cases known : knownValue value? with
              | some value =>
                  simp only [known] at onward
                  obtain rfl := fieldOnValue_open owner name _ _ _ _ onward
                  exact .undeclared entered _
              | none =>
                  simp only [known] at onward
                  split at onward
                  · cases onward
                    exact .undeclared entered _
                  · obtain ⟨_, _, _, thrown⟩ := ok_of_bind onward
                    cases thrown

theorem findField_meets (owner : Value) (name : String) (scope : Scope) (value? : Option Value) :
    Gives (findField owner name scope value?) fun field =>
      (Member.field field).Meets owner name scope := by
  intro start field later ended
  obtain ⟨_, found⟩ := findField_cases ended
  cases found <;> exact ⟨rfl, rfl, rfl⟩

/-! ## Methods -/

/-- What the lookup of a method can come to, once its name was read.  A function is taken with the
schemas that the class declares for it, or with none.  The lookup is put off only for an instance of
the open type that is not known yet. -/
inductive FoundMethod (resolver : Resolver) (owner : Value) (name : String) (scope : Scope)
    (value? : Option Value) (start : Graph) (content : Value) (middle : Graph) :
    MethodMember → Prop
  | declared (declaration : MethodDeclaration)
      (entered : Entries.get? (start.methods owner scope) name = some declaration)
      (callable : middle.isCallable content = true) :
      FoundMethod resolver owner name scope value? start content middle
        ⟨name, owner, declaration.returnType, scope, true, .call content declaration.schemas⟩
  | undeclared (absent : Entries.get? (start.methods owner scope) name = none)
      (callable : middle.isCallable content = true) :
      FoundMethod resolver owner name scope value? start content middle
        ⟨name, owner, openType, scope, false, .call content []⟩
  | late (notCallable : middle.isCallable content = false) (onInstance : scope = .onInstance)
      (unknown : knownValue value? = none) (isOpen : owner = openType) :
      FoundMethod resolver owner name scope value? start content middle
        ⟨name, owner, openType, scope, false, .lookUp resolver⟩

/-- A lookup that ends has read a name that is not blocked, and found a method by what it read. -/
theorem findMethod_cases {resolver : Resolver} {owner : Value} {name : String}
    {arguments : List Value} {scope : Scope} {value? : Option Value} {start later : Graph}
    {method : MethodMember}
    (ended : findMethod resolver owner name arguments scope value? start = .ok method later) :
    blockedNames.contains name = false ∧ ∃ content middle,
      readMethod owner name scope value? start = .ok content middle ∧
        FoundMethod resolver owner name scope value? start content middle method := by
  unfold findMethod at ended
  split at ended
  · obtain ⟨_, _, _, thrown⟩ := ok_of_bind ended
    cases thrown
  rename_i unblocked
  rw [bind_get] at ended
  obtain ⟨content, middle, isRead, rest⟩ := ok_of_bind ended
  refine ⟨Bool.eq_false_iff.2 unblocked, content, middle, isRead, ?_⟩
  rw [bind_get] at rest
  split at rest
  · rename_i callable
    cases entered : Entries.get? (start.methods owner scope) name with
    | none =>
        rw [entered] at rest
        cases rest
        exact .undeclared entered callable
    | some declaration =>
        rw [entered] at rest
        obtain ⟨checked, _, _, checks⟩ := ok_of_bind rest
        cases checked with
        | ok values =>
            cases checks
            exact .declared declaration entered callable
        | error issues =>
            obtain ⟨_, _, _, thrown⟩ := ok_of_bind checks
            cases thrown
  · rename_i notCallable
    split at rest
    · rename_i isLate
      cases rest
      simp only [Bool.and_eq_true, decide_eq_true_eq, Option.isNone_iff_eq_none] at isLate
      obtain ⟨⟨onInstance, unknown⟩, isOpen⟩ := isLate
      exact .late (Bool.eq_false_iff.2 notCallable) onInstance unknown isOpen
    · obtain ⟨_, _, _, thrown⟩ := ok_of_bind rest
      cases thrown

theorem findMethod_meets (resolver : Resolver) (owner : Value) (name : String)
    (arguments : List Value) (scope : Scope) (value? : Option Value) :
    Gives (findMethod resolver owner name arguments scope value?) fun method =>
      (Member.method method).Meets owner name scope := by
  intro start method later ended
  obtain ⟨_, content, middle, _, found⟩ := findMethod_cases ended
  cases found <;> exact ⟨rfl, rfl, rfl⟩

theorem MethodMember.invoke_of_call {member : MethodMember} {callee : Value}
    {schemas : List Schema} (carried : member.action = .call callee schemas) (target : Value)
    (values : List Value) :
    member.invoke target values = member.callChecked callee schemas target values := by
  rw [invoke, carried]

end ObjectPath
