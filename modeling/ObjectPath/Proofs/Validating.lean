import ObjectPath.Graph.Standard
import ObjectPath.Member
import ObjectPath.Proofs.Members

/-!
# Arguments that schemas accept

The check of an argument list asks every schema about the value in its own position, and judges by
the issues that were gathered whether the list passes.  The list passes exactly if every verdict is
free of issues, and gives the outputs of the schemas that accepted.  A schema that rejects a value
without giving an issue is therefore not noticed, and its position is left out of the outputs: where
no schema does so, a list passes exactly if every schema accepts its own value, and the function
behind a declared method is given exactly what the schemas gave, each in its own position.
-/

namespace ObjectPath

/-! ## Verdicts -/

namespace Verdict

/-- What a schema that accepts gives. -/
def output? : Verdict → Option Value
  | .accepted content => some content
  | _ => none

theorem output?_accepted (content : Value) : output? (.accepted content) = some content :=
  rfl

/-- The issues that a verdict adds for the argument at a position. -/
def issuesAt (position : Nat) : Verdict → List String
  | .accepted _ => []
  | .rejected reasons => argumentIssues position reasons
  | .deferred => argumentIssues position ["asynchronous schemas are not supported"]

/-- The issues that verdicts on arguments from a position on add. -/
def issuesFrom : Nat → List Verdict → List String
  | _, [] => []
  | position, verdict :: rest => verdict.issuesAt position ++ issuesFrom (position + 1) rest

/-- A verdict adds no issue. -/
def IsQuiet (verdict : Verdict) : Prop :=
  (∃ content, verdict = .accepted content) ∨ verdict = .rejected []

theorem issuesAt_eq_nil_iff (position : Nat) (verdict : Verdict) :
    verdict.issuesAt position = [] ↔ verdict.IsQuiet := by
  cases verdict <;> simp [issuesAt, argumentIssues, IsQuiet]

theorem issuesFrom_eq_nil_iff (position : Nat) (verdicts : List Verdict) :
    issuesFrom position verdicts = [] ↔ ∀ verdict ∈ verdicts, verdict.IsQuiet := by
  induction verdicts generalizing position with
  | nil => simp [issuesFrom]
  | cons verdict rest inductionHypothesis =>
      simp [issuesFrom, issuesAt_eq_nil_iff, inductionHypothesis]

/-- Verdicts without issues accept, unless one rejects without saying why. -/
theorem eq_accepted_of_quiet {verdicts : List Verdict}
    (quiet : ∀ verdict ∈ verdicts, verdict.IsQuiet) (explained : .rejected [] ∉ verdicts) :
    verdicts = (verdicts.filterMap output?).map .accepted := by
  induction verdicts with
  | nil => rfl
  | cons verdict rest inductionHypothesis =>
      have later := inductionHypothesis (fun other member => quiet other (.tail _ member))
        fun member => explained (.tail _ member)
      rcases quiet verdict (.head _) with ⟨content, rfl⟩ | rfl
      · rw [List.filterMap_cons_some (output?_accepted content), List.map_cons, ← later]
      · exact absurd (.head _) explained

theorem filterMap_output_accepted (outputs : List Value) :
    (outputs.map Verdict.accepted).filterMap output? = outputs := by
  induction outputs with
  | nil => rfl
  | cons content rest inductionHypothesis =>
      rw [List.map_cons, List.filterMap_cons_some (output?_accepted content), inductionHypothesis]

end Verdict

/-! ## Schemas that are asked in order -/

/-- Schemas are asked in order, each once and about the value in its own position, and all of them
answer. -/
inductive Answered : List Schema → List Value → Graph → List Verdict → Graph → Prop
  | nil {graph : Graph} : Answered [] [] graph [] graph
  | cons {schema : Schema} {value : Value} {schemas : List Schema} {values : List Value}
      {graph middle later : Graph} {verdict : Verdict} {verdicts : List Verdict} :
      schema.validate value graph = .ok verdict middle →
      Answered schemas values middle verdicts later →
      Answered (schema :: schemas) (value :: values) graph (verdict :: verdicts) later

/-- Every schema accepts the value in its own position, and gives the output there. -/
def Accepts (schemas : List Schema) (values : List Value) (graph : Graph) (outputs : List Value)
    (later : Graph) : Prop :=
  Answered schemas values graph (outputs.map .accepted) later

/-- No schema rejects its value without saying why. -/
def Explains (schemas : List Schema) (values : List Value) (graph : Graph) : Prop :=
  ∀ verdicts later, Answered schemas values graph verdicts later → .rejected [] ∉ verdicts

variable {schemas : List Schema} {values outputs : List Value} {verdicts : List Verdict}
  {graph later : Graph}

theorem Answered.length_eq (answered : Answered schemas values graph verdicts later) :
    values.length = schemas.length ∧ verdicts.length = schemas.length := by
  induction answered with
  | nil => exact ⟨rfl, rfl⟩
  | cons _ _ inductionHypothesis => simp [inductionHypothesis]

/-- The verdict in a position is that of the schema on the value in the position. -/
theorem Answered.at_position (answered : Answered schemas values graph verdicts later)
    {position : Nat} {schema : Schema} {value : Value} (asked : schemas[position]? = some schema)
    (given : values[position]? = some value) :
    ∃ verdict before after, verdicts[position]? = some verdict ∧
      schema.validate value before = .ok verdict after := by
  induction answered generalizing position with
  | nil => simp at asked
  | cons head _ inductionHypothesis =>
      cases position with
      | zero =>
          cases asked
          cases given
          exact ⟨_, _, _, rfl, head⟩
      | succ position => exact inductionHypothesis asked given

theorem checkEach_of_answered (answered : Answered schemas values graph verdicts later)
    (position : Nat) :
    checkEach position schemas values graph =
      .ok (verdicts.filterMap Verdict.output?, Verdict.issuesFrom position verdicts) later := by
  induction answered generalizing position with
  | nil => rfl
  | @cons schema value _ _ _ _ _ verdict _ head _ inductionHypothesis =>
      rw [checkEach, bind_of_ok head, bind_of_ok (inductionHypothesis (position + 1))]
      cases verdict <;> rfl

theorem answered_of_checkEach (sameLength : values.length = schemas.length) {position : Nat}
    {found : List Value × List String}
    (ended : checkEach position schemas values graph = .ok found later) :
    ∃ verdicts, Answered schemas values graph verdicts later := by
  induction schemas generalizing values graph position found with
  | nil =>
      obtain rfl := List.eq_nil_of_length_eq_zero sameLength
      cases ended
      exact ⟨[], .nil⟩
  | cons schema rest inductionHypothesis =>
      obtain ⟨value, others, rfl⟩ := List.exists_cons_of_length_eq_add_one sameLength
      rw [checkEach] at ended
      obtain ⟨verdict, middle, head, onward⟩ := ok_of_bind ended
      obtain ⟨inner, last, tail, given⟩ := ok_of_bind onward
      obtain rfl : last = later := by
        cases verdict <;> cases given <;> rfl
      obtain ⟨verdicts, answered⟩ := inductionHypothesis (Nat.succ.inj sameLength) tail
      exact ⟨verdict :: verdicts, .cons head answered⟩

/-! ## The check of an argument list -/

/-- What the check of an argument list gives if all schemas answer. -/
theorem checkArguments_of_answered (required : schemas ≠ [])
    (answered : Answered schemas values graph verdicts later) :
    checkArguments schemas values graph =
      .ok (if (Verdict.issuesFrom 0 verdicts).isEmpty then .ok (verdicts.filterMap Verdict.output?)
        else .error (Verdict.issuesFrom 0 verdicts)) later := by
  have notEmpty : ¬schemas.isEmpty := by simpa using required
  rw [checkArguments, if_neg notEmpty, if_neg (not_not_intro answered.length_eq.1),
    bind_of_ok (checkEach_of_answered answered 0)]
  rfl

theorem answered_of_checkArguments (required : schemas ≠ [])
    (passed : checkArguments schemas values graph = .ok (.ok outputs) later) :
    ∃ verdicts, Answered schemas values graph verdicts later := by
  have notEmpty : ¬schemas.isEmpty := by simpa using required
  rw [checkArguments, if_neg notEmpty] at passed
  by_cases sameLength : values.length = schemas.length
  · rw [if_neg (not_not_intro sameLength)] at passed
    obtain ⟨found, middle, asked, given⟩ := ok_of_bind passed
    obtain ⟨_, rfl⟩ := EStateM.Result.ok.inj given
    exact answered_of_checkEach sameLength asked
  · rw [if_pos sameLength] at passed
    cases passed

/-- An argument list passes exactly if no verdict adds an issue, and the outputs are those of the
schemas that accept. -/
theorem checkArguments_ok_iff_quiet (required : schemas ≠ []) :
    checkArguments schemas values graph = .ok (.ok outputs) later ↔
      ∃ verdicts, Answered schemas values graph verdicts later ∧
        (∀ verdict ∈ verdicts, verdict.IsQuiet) ∧ outputs = verdicts.filterMap Verdict.output? := by
  constructor
  · intro passed
    obtain ⟨verdicts, answered⟩ := answered_of_checkArguments required passed
    rw [checkArguments_of_answered required answered] at passed
    split at passed
    · rename_i isEmpty
      cases passed
      exact ⟨verdicts, answered,
        (Verdict.issuesFrom_eq_nil_iff 0 verdicts).1 (List.isEmpty_iff.1 isEmpty), rfl⟩
    · cases passed
  · rintro ⟨verdicts, answered, quiet, rfl⟩
    have noIssues := (Verdict.issuesFrom_eq_nil_iff 0 verdicts).2 quiet
    rw [checkArguments_of_answered required answered, noIssues]
    rfl

theorem checkArguments_of_accepts (required : schemas ≠ [])
    (accepts : Accepts schemas values graph outputs later) :
    checkArguments schemas values graph = .ok (.ok outputs) later := by
  refine (checkArguments_ok_iff_quiet required).2 ⟨_, accepts, ?_, ?_⟩
  · intro verdict member
    obtain ⟨content, _, rfl⟩ := List.mem_map.1 member
    exact .inl ⟨content, rfl⟩
  · exact (Verdict.filterMap_output_accepted outputs).symm

theorem accepts_of_checkArguments (required : schemas ≠ [])
    (explains : Explains schemas values graph)
    (passed : checkArguments schemas values graph = .ok (.ok outputs) later) :
    Accepts schemas values graph outputs later := by
  obtain ⟨verdicts, answered, quiet, rfl⟩ := (checkArguments_ok_iff_quiet required).1 passed
  have accepted := Verdict.eq_accepted_of_quiet quiet (explains verdicts later answered)
  rwa [Accepts, ← accepted]

theorem Accepts.length_eq (accepts : Accepts schemas values graph outputs later) :
    values.length = schemas.length ∧ outputs.length = schemas.length := by
  simpa using Answered.length_eq accepts

theorem Accepts.at_position (accepts : Accepts schemas values graph outputs later)
    {position : Nat} {schema : Schema} {value : Value} (asked : schemas[position]? = some schema)
    (given : values[position]? = some value) :
    ∃ output before after, outputs[position]? = some output ∧
      schema.validate value before = .ok (.accepted output) after := by
  obtain ⟨verdict, before, after, found, validated⟩ := Answered.at_position accepts asked given
  rw [List.getElem?_map] at found
  obtain ⟨output, here, rfl⟩ := Option.map_eq_some_iff.1 found
  exact ⟨output, before, after, here, validated⟩

/-! ## Methods -/

/-- A declared method carries out what its name means, with the schemas that it is declared with. -/
theorem declared_of_method {resolver : Resolver} {owner : Value} {name : String}
    {given : List Value} {scope : Scope} {value? : Option Value} {start ready : Graph}
    {found : MethodMember}
    (resolved : resolver.method owner name given scope value? start = .ok found ready)
    (declared : found.declared = true) :
    ∃ declaration callee middle,
      Entries.get? (start.methods owner scope) (resolver.actualName name) = some declaration ∧
      readMethod owner (resolver.actualName name) scope value? start = .ok callee middle ∧
      found.action = .call callee declaration.schemas := by
  obtain ⟨_, callee, middle, reads, looked⟩ := findMethod_cases resolved
  cases looked with
  | declared declaration entered _ => exact ⟨declaration, callee, middle, entered, reads, rfl⟩
  | undeclared => cases declared
  | late => cases declared

namespace MethodMember

variable {member : MethodMember} {callee : Value}

theorem callChecked_of_accepts (required : schemas ≠ [])
    (accepts : Accepts schemas values graph outputs later) (target : Value) :
    member.callChecked callee schemas target values graph =
      Run.call callee target outputs later := by
  rw [callChecked, bind_of_ok (checkArguments_of_accepts required accepts)]

/-- Unless every schema accepts, a call fails, whatever the function is that it is meant for. -/
theorem callChecked_of_not_accepts (required : schemas ≠ [])
    (explains : Explains schemas values graph)
    (refused : ¬∃ outputs later, Accepts schemas values graph outputs later) (target : Value) :
    ∃ fault later, ∀ callee,
      member.callChecked callee schemas target values graph = .error fault later := by
  cases checked : checkArguments schemas values graph with
  | error fault later =>
      exact ⟨fault, later, fun callee => by rw [callChecked, bind_of_error checked]⟩
  | ok outcome middle =>
      cases outcome with
      | ok outputs =>
          exact absurd ⟨outputs, middle, accepts_of_checkArguments required explains checked⟩
            refused
      | error issues =>
          -- Writing out the issues runs code as well, and may fail with a fault of its own.
          cases described : incompatible member.owner member.name values issues middle with
          | ok fault later =>
              refine ⟨fault, later, fun callee => ?_⟩
              rw [callChecked, bind_of_ok checked]
              exact bind_of_ok described
          | error fault later =>
              refine ⟨fault, later, fun callee => ?_⟩
              rw [callChecked, bind_of_ok checked]
              exact bind_of_error described

/-- A method that is looked up on its target is carried out as the method that is found there. -/
theorem invoke_of_lookUp {resolver : Resolver} {target owner : Value} {found : MethodMember}
    {middle ready : Graph} (awaits : member.action = .lookUp resolver)
    (typed : Run.typeOf target graph = .ok owner middle)
    (resolved : resolver.method owner member.name values .onInstance (some target) middle =
      .ok found ready) (declared : found.declared = true) :
    member.invoke target values graph = found.invoke target values ready := by
  obtain ⟨declaration, callee, _, _, _, carried⟩ := declared_of_method resolved declared
  rw [invoke_of_call carried, invoke, awaits]
  change (Run.typeOf target >>= _) graph = _
  rw [bind_of_ok typed, bind_of_ok resolved, carried]

end MethodMember

/-! ## Validated arguments -/

/-- Where no schema rejects a value without saying why, an argument list passes exactly if there are
as many arguments as schemas and every schema accepts the argument in its own position, and the
outputs are then those of the schemas, each in its position.  So the function behind a declared
method is called exactly if every schema accepts, and gets these outputs; it gets them also if the
method is looked up on its target.  Otherwise the call fails, whatever the function is. -/
theorem declared_method_sees_validated_arguments (schemas : List Schema) (values : List Value)
    (graph : Graph) (required : schemas ≠ []) (explains : Explains schemas values graph) :
    (∀ outputs later, checkArguments schemas values graph = .ok (.ok outputs) later ↔
      values.length = schemas.length ∧ Accepts schemas values graph outputs later) ∧
    (∀ outputs later, Accepts schemas values graph outputs later →
      outputs.length = schemas.length ∧
      ∀ (position : Nat) (schema : Schema) (value : Value),
        schemas[position]? = some schema → values[position]? = some value →
        ∃ output before after, outputs[position]? = some output ∧
          schema.validate value before = .ok (.accepted output) after) ∧
    (∀ (resolver : Resolver) (owner : Value) (name : String) (given : List Value) (scope : Scope)
      (value? : Option Value) (start ready : Graph) (found : MethodMember),
      resolver.method owner name given scope value? start = .ok found ready →
      found.declared = true →
      ∃ declaration callee middle,
        Entries.get? (start.methods owner scope) (resolver.actualName name) = some declaration ∧
        readMethod owner (resolver.actualName name) scope value? start = .ok callee middle ∧
        found.action = .call callee declaration.schemas ∧
        (declaration.schemas = schemas → ∀ target,
          (∀ outputs later, Accepts schemas values graph outputs later →
            found.invoke target values graph = Run.call callee target outputs later) ∧
          ((¬∃ outputs later, Accepts schemas values graph outputs later) →
            ∃ fault later, ∀ other,
              { found with action := .call other schemas }.invoke target values graph =
                .error fault later))) ∧
    (∀ (resolver : Resolver) (member found : MethodMember) (target owner : Value)
      (before middle : Graph), member.action = .lookUp resolver →
      Run.typeOf target before = .ok owner middle →
      resolver.method owner member.name values .onInstance (some target) middle =
        .ok found graph →
      found.declared = true →
      member.invoke target values before = found.invoke target values graph) := by
  refine ⟨fun outputs later => ⟨fun passed => ?_, fun accepted => ?_⟩,
    fun outputs later accepts => ?_, ?_, ?_⟩
  · have accepts := accepts_of_checkArguments required explains passed
    exact ⟨accepts.length_eq.1, accepts⟩
  · exact checkArguments_of_accepts required accepted.2
  · exact ⟨accepts.length_eq.2, fun _ _ _ asked given => accepts.at_position asked given⟩
  · intro resolver owner name given scope value? start ready found resolved declared
    obtain ⟨declaration, callee, middle, entered, reads, carried⟩ :=
      declared_of_method resolved declared
    refine ⟨declaration, callee, middle, entered, reads, carried, ?_⟩
    -- The schemas that the call checks are the declared ones, so what they accept decides what it
    -- does.
    rintro rfl target
    refine ⟨fun outputs later accepts => ?_, fun refused => ?_⟩
    · rw [MethodMember.invoke_of_call carried]
      exact MethodMember.callChecked_of_accepts required accepts target
    · obtain ⟨fault, later, fails⟩ :=
        found.callChecked_of_not_accepts required explains refused target
      exact ⟨fault, later, fails⟩
  · intro resolver member found target owner before middle awaits typed resolved declared
    exact MethodMember.invoke_of_lookUp awaits typed resolved declared

/-- The graph in which arrays declare the schemas of what is pushed. -/
def guardedPush (schemas : List Schema) : Graph :=
  Graph.standard.declareMethod BuiltinClass.array.place .onInstance ⟨"push", openType, schemas⟩

theorem push_sees_validated_arguments :
    Explains [.upperCase, .integerText] [.string "a", .string "-7"]
        (guardedPush [.upperCase, .integerText]) ∧
      ∃ found ready callee,
        Resolver.standard.method (.object BuiltinClass.array.place) "push"
            [.string "b", .string "1"] .onInstance none (guardedPush [.upperCase, .integerText]) =
          .ok found ready ∧
        found.declared = true ∧
        ∀ target, found.invoke target [.string "a", .string "-7"]
            (guardedPush [.upperCase, .integerText]) =
          Run.call callee target [.string "A", .number (.ofText "-7")]
            (guardedPush [.upperCase, .integerText]) := by
  have accepts : Accepts [.upperCase, .integerText] [.string "a", .string "-7"]
      (guardedPush [.upperCase, .integerText]) [.string "A", .number (.ofText "-7")]
      (guardedPush [.upperCase, .integerText]) := .cons rfl (.cons rfl .nil)
  have explains : Explains [.upperCase, .integerText] [.string "a", .string "-7"]
      (guardedPush [.upperCase, .integerText]) := by
    rintro _ _ (_ | ⟨first, _ | ⟨second, _ | _⟩⟩)
    cases first
    cases second
    simp
  obtain ⟨_, _, methods, _⟩ := declared_method_sees_validated_arguments _ _ _ (by simp) explains
  obtain ⟨found, ready, resolved, declared⟩ : ∃ found ready,
      Resolver.standard.method (.object BuiltinClass.array.place) "push"
        [.string "b", .string "1"] .onInstance none (guardedPush [.upperCase, .integerText]) =
          .ok found ready ∧ found.declared = true := ⟨_, _, rfl, rfl⟩
  obtain ⟨declaration, callee, _, entered, _, _, runs⟩ :=
    methods _ _ _ _ _ _ _ _ _ resolved declared
  obtain rfl := Option.some.inj entered
  exact ⟨explains, found, ready, callee, resolved, declared, fun target =>
    (runs rfl target).1 _ _ accepts⟩

/-- A schema that rejects without saying why is not noticed: the list passes, and the function gets
the second argument in the position of the first. -/
theorem silent_rejection_shifts_arguments :
    checkArguments [.rejectSilently, .anything] [.string "x", .string "y"]
        (guardedPush [.rejectSilently, .anything]) =
      .ok (.ok [.string "y"]) (guardedPush [.rejectSilently, .anything]) ∧
    (¬∃ outputs later, Accepts [.rejectSilently, .anything] [.string "x", .string "y"]
      (guardedPush [.rejectSilently, .anything]) outputs later) ∧
    ∃ found ready callee,
      Resolver.standard.method (.object BuiltinClass.array.place) "push"
          [.string "x", .string "y"] .onInstance none (guardedPush [.rejectSilently, .anything]) =
        .ok found ready ∧
      found.declared = true ∧
      ∀ target, found.invoke target [.string "x", .string "y"]
          (guardedPush [.rejectSilently, .anything]) =
        Run.call callee target [.string "y"] (guardedPush [.rejectSilently, .anything]) := by
  refine ⟨rfl, ?_, _, _, .object BuiltinFunction.push.place, rfl, rfl, fun _ => rfl⟩
  rintro ⟨outputs, later, accepts⟩
  obtain ⟨output, before, after, _, accepted⟩ :=
    @Accepts.at_position _ _ _ _ _ accepts 0 _ _ rfl rfl
  cases accepted

end ObjectPath
