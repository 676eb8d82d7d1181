import Mathlib.Data.List.Infix
import ObjectPath.Proofs.Splitting

/-!
# Parts between dots

A text is split at the dots that stand outside brackets and parentheses.  Which dots these are is
said by counting: what comes before such a dot opens as many brackets and parentheses as it
closes.  So splitting a text and joining its parts are inverse to one another, and a text that is
not split is not joined from any parts.
-/

namespace ObjectPath.PathText

/-! ## Counting -/

/-- The number of brackets and parentheses that a text opens, less the number of those that it
closes; one kind is not told from the other. -/
def balance (text : List Char) : Int :=
  ((text.count '(' + text.count '[' : Nat) : Int) - (text.count ')' + text.count ']' : Nat)

@[simp]
theorem balance_nil : balance [] = 0 :=
  rfl

theorem balance_cons (character : Char) (rest : List Char) :
    balance (character :: rest) = balance [character] + balance rest := by
  simp only [balance, List.count_cons, List.count_nil]
  omega

theorem balance_of_opens {character : Char} (isOpen : opens character = true) :
    balance [character] = 1 := by
  rw [opens, Bool.or_eq_true, beq_iff_eq, beq_iff_eq] at isOpen
  rcases isOpen with rfl | rfl <;> rfl

theorem balance_of_closes {character : Char} (isClose : closes character = true) :
    balance [character] = -1 := by
  rw [closes, Bool.or_eq_true, beq_iff_eq, beq_iff_eq] at isClose
  rcases isClose with rfl | rfl <;> rfl

theorem balance_of_neither {character : Char} (notOpen : opens character = false)
    (notClose : closes character = false) : balance [character] = 0 := by
  rw [opens, Bool.or_eq_false_iff] at notOpen
  rw [closes, Bool.or_eq_false_iff] at notClose
  simp [balance, List.count_cons, notOpen, notClose]

/-! ## Parts -/

/-- A text that can stand between two dots: it is not empty, closes nothing that it has not opened
and everything that it has, and has dots only where something is open. -/
structure Atomic (text : List Char) : Prop where
  something : text ≠ []
  neverBelow : ∀ before, before <+: text → 0 ≤ balance before
  closed : balance text = 0
  dotsInside : ∀ before, before ++ ['.'] <+: text → 0 < balance before

/-- A text that goes on where so many brackets and parentheses are open, and closes them all. -/
structure Closes (depth : Int) (text : List Char) : Prop where
  neverBelow : ∀ before, before <+: text → 0 ≤ depth + balance before
  closed : depth + balance text = 0
  dotsInside : ∀ before, before ++ ['.'] <+: text → 0 < depth + balance before

theorem atomic_iff {text : List Char} : Atomic text ↔ text ≠ [] ∧ Closes 0 text := by
  constructor
  · rintro ⟨something, neverBelow, closed, dotsInside⟩
    exact ⟨something, by simpa using neverBelow, by simpa using closed, by simpa using dotsInside⟩
  · rintro ⟨something, neverBelow, closed, dotsInside⟩
    exact ⟨something, by simpa using neverBelow, by simpa using closed, by simpa using dotsInside⟩

instance (text : List Char) : Decidable (Atomic text) :=
  decidable_of_iff (text ≠ [] ∧ (∀ before ∈ text.inits, 0 ≤ balance before) ∧ balance text = 0 ∧
      ∀ before ∈ text.inits, before ++ ['.'] <+: text → 0 < balance before) <| by
    constructor
    · rintro ⟨something, neverBelow, closed, dotsInside⟩
      exact ⟨something, fun before start => neverBelow before ((List.mem_inits ..).2 start), closed,
        fun before start => dotsInside before
          ((List.mem_inits ..).2 ((List.prefix_append ..).trans start)) start⟩
    · rintro ⟨something, neverBelow, closed, dotsInside⟩
      exact ⟨something, fun before start => neverBelow before ((List.mem_inits ..).1 start), closed,
        fun before _ => dotsInside before⟩

theorem closes_nil {depth : Int} : Closes depth [] ↔ depth = 0 := by
  constructor
  · intro closes
    simpa using closes.closed
  · rintro rfl
    exact ⟨by simp, by simp, by simp⟩

/-- What a text does after its first character, it does where that character leads. -/
theorem closes_cons {depth : Int} {character : Char} {rest : List Char} :
    Closes depth (character :: rest) ↔
      0 ≤ depth ∧ (character = '.' → 0 < depth) ∧ Closes (depth + balance [character]) rest := by
  constructor
  · rintro ⟨neverBelow, closed, dotsInside⟩
    refine ⟨by simpa using neverBelow [] List.nil_prefix, ?_, ?_, ?_, ?_⟩
    · rintro rfl
      simpa using dotsInside [] (by simp)
    · intro before start
      have later := neverBelow (character :: before) (by simpa using start)
      rwa [balance_cons, ← Int.add_assoc] at later
    · rwa [balance_cons, ← Int.add_assoc] at closed
    · intro before start
      have later := dotsInside (character :: before) (by simpa using start)
      rwa [balance_cons, ← Int.add_assoc] at later
  · rintro ⟨notBelow, dotInside, neverBelow, closed, dotsInside⟩
    refine ⟨?_, by rwa [balance_cons, ← Int.add_assoc], ?_⟩
    · intro before start
      rcases List.prefix_cons_iff.1 start with rfl | ⟨later, rfl, startRest⟩
      · simpa using notBelow
      · rw [balance_cons, ← Int.add_assoc]
        exact neverBelow later startRest
    · intro before start
      cases before with
      | nil =>
          obtain ⟨rfl, _⟩ := List.cons_prefix_cons.1 start
          simpa using dotInside rfl
      | cons first later =>
          obtain ⟨rfl, startRest⟩ := List.cons_prefix_cons.1 start
          rw [balance_cons, ← Int.add_assoc]
          exact dotsInside later startRest

/-! ## Splitting follows the count -/

theorem mem_marks_iff {character : Char} :
    character ∈ marks ↔ opens character = true ∨ closes character = true ∨ character = '.' := by
  simp only [marks, opens, closes, List.mem_cons, List.not_mem_nil, or_false, Bool.or_eq_true,
    beq_iff_eq]
  tauto

theorem passes_dot {depth : Nat} (inside : 0 < depth) : Passes depth ['.'] depth := by
  obtain ⟨outer, rfl⟩ := Nat.exists_eq_succ_of_ne_zero inside.ne'
  exact fun _ => rfl

/-- The splitter finds no part in what closes all that is open. -/
theorem passes_of_closes {depth : Nat} {text : List Char} (shuts : Closes depth text) :
    Passes depth text 0 := by
  induction text generalizing depth with
  | nil =>
      obtain rfl : depth = 0 := by simpa using closes_nil.1 shuts
      exact Passes.nil 0
  | cons character rest inductionHypothesis =>
      obtain ⟨_, dotInside, shutsRest⟩ := closes_cons.1 shuts
      -- Each case finds the depth that the character leads to.
      by_cases isOpen : opens character = true
      · rw [balance_of_opens isOpen] at shutsRest
        exact (passes_open isOpen depth).append (inductionHypothesis shutsRest)
      rw [Bool.not_eq_true] at isOpen
      by_cases isClose : closes character = true
      · rw [balance_of_closes isClose] at shutsRest
        have notBelow := shutsRest.neverBelow [] List.nil_prefix
        rw [balance_nil] at notBelow
        obtain ⟨outer, rfl⟩ := Nat.exists_eq_succ_of_ne_zero (n := depth) (by omega)
        refine (passes_close isOpen isClose outer).append (inductionHypothesis ?_)
        rwa [Int.natCast_succ, Int.add_neg_cancel_right] at shutsRest
      rw [Bool.not_eq_true] at isClose
      rw [balance_of_neither isOpen isClose, Int.add_zero] at shutsRest
      have stays : Passes depth [character] depth := by
        by_cases isDot : character = '.'
        · subst isDot
          exact passes_dot (by simpa using dotInside rfl)
        · refine passes_of_quiet (fun mark isMark member => ?_) depth
          obtain rfl := List.mem_singleton.1 member
          simp [mem_marks_iff, isOpen, isClose, isDot] at isMark
      exact stays.append (inductionHypothesis shutsRest)

/-- The first part closes what is open, and each later one what it has opened itself. -/
def Shut (depth : Nat) : List (List Char) → Prop
  | [] => False
  | first :: others => Closes depth first ∧ ∀ part ∈ others, Closes 0 part

theorem shut_of_continueFirst {depth after : Nat} {character : Char}
    {split : Except ExpressionFault (List (List Char))} {parts : List (List Char)}
    (leads : (after : Int) = depth + balance [character]) (inside : character = '.' → 0 < depth)
    (shuts : ∀ later, split = .ok later → Shut after later)
    (found : splitFrom.continueFirst character split = .ok parts) : Shut depth parts := by
  cases split with
  | error reason => cases found
  | ok later =>
      have shut := shuts later rfl
      cases later with
      | nil => exact shut.elim
      | cons first others =>
          cases found
          refine ⟨closes_cons.2 ⟨by omega, fun isDot => ?_, leads ▸ shut.1⟩, shut.2⟩
          exact Int.natCast_pos.2 (inside isDot)

theorem shut_of_splitFrom {depth : Nat} {text : List Char} {parts : List (List Char)}
    (found : splitFrom depth text = .ok parts) : Shut depth parts := by
  fun_induction splitFrom depth text generalizing parts with
  | case1 =>
      cases found
      exact ⟨closes_nil.2 rfl, by simp⟩
  | case2 => cases found
  | case3 depth character rest isOpen inductionHypothesis =>
      refine shut_of_continueFirst ?_ ?_ (fun _ => inductionHypothesis) found
      · rw [balance_of_opens isOpen, Int.natCast_succ]
      · rintro rfl
        cases isOpen
  | case4 => cases found
  | case5 character rest notOpen isClose outer inductionHypothesis =>
      refine shut_of_continueFirst ?_ (fun _ => outer.succ_pos) (fun _ => inductionHypothesis) found
      rw [balance_of_closes isClose, Int.natCast_succ, Int.add_neg_cancel_right]
  | case6 depth character rest notOpen notClose isDot inductionHypothesis =>
      obtain ⟨rfl, rfl⟩ := by simpa using isDot
      cases split : splitFrom 0 rest with
      | error reason =>
          rw [split] at found
          cases found
      | ok later =>
          have shut := inductionHypothesis split
          rw [split] at found
          cases found
          cases later with
          | nil => exact shut.elim
          | cons first others =>
              exact ⟨closes_nil.2 rfl, List.forall_mem_cons.2 ⟨shut.1, shut.2⟩⟩
  | case7 depth character rest notOpen notClose notDot inductionHypothesis =>
      rw [Bool.not_eq_true] at notOpen notClose
      refine shut_of_continueFirst ?_ ?_ (fun _ => inductionHypothesis) found
      · rw [balance_of_neither notOpen notClose, Int.add_zero]
      · rintro rfl
        exact Nat.pos_of_ne_zero (by simpa using notDot)

theorem closes_of_splitFrom {text : List Char} {parts : List (List Char)}
    (found : splitFrom 0 text = .ok parts) : ∀ part ∈ parts, Closes 0 part := by
  have shut := shut_of_splitFrom found
  cases parts with
  | nil => exact shut.elim
  | cons first others => exact List.forall_mem_cons.2 shut

/-! ## Splitting and joining -/

/-- A text is joined with dots from parts that can stand between them. -/
def Joined (parts : List String) (text : String) : Prop :=
  parts ≠ [] ∧ (∀ part ∈ parts, Atomic part.toList) ∧ text = ".".intercalate parts

theorem splitList_eq_ok_iff {text : List Char} {parts : List (List Char)} :
    splitList text = .ok parts ↔
      parts ≠ [] ∧ (∀ part ∈ parts, Atomic part) ∧ text = ['.'].intercalate parts := by
  constructor
  · intro found
    unfold splitList at found
    split at found
    · rename_i all split
      split at found
      · cases found
      · rename_i noneEmpty
        cases found
        obtain ⟨some, joined⟩ := intercalate_of_splitFrom split
        refine ⟨some, fun part member => atomic_iff.2 ⟨?_, closes_of_splitFrom split part member⟩,
          joined⟩
        rintro rfl
        exact noneEmpty (List.contains_iff_mem.2 member)
    · cases found
  · rintro ⟨some, atomic, rfl⟩
    have noneEmpty : parts.contains [] = false := by
      rw [List.contains_eq_mem, decide_eq_false_iff_not]
      exact fun member => (atomic [] member).something rfl
    have split := splitFrom_intercalate some fun part member =>
      passes_of_closes (atomic_iff.1 (atomic part member)).2
    rw [splitList, split]
    dsimp only
    rw [noneEmpty]
    rfl

theorem splitSegments_eq_ok_iff {expression body : String} {parts : List String} :
    splitSegments expression body = .ok parts ↔ Joined parts body := by
  have lists : splitSegments expression body = .ok parts ↔
      splitList body.toList = .ok (parts.map String.toList) := by
    unfold splitSegments
    cases splitList body.toList with
    | error reason => simp
    | ok found =>
        simp only [Except.ok.injEq]
        constructor
        · rintro rfl
          simp
        · rintro rfl
          simp
  rw [lists, splitList_eq_ok_iff, Joined, Ne, List.map_eq_nil_iff, List.forall_mem_map,
    ← String.toList_inj, String.toList_intercalate]
  rfl

/-- A text is joined from one list of such parts at most. -/
theorem Joined.unique {parts others : List String} {text : String} (joined : Joined parts text)
    (joinedOthers : Joined others text) : others = parts := by
  have split : splitSegments text text = .ok parts := splitSegments_eq_ok_iff.2 joined
  exact Except.ok.inj ((splitSegments_eq_ok_iff.2 joinedOthers).symm.trans split)

theorem splitSegments_refuses_iff {expression body : String} :
    (∃ reason, splitSegments expression body = .error (.invalidExpression expression reason none)) ↔
      ¬ ∃ parts, Joined parts body := by
  constructor
  · rintro ⟨reason, refused⟩ ⟨parts, joined⟩
    cases refused.symm.trans (splitSegments_eq_ok_iff.2 joined)
  · intro noParts
    cases split : splitSegments expression body with
    | ok parts => exact absurd ⟨parts, splitSegments_eq_ok_iff.1 split⟩ noParts
    | error fault =>
        unfold splitSegments at split
        split at split <;> cases split
        exact ⟨_, rfl⟩

/-- A text is split exactly if it is joined from parts that can stand between dots, of which there
is then one list only, and that list is what is found.  Splitting a joined list gives the list back
exactly if its parts are such and there is one.  Every other text is refused, with a fault that
names the expression. -/
theorem splitting_inverts_joining (expression : String) :
    (∀ body parts, splitSegments expression body = .ok parts ↔ Joined parts body) ∧
      (∀ body, (∃ parts, splitSegments expression body = .ok parts) ↔ ∃! parts, Joined parts body) ∧
      (∀ parts, splitSegments expression (".".intercalate parts) = .ok parts ↔
        parts ≠ [] ∧ ∀ part ∈ parts, Atomic part.toList) ∧
      ∀ body, (∃ reason, splitSegments expression body =
          .error (.invalidExpression expression reason none)) ↔ ¬ ∃ parts, Joined parts body := by
  refine ⟨fun _ _ => splitSegments_eq_ok_iff, fun body => ?_, fun parts => ?_,
    fun _ => splitSegments_refuses_iff⟩
  · simp only [splitSegments_eq_ok_iff]
    constructor
    · rintro ⟨parts, joined⟩
      exact ⟨parts, joined, fun _ joinedOthers => joined.unique joinedOthers⟩
    · exact ExistsUnique.exists
  · rw [splitSegments_eq_ok_iff, Joined, and_iff_left rfl]

/-- A dot inside does not split, even if what is open there is closed by the other kind. -/
theorem dots_inside_do_not_split :
    splitSegments "a.f(x.[y]].b[0]" "a.f(x.[y]].b[0]" = .ok ["a", "f(x.[y]]", "b[0]"] ∧
      ∃! parts, Joined parts "a.f(x.[y]].b[0]" := by
  obtain ⟨_, unique, joined, _⟩ := splitting_inverts_joining "a.f(x.[y]].b[0]"
  have split := (joined ["a", "f(x.[y]]", "b[0]"]).2 (by decide)
  exact ⟨split, (unique _).1 ⟨_, split⟩⟩

end ObjectPath.PathText
