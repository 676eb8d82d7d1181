import ObjectPath.Comparison
import ObjectPath.Graph.Standard
import ObjectPath.Proofs.Naming
import ObjectPath.Proofs.Registering
import Mathlib.Algebra.Order.Ring.Unbundled.Rat
import Mathlib.Data.List.Lex
import Mathlib.Order.Compare
import Mathlib.Order.WithBot

/-!
# Values in order

A value has a rank, if it has an order at all: numbers and big integers have the place of their
exact value, texts their units, and dates the time that they tell.  Ranks of one kind lie in a row,
and ranks of different kinds have no order.  The comparisons of values are those of their ranks, as
long as asking dates for their times changes nothing.
-/

namespace ObjectPath

/-- How one place in a row lies to another. -/
def lie {κ : Type} [LinearOrder κ] (left right : κ) : Ordering :=
  cmp left right

section Lie

variable {κ : Type} [LinearOrder κ] {left right : κ}

theorem lie_eq_lt : lie left right = .lt ↔ left < right :=
  cmp_eq_lt_iff ..

theorem lie_eq_gt : lie left right = .gt ↔ right < left :=
  cmp_eq_gt_iff ..

theorem lie_eq_eq : lie left right = .eq ↔ left = right :=
  cmp_eq_eq_iff ..

/-- A comparison that asks for both directions of an order says how the places lie. -/
theorem ite_eq_lie {before after : Prop} [Decidable before] [Decidable after]
    (isBefore : before ↔ left < right) (isAfter : after ↔ right < left) :
    (if before then .lt else if after then .gt else .eq : Ordering) = lie left right := by
  simp only [isBefore, isAfter, lie, cmp, cmpUsing]

end Lie

/-! ## Places of exact values -/

namespace Point

/-- The exact value of a point, between the two infinities. -/
def exact : Point → WithBot (WithTop ℚ)
  | .below => ⊥
  | .at value => ((value.toRat : WithTop ℚ) : WithBot (WithTop ℚ))
  | .above => ((⊤ : WithTop ℚ) : WithBot (WithTop ℚ))

theorem before_iff (left right : Point) : left.before right = true ↔ left.exact < right.exact := by
  cases left with
  | below => cases right <;> simp [before, exact]
  | «at» value =>
      cases right with
      | below => simp [before, exact]
      | «at» other => simp [before, exact, Dyadic.toRat_lt_toRat_iff]
      | above => exact iff_of_true rfl (WithBot.coe_lt_coe.2 (WithTop.coe_lt_top _))
  | above => cases right <;> simp [before, exact]

theorem order_eq_lie (left right : Point) : left.order right = lie left.exact right.exact :=
  ite_eq_lie (before_iff left right) (before_iff right left)

theorem exact_ofInt (value : Int) :
    (ofInt value).exact = (((value : ℚ) : WithTop ℚ) : WithBot (WithTop ℚ)) := by
  rw [ofInt, exact, show (Dyadic.ofInt value).toRat = value from Dyadic.toRat_intCast value]

end Point

theorem Text.order_eq_lie (left right : String) :
    Text.order left right = lie (Text.units left) (Text.units right) :=
  ite_eq_lie (by simp [Text.unitsBefore]) (by simp [Text.unitsBefore])

/-! ## Ranks -/

/-- What values are ordered by: the exact value of a number or big integer, the units of a text, or
the time of a date.  Times that dates tell as big integers do not compare with other times. -/
inductive Rank
  | quantity (place : WithBot (WithTop ℚ))
  | text (units : List ℕ)
  | time (place : WithBot (WithTop ℚ))
  | exactTime (place : WithBot (WithTop ℚ))

namespace Rank

/-- How one rank lies to another, if they are of one kind. -/
def order? : Rank → Rank → Option Ordering
  | .quantity left, .quantity right => some (lie left right)
  | .text left, .text right => some (lie left right)
  | .time left, .time right => some (lie left right)
  | .exactTime left, .exactTime right => some (lie left right)
  | _, _ => none

theorem order?_quantity (place other : WithBot (WithTop ℚ)) :
    (Rank.quantity place).order? (.quantity other) = some (lie place other) :=
  rfl

theorem order?_text (place other : List Nat) :
    (Rank.text place).order? (.text other) = some (lie place other) :=
  rfl

theorem order?_time (place other : WithBot (WithTop ℚ)) :
    (Rank.time place).order? (.time other) = some (lie place other) :=
  rfl

theorem order?_self (rank : Rank) : rank.order? rank = some .eq := by
  cases rank <;> exact congrArg some (lie_eq_eq.2 rfl)

theorem order?_gt {left right : Rank} :
    left.order? right = some .gt ↔ right.order? left = some .lt := by
  cases left <;> cases right <;> simp [order?, lie_eq_gt, lie_eq_lt]

theorem order?_lt_trans {first second third : Rank} (left : first.order? second = some .lt)
    (right : second.order? third = some .lt) : first.order? third = some .lt := by
  cases first <;> cases second <;> first | cases left | skip
  all_goals cases third <;> first | cases right | skip
  all_goals
    simp only [order?, Option.some.injEq, lie_eq_lt] at left right ⊢
    exact left.trans right

end Rank

namespace Value

/-- The rank of a simple value. -/
def rank? : Value → Option Rank
  | .string text => some (.text (Text.units text))
  | value => value.point?.map fun point => .quantity point.exact

theorem order?_of_notText {left right : Value}
    (notText : ∀ first second, left = .string first → right ≠ .string second) :
    left.order? right =
      left.point?.bind fun point => right.point?.map fun other => lie point.exact other.exact := by
  unfold order?
  split
  · exact absurd rfl (notText _ _ rfl)
  · cases left.point? <;> cases right.point? <;> simp [Point.order_eq_lie]

/-- Simple values compare as their ranks. -/
theorem order?_iff {left right : Value} {order : Ordering} :
    left.order? right = some order ↔
      ∃ first second, left.rank? = some first ∧ right.rank? = some second ∧
        first.order? second = some order := by
  by_cases notText : ∀ first second, left = .string first → right ≠ .string second
  · rw [order?_of_notText notText]
    cases left <;> cases right <;>
      first
      | exact absurd rfl (notText _ _ rfl)
      | simp [rank?, Rank.order?, point?, Option.bind_eq_some_iff]
  · push Not at notText
    obtain ⟨first, second, rfl, rfl⟩ := notText
    simp [order?, rank?, Rank.order?, Text.order_eq_lie]

/-- The exact value of a number or big integer. -/
def quantity? (value : Value) : Option (WithBot (WithTop ℚ)) :=
  value.point?.map Point.exact

/-- All numbers but `nan` have an exact value, and all big integers. -/
theorem quantity?_isSome {value : Value} :
    value.quantity?.isSome = true ↔
      (∃ number, number ≠ .nan ∧ value = .number number) ∨ ∃ number, value = .bigint number := by
  rcases value with _ | _ | _ | (_ | ⟨_ | _⟩ | _ | _) | _ | _ | _ | _ <;>
    simp [quantity?, point?, Number.point?]

theorem quantity?_bigint (number : Int) :
    (Value.bigint number).quantity? = some (((number : ℚ) : WithTop ℚ) : WithBot (WithTop ℚ)) :=
  congrArg some (Point.exact_ofInt number)

theorem rank?_of_quantity? {value : Value} {place : WithBot (WithTop ℚ)}
    (isPlace : value.quantity? = some place) : value.rank? = some (.quantity place) := by
  cases value with
  | number content =>
      obtain ⟨point, isPoint, rfl⟩ := Option.map_eq_some_iff.1 isPlace
      exact Option.map_eq_some_iff.2 ⟨point, isPoint, rfl⟩
  | bigint content =>
      cases isPlace
      rfl
  | _ => cases isPlace

end Value

/-! ## Times of dates -/

section Run

variable {σ α : Type} {work : EStateM Fault σ α} {state : σ}

/-- What a computation that leaves the state alone comes to. -/
theorem answers_run' (still : stateAfter work state = state) :
    Answers work state True (work.run' state) := by
  unfold stateAfter at still
  unfold EStateM.run' EStateM.run
  cases ended : work state with
  | ok value later =>
      rw [ended] at still
      exact ended.trans (congrArg _ still)
  | error fault later =>
      rw [ended] at still
      exact fun _ => ⟨fault, ended.trans (congrArg _ still)⟩

theorem run'_of_answers {expected : Option α} (answers : Answers work state True expected) :
    work.run' state = expected := by
  cases expected with
  | some value => exact run'_of_ok answers
  | none =>
      obtain ⟨fault, ended⟩ := answers trivial
      unfold EStateM.run' EStateM.run
      rw [ended]

end Run

namespace Graph

variable {graph : Graph} {left right value : Value}

/-- The time that a date tells, if it tells one. -/
def told? (graph : Graph) (date : Value) : Option Value :=
  (timeTold "x" date).run' graph

/-- Asking a date for its time, and converting the time, changes nothing. -/
def TellsTime (graph : Graph) (value : Value) : Prop :=
  graph.isDate value = true →
    stateAfter (timeTold "x" value) graph = graph ∧
      ∀ told, graph.told? value = some told → stateAfter (timePoint told) graph = graph

/-- The words by which a date is asked only matter to the fault. -/
theorem told_words (words : String) (date : Value) :
    (timeTold words date).run' graph = graph.told? date ∧
      stateAfter (timeTold words date) graph = stateAfter (timeTold "x" date) graph := by
  unfold told? timeTold Run.callMember EStateM.run' EStateM.run stateAfter
  cases ended : Run.stepWith perform date "getTime" graph with
  | error fault later => rw [bind_of_error ended, bind_of_error ended]; exact ⟨rfl, rfl⟩
  | ok callee later =>
      rw [bind_of_ok ended, bind_of_ok ended, bind_get, bind_get]
      by_cases isCallable : later.isCallable callee = true
      · simp only [if_pos isCallable, and_self]
      · simp only [if_neg isCallable]
        exact ⟨rfl, rfl⟩

theorem TellsTime.answers (tells : graph.TellsTime value) (isDate : graph.isDate value = true)
    (words : String) : Answers (timeTold words value) graph True (graph.told? value) := by
  obtain ⟨same, sameState⟩ := graph.told_words words value
  rw [← same]
  exact answers_run' (sameState.trans (tells isDate).1)

/-- The rank of a time that has been told. -/
def timeRank? : Value → Option Rank
  | .number time => time.point?.map fun point => .time point.exact
  | .bigint time => some (.exactTime (Point.ofInt time).exact)
  | _ => none

/-- The rank of a value: that of its time if it is a date. -/
def rank? (graph : Graph) (value : Value) : Option Rank :=
  if graph.isDate value then
    (graph.told? value).bind fun told => ((timePoint told).run' graph).bind timeRank?
  else
    value.rank?

/-- How two times lie to each other; none if they are of different kinds. -/
def timesOrder? : Value → Value → Option (Option Ordering)
  | .bigint left, .bigint right => some ((Value.bigint left).order? (.bigint right))
  | .number left, .number right => some ((Value.number left).order? (.number right))
  | _, _ => none

theorem timesOrder?_iff {left right : Value} {order : Ordering} :
    timesOrder? left right = some (some order) ↔
      ∃ first second, timeRank? left = some first ∧ timeRank? right = some second ∧
        first.order? second = some order := by
  cases left <;> cases right <;>
    simp [timesOrder?, timeRank?, Rank.order?, Value.order?_iff, Value.rank?, Value.point?]

theorem orderDates_answers (tellsLeft : graph.TellsTime left) (tellsRight : graph.TellsTime right)
    (isDate : graph.isDate left = true) (isDateRight : graph.isDate right = true) :
    Answers (orderDates left right) graph True
      ((graph.told? left).bind fun first => (graph.told? right).bind fun second =>
        ((timePoint first).run' graph).bind fun time =>
          ((timePoint second).run' graph).bind fun other => timesOrder? time other) := by
  unfold orderDates
  refine (tellsLeft.answers isDate "x").bind fun first told => ?_
  refine (tellsRight.answers isDateRight "y").bind fun second toldRight => ?_
  refine (answers_run' ((tellsLeft isDate).2 first told)).bind fun time _ => ?_
  refine (answers_run' ((tellsRight isDateRight).2 second toldRight)).bind fun other _ => ?_
  cases time <;> cases other <;> first | rfl | exact fun _ => ⟨_, rfl⟩

theorem rank?_of_isDate (isDate : graph.isDate value = true) :
    graph.rank? value =
      (graph.told? value).bind fun told => ((timePoint told).run' graph).bind timeRank? :=
  if_pos isDate

theorem rank?_of_not_isDate (noDate : graph.isDate value = false) :
    graph.rank? value = value.rank? := by
  rw [rank?, noDate]
  rfl

/-- A date has no rank of its own. -/
theorem valueRank?_of_isDate (isDate : graph.isDate value = true) : value.rank? = none := by
  cases value with
  | object place => rfl
  | _ => cases isDate

theorem timeRank?_kind {time : Value} {rank : Rank} (isTime : timeRank? time = some rank) :
    (∃ place, rank = .time place) ∨ ∃ place, rank = .exactTime place := by
  cases time with
  | number content =>
      obtain ⟨point, _, rfl⟩ := Option.map_eq_some_iff.1 isTime
      exact Or.inl ⟨_, rfl⟩
  | bigint content =>
      cases isTime
      exact Or.inr ⟨_, rfl⟩
  | _ => cases isTime

theorem valueRank?_kind {rank : Rank} (isSimple : value.rank? = some rank) :
    (∃ place, rank = .quantity place) ∨ ∃ units, rank = .text units := by
  cases value with
  | string text =>
      cases isSimple
      exact Or.inr ⟨_, rfl⟩
  | number content =>
      obtain ⟨point, _, rfl⟩ := Option.map_eq_some_iff.1 isSimple
      exact Or.inl ⟨_, rfl⟩
  | bigint content =>
      cases isSimple
      exact Or.inl ⟨_, rfl⟩
  | _ => cases isSimple

/-- Times have no order with numbers and texts. -/
theorem order?_time {first second : Rank} {time : Value} (isTime : timeRank? time = some first)
    (isSimple : value.rank? = some second) :
    first.order? second = none ∧ second.order? first = none := by
  rcases timeRank?_kind isTime with ⟨_, rfl⟩ | ⟨_, rfl⟩ <;>
    rcases valueRank?_kind isSimple with ⟨_, rfl⟩ | ⟨_, rfl⟩ <;> exact ⟨rfl, rfl⟩

theorem isTime_of_rank? (isDate : graph.isDate value = true) {rank : Rank}
    (ranked : graph.rank? value = some rank) : ∃ time, timeRank? time = some rank := by
  rw [rank?_of_isDate isDate] at ranked
  obtain ⟨told, _, ranked⟩ := Option.bind_eq_some_iff.1 ranked
  obtain ⟨time, _, isTime⟩ := Option.bind_eq_some_iff.1 ranked
  exact ⟨time, isTime⟩

/-- Dates compare as the ranks of their times. -/
theorem orderDates_iff (tellsLeft : graph.TellsTime left) (tellsRight : graph.TellsTime right)
    (isDate : graph.isDate left = true) (isDateRight : graph.isDate right = true)
    {order : Ordering} :
    (orderDates left right).run' graph = some (some order) ↔
      ∃ first second, graph.rank? left = some first ∧ graph.rank? right = some second ∧
        first.order? second = some order := by
  rw [run'_of_answers (orderDates_answers tellsLeft tellsRight isDate isDateRight),
    rank?_of_isDate isDate, rank?_of_isDate isDateRight]
  simp only [Option.bind_eq_some_iff, timesOrder?_iff]
  constructor
  · rintro ⟨first, told, second, toldRight, time, isTime, other, isOther, rank, otherRank, ranked,
      rankedRight, order⟩
    exact ⟨rank, otherRank, ⟨first, told, time, isTime, ranked⟩,
      ⟨second, toldRight, other, isOther, rankedRight⟩, order⟩
  · rintro ⟨rank, otherRank, ⟨first, told, time, isTime, ranked⟩,
      ⟨second, toldRight, other, isOther, rankedRight⟩, order⟩
    exact ⟨first, told, second, toldRight, time, isTime, other, isOther, rank, otherRank, ranked,
      rankedRight, order⟩

/-- Values compare as their ranks, if asking dates for their times changes nothing. -/
theorem order?_iff (tellsLeft : graph.TellsTime left) (tellsRight : graph.TellsTime right)
    {order : Ordering} :
    (order? left right).run' graph = some (some order) ↔
      ∃ first second, graph.rank? left = some first ∧ graph.rank? right = some second ∧
        first.order? second = some order := by
  have started : order? left right graph =
      (if (graph.isDate left && graph.isDate right) = true then orderDates left right
        else pure (left.order? right)) graph := rfl
  unfold EStateM.run' EStateM.run
  rw [started]
  cases isDate : graph.isDate left with
  | true =>
      cases isDateRight : graph.isDate right with
      | true => exact orderDates_iff tellsLeft tellsRight isDate isDateRight
      | false =>
          refine Option.some_inj.trans ?_
          rw [Value.order?_iff, valueRank?_of_isDate isDate, rank?_of_not_isDate isDateRight]
          refine iff_of_false (by rintro ⟨_, _, ⟨⟩, _⟩) ?_
          rintro ⟨first, second, ranked, isSimple, order⟩
          obtain ⟨time, isTime⟩ := isTime_of_rank? isDate ranked
          rw [(order?_time isTime isSimple).1] at order
          cases order
  | false =>
      refine Option.some_inj.trans ?_
      rw [Value.order?_iff, rank?_of_not_isDate isDate]
      cases isDateRight : graph.isDate right with
      | false => rw [rank?_of_not_isDate isDateRight]
      | true =>
          rw [valueRank?_of_isDate isDateRight]
          refine iff_of_false (by rintro ⟨_, _, _, ⟨⟩, _⟩) ?_
          rintro ⟨first, second, isSimple, ranked, order⟩
          obtain ⟨time, isTime⟩ := isTime_of_rank? isDateRight ranked
          rw [(order?_time isTime isSimple).2] at order
          cases order

/-! ## Less and greater -/

/-- A test of values says yes. -/
def Says (test : Run Bool) (graph : Graph) : Prop :=
  test.run' graph = some true

/-- Neither of two values is less than the other. -/
def Tied (graph : Graph) (left right : Value) : Prop :=
  ¬ Says (isLess left right) graph ∧ ¬ Says (isLess right left) graph

theorem says_order {order : Ordering} :
    Says (do pure ((← ObjectPath.order? left right) == some order)) graph ↔
      (ObjectPath.order? left right).run' graph = some (some order) := by
  unfold Says EStateM.run' EStateM.run
  cases ended : ObjectPath.order? left right graph with
  | ok found later =>
      rw [bind_of_ok ended]
      exact (Option.some_inj.trans beq_iff_eq).trans Option.some_inj.symm
  | error fault later =>
      rw [bind_of_error ended]
      exact iff_of_false (by nofun) (by nofun)

theorem says_isLess (tellsLeft : graph.TellsTime left) (tellsRight : graph.TellsTime right) :
    Says (isLess left right) graph ↔
      ∃ first second, graph.rank? left = some first ∧ graph.rank? right = some second ∧
        first.order? second = some .lt :=
  says_order.trans (order?_iff tellsLeft tellsRight)

theorem says_isGreater (tellsLeft : graph.TellsTime left) (tellsRight : graph.TellsTime right) :
    Says (isGreater left right) graph ↔ Says (isLess right left) graph := by
  rw [says_isLess tellsRight tellsLeft]
  refine (says_order.trans (order?_iff tellsLeft tellsRight)).trans ?_
  constructor
  · rintro ⟨first, second, ranked, rankedRight, order⟩
    exact ⟨second, first, rankedRight, ranked, Rank.order?_gt.1 order⟩
  · rintro ⟨second, first, rankedRight, ranked, order⟩
    exact ⟨first, second, ranked, rankedRight, Rank.order?_gt.2 order⟩

/-- Values of one rank are not less than each other. -/
theorem not_isLess_of_rank (tellsLeft : graph.TellsTime left) (tellsRight : graph.TellsTime right)
    (same : graph.rank? left = graph.rank? right) : ¬ Says (isLess left right) graph := by
  rw [says_isLess tellsLeft tellsRight, same]
  rintro ⟨first, second, ranked, rankedAgain, order⟩
  cases ranked.symm.trans rankedAgain
  rw [first.order?_self] at order
  cases order

theorem isLess_trans {first second third : Value} (tellsFirst : graph.TellsTime first)
    (tellsSecond : graph.TellsTime second) (tellsThird : graph.TellsTime third)
    (less : Says (isLess first second) graph) (lessNext : Says (isLess second third) graph) :
    Says (isLess first third) graph := by
  rw [says_isLess tellsFirst tellsSecond] at less
  rw [says_isLess tellsSecond tellsThird] at lessNext
  rw [says_isLess tellsFirst tellsThird]
  obtain ⟨rank, middle, ranked, rankedMiddle, order⟩ := less
  obtain ⟨middleAgain, last, rankedAgain, rankedLast, orderNext⟩ := lessNext
  cases rankedMiddle.symm.trans rankedAgain
  exact ⟨rank, last, ranked, rankedLast, Rank.order?_lt_trans order orderNext⟩

section Row

variable {κ : Type} [LinearOrder κ] {make : κ → Rank}
  (ordered : ∀ place other, (make place).order? (make other) = some (lie place other))

include ordered

/-- Values whose ranks lie in one row compare as the places of the ranks. -/
theorem isLess_iff_lt (tellsLeft : graph.TellsTime left) (tellsRight : graph.TellsTime right)
    {place other : κ} (ranked : graph.rank? left = some (make place))
    (rankedRight : graph.rank? right = some (make other)) :
    Says (isLess left right) graph ↔ place < other := by
  rw [says_isLess tellsLeft tellsRight, ranked, rankedRight]
  simp only [Option.some.injEq, exists_and_left, exists_eq_left', ordered, lie_eq_lt]

/-- So being tied is an equivalence of values whose ranks lie in one row. -/
theorem tied_equivalence {family : Value → Prop} (tells : ∀ value, family value → graph.TellsTime value)
    (ranked : ∀ value, family value → ∃ place, graph.rank? value = some (make place)) :
    Equivalence fun left right : {value // family value} => Tied graph left right where
  refl value := ⟨not_isLess_of_rank (tells _ value.2) (tells _ value.2) rfl,
    not_isLess_of_rank (tells _ value.2) (tells _ value.2) rfl⟩
  symm tied := ⟨tied.2, tied.1⟩
  trans {first second third} tied next := by
    have sameRank : ∀ left right : {value // family value}, Tied graph left right →
        graph.rank? left = graph.rank? right := by
      intro left right tied
      obtain ⟨place, isPlace⟩ := ranked _ left.2
      obtain ⟨other, isOther⟩ := ranked _ right.2
      rw [Tied, isLess_iff_lt ordered (tells _ left.2) (tells _ right.2) isPlace isOther,
        isLess_iff_lt ordered (tells _ right.2) (tells _ left.2) isOther isPlace] at tied
      rw [isPlace, isOther, le_antisymm (not_lt.1 tied.2) (not_lt.1 tied.1)]
    have same := (sameRank first second tied).trans (sameRank second third next)
    exact ⟨not_isLess_of_rank (tells _ first.2) (tells _ third.2) same,
      not_isLess_of_rank (tells _ third.2) (tells _ first.2) same.symm⟩

end Row

end Graph

/-! ## Identity -/

namespace Value

variable {left right : Value}

/-- What a value is to comparisons of identity: a number is the place where it lies, if it lies
anywhere. -/
def essence : Value → Option Point ⊕ Value
  | .number content => .inl content.point?
  | value => .inr value

/-- Values of one essence are one value, or numbers at one place. -/
theorem eq_of_essence (same : left.essence = right.essence) :
    left = right ∨
      ∃ number other, left = .number number ∧ right = .number other ∧
        number.point? = other.point? := by
  cases left with
  | number content =>
      cases right with
      | number other => exact Or.inr ⟨content, other, rfl, rfl, Sum.inl.inj same⟩
      | _ => cases same
  | _ =>
      cases right with
      | number content => cases same
      | _ => exact Or.inl (Sum.inr.inj same)

theorem same_iff :
    left.same right = true ↔ left.essence = right.essence ∧ left.essence ≠ .inl none := by
  cases left with
  | number content =>
      cases right with
      | number other =>
          change content.equal other = true ↔
            (Sum.inl content.point? : Option Point ⊕ Value) = .inl other.point? ∧
              (Sum.inl content.point? : Option Point ⊕ Value) ≠ .inl none
          unfold Number.equal
          cases content.point? <;> cases other.point? <;> simp
      | _ => exact iff_of_false nofun nofun
  | _ => cases right <;> simp [same, essence]

theorem sameOrNan_iff : left.sameOrNan right = true ↔ left.essence = right.essence := by
  unfold sameOrNan
  split
  · exact iff_of_true rfl rfl
  · rename_i notNan
    rw [same_iff, and_iff_left_iff_imp]
    intro same isNan
    have nan : ∀ {value : Value}, value.essence = .inl none → value = .number .nan := by
      intro value isNan
      rcases value with _ | _ | _ | (_ | ⟨_ | _⟩ | _ | _) | _ | _ | _ | _ <;>
        first | rfl | cases isNan
    exact notNan (nan isNan) (nan (same.symm.trans isNan))

end Value

namespace Graph

variable {graph : Graph} {left right value : Value}

/-! ## Equality -/

/-- A value has no equality of its own: looking for one runs nothing that fails or changes
anything, and finds nothing that can be called. -/
def LacksEquals (graph : Graph) (value : Value) : Prop :=
  graph.kind value = .object → value ≠ .null → graph.has value (.name "equals") = true →
    ∃ found, Run.read value "equals" graph = .ok found graph ∧ graph.isCallable found = false

theorem areSameDates_answers (tellsLeft : graph.TellsTime left)
    (tellsRight : graph.TellsTime right) :
    Answers (areSameDates left right) graph True
      (if graph.isDate left && graph.isDate right then
        (graph.told? left).bind fun first => (graph.told? right).map fun second =>
          first.same second
      else some false) := by
  unfold areSameDates
  refine .get_bind ?_
  cases isDate : graph.isDate left with
  | false => exact .pure
  | true =>
      cases isDateRight : graph.isDate right with
      | false => exact .pure
      | true =>
          refine (tellsLeft.answers isDate "x").bind fun first _ => ?_
          rw [Option.map_eq_bind]
          exact (tellsRight.answers isDateRight "y").bind fun second _ => .pure

theorem isEqual_of_lacks (lacks : graph.LacksEquals left) (apart : left.sameOrNan right = false) :
    isEqual left right graph = areSameDates left right graph := by
  unfold isEqual
  rw [if_neg (by simp [apart]), bind_get]
  split
  · rename_i asked
    simp only [Bool.and_eq_true, decide_eq_true_eq] at asked
    obtain ⟨found, ended, notCallable⟩ := lacks asked.1.1 asked.1.2 asked.2
    rw [bind_of_ok ended, bind_get, if_neg (by simp [notCallable])]
  · rfl

/-- What a date tells as its time, unless that is no number, which does not even equal itself. -/
def toldEssence? (graph : Graph) (value : Value) : Option (Option Point ⊕ Value) :=
  if graph.isDate value then
    ((graph.told? value).map Value.essence).filter fun essence => decide (essence ≠ .inl none)
  else
    none

theorem toldEssence?_eq_some {essence : Option Point ⊕ Value} :
    graph.toldEssence? value = some essence ↔
      graph.isDate value = true ∧
        ∃ told, graph.told? value = some told ∧ told.essence = essence ∧ essence ≠ .inl none := by
  unfold toldEssence?
  cases graph.isDate value <;>
    simp [Option.filter_eq_some_iff, ← exists_and_right, and_assoc]

theorem toldEssence?_congr (same : left.essence = right.essence) :
    graph.toldEssence? left = graph.toldEssence? right := by
  rcases Value.eq_of_essence same with rfl | ⟨number, other, rfl, rfl, _⟩ <;> rfl

/-- Values without an equality of their own are equal when they are the same, or dates that tell the
same time. -/
theorem says_isEqual (lacks : graph.LacksEquals left) (tellsLeft : graph.TellsTime left)
    (tellsRight : graph.TellsTime right) :
    Says (isEqual left right) graph ↔ left.essence = right.essence ∨
      ∃ essence, graph.toldEssence? left = some essence ∧
        graph.toldEssence? right = some essence := by
  have byDates : (areSameDates left right).run' graph = some true ↔
      ∃ essence, graph.toldEssence? left = some essence ∧
        graph.toldEssence? right = some essence := by
    rw [run'_of_answers (areSameDates_answers tellsLeft tellsRight)]
    simp only [toldEssence?_eq_some]
    cases graph.isDate left <;> cases graph.isDate right <;>
      simp only [Bool.and_self, Bool.and_true, Bool.and_false, Bool.false_eq_true, if_false,
        if_true, false_and, true_and, and_false, exists_false, Option.some.injEq,
        Option.bind_eq_some_iff, Option.map_eq_some_iff, Value.same_iff]
    constructor
    · rintro ⟨first, told, second, toldRight, same, lies⟩
      exact ⟨first.essence, ⟨first, told, rfl, lies⟩, second, toldRight, same.symm, lies⟩
    · rintro ⟨_, ⟨first, told, rfl, lies⟩, second, toldRight, same, _⟩
      exact ⟨first, told, second, toldRight, same.symm, lies⟩
  rw [← Value.sameOrNan_iff]
  unfold Says EStateM.run' EStateM.run
  cases same : left.sameOrNan right with
  | true =>
      have isTrue : isEqual left right graph = .ok true graph := by
        rw [isEqual, if_pos same]
        rfl
      rw [isTrue]
      exact iff_of_true rfl (Or.inl rfl)
  | false =>
      rw [isEqual_of_lacks lacks same]
      exact byDates.trans (by simp)

/-- Equal values have the same rank, if they have any. -/
theorem rank?_of_isEqual (lacks : graph.LacksEquals left) (tellsLeft : graph.TellsTime left)
    (tellsRight : graph.TellsTime right) (equal : Says (isEqual left right) graph) :
    graph.rank? left = graph.rank? right := by
  rcases (says_isEqual lacks tellsLeft tellsRight).1 equal with same | ⟨essence, isLeft, isRight⟩
  · rcases Value.eq_of_essence same with rfl | ⟨number, other, rfl, rfl, point⟩
    · rfl
    · rw [rank?_of_not_isDate rfl, rank?_of_not_isDate rfl, Value.rank?, Value.rank?, Value.point?,
        Value.point?, point]
      all_goals nofun
  · obtain ⟨isDate, first, told, isFirst, _⟩ := toldEssence?_eq_some.1 isLeft
    obtain ⟨isDateRight, second, toldRight, isSecond, _⟩ := toldEssence?_eq_some.1 isRight
    rw [rank?_of_isDate isDate, rank?_of_isDate isDateRight, told, toldRight]
    rcases Value.eq_of_essence (isFirst.trans isSecond.symm) with
      rfl | ⟨number, other, rfl, rfl, point⟩
    · rfl
    · have timeOf : ∀ content : Number,
          (timePoint (.number content)).run' graph = some (.number content) := fun _ => rfl
      simp only [Option.bind_some, timeOf, timeRank?, point]

/-! ## Orders -/

theorem not_isDate_of_simple (simple : value.isObject = false) : graph.isDate value = false := by
  cases value with
  | object place => cases simple
  | _ => rfl

theorem tellsTime_of_simple (simple : value.isObject = false) : graph.TellsTime value := by
  intro isDate
  rw [not_isDate_of_simple simple] at isDate
  cases isDate

theorem isObject_of_quantity? {place : WithBot (WithTop ℚ)} (isPlace : value.quantity? = some place) :
    value.isObject = false := by
  cases value with
  | object place => cases isPlace
  | _ => rfl

theorem rank?_of_quantity? {place : WithBot (WithTop ℚ)} (isPlace : value.quantity? = some place) :
    graph.rank? value = some (.quantity place) := by
  rw [rank?_of_not_isDate (not_isDate_of_simple (isObject_of_quantity? isPlace)),
    Value.rank?_of_quantity? isPlace]

/-- The values that are compared without changing anything. -/
abbrev Comparable (graph : Graph) : Type :=
  {value : Value // graph.TellsTime value}

/-- The dates that tell a time which is a number. -/
abbrev ValidDate (graph : Graph) : Type :=
  {value : Value // graph.TellsTime value ∧ graph.isDate value = true ∧
    ∃ place, graph.rank? value = some (.time place)}

/-- The values that are compared without changing anything and have no equality of their own. -/
abbrev Equatable (graph : Graph) : Type :=
  {value : Value // graph.TellsTime value ∧ graph.LacksEquals value}

theorem isEqual_equivalence (graph : Graph) :
    Equivalence fun left right : graph.Equatable => Says (isEqual left right) graph := by
  have means : ∀ left right : graph.Equatable, Says (isEqual left right) graph ↔
      left.1.essence = right.1.essence ∨ ∃ essence, graph.toldEssence? left = some essence ∧
        graph.toldEssence? right = some essence := fun left right =>
    says_isEqual left.2.2 left.2.1 right.2.1
  constructor
  · exact fun value => (means value value).2 (Or.inl rfl)
  · intro left right equal
    exact (means right left).2 (((means left right).1 equal).imp Eq.symm
      fun ⟨essence, isLeft, isRight⟩ => ⟨essence, isRight, isLeft⟩)
  · intro first second third equal next
    refine (means first third).2 ?_
    rcases (means first second).1 equal with same | ⟨essence, isFirst, isSecond⟩
    · rcases (means second third).1 next with sameNext | ⟨essence, isSecond, isThird⟩
      · exact Or.inl (same.trans sameNext)
      · exact Or.inr ⟨essence, (toldEssence?_congr same).trans isSecond, isThird⟩
    · rcases (means second third).1 next with sameNext | ⟨other, isSecondAgain, isThird⟩
      · exact Or.inr ⟨essence, isFirst, (toldEssence?_congr sameNext).symm.trans isSecond⟩
      · cases isSecond.symm.trans isSecondAgain
        exact Or.inr ⟨essence, isFirst, isThird⟩

/-- Being less is a strict order of all values, being greater is its converse, and neither holds of
equal values.  Being equal is an equivalence, and so is not being less in either direction among
numbers and big integers, which compare by exact value, among texts, which compare by their units,
and among dates that tell their times as numbers. -/
theorem comparisons_are_orders (graph : Graph) :
    (∀ value : graph.Comparable, ¬ Says (isLess value value) graph) ∧
    (∀ left right : graph.Comparable, Says (isLess left right) graph →
      ¬ Says (isLess right left) graph) ∧
    (∀ first second third : graph.Comparable, Says (isLess first second) graph →
      Says (isLess second third) graph → Says (isLess first third) graph) ∧
    (∀ left right : graph.Comparable,
      Says (isGreater left right) graph ↔ Says (isLess right left) graph) ∧
    (Equivalence fun left right : {value : Value // value.quantity?.isSome = true} =>
      Tied graph left right) ∧
    (∀ left right place other, left.quantity? = some place → right.quantity? = some other →
      (Says (isLess left right) graph ↔ place < other)) ∧
    (Equivalence fun left right : {value : Value // ∃ text, value = .string text} =>
      Tied graph left right) ∧
    (∀ left right : String, Says (isLess (.string left) (.string right)) graph ↔
      Text.units left < Text.units right) ∧
    (Equivalence fun left right : graph.ValidDate => Tied graph left right) ∧
    (Equivalence fun left right : graph.Equatable => Says (isEqual left right) graph) ∧
    ∀ left right : graph.Equatable, Says (isEqual left right) graph →
      ¬ Says (isLess left right) graph ∧ ¬ Says (isGreater left right) graph := by
  -- Each part is about one kind of rank, which lies in a linear order: places, texts or times.
  refine ⟨fun value => not_isLess_of_rank value.2 value.2 rfl, fun left right less more => ?_,
    fun first second third => isLess_trans first.2 second.2 third.2,
    fun left right => says_isGreater left.2 right.2, ?_, ?_, ?_, ?_, ?_, isEqual_equivalence graph,
    ?_⟩
  · exact not_isLess_of_rank left.2 left.2 rfl (isLess_trans left.2 right.2 left.2 less more)
  · refine tied_equivalence Rank.order?_quantity ?_ ?_
    · intro value isPlace
      obtain ⟨place, isPlace⟩ := Option.isSome_iff_exists.1 isPlace
      exact tellsTime_of_simple (isObject_of_quantity? isPlace)
    · intro value isPlace
      obtain ⟨place, isPlace⟩ := Option.isSome_iff_exists.1 isPlace
      exact ⟨place, rank?_of_quantity? isPlace⟩
  · intro left right place other isPlace isOther
    exact isLess_iff_lt Rank.order?_quantity
      (tellsTime_of_simple (isObject_of_quantity? isPlace))
      (tellsTime_of_simple (isObject_of_quantity? isOther)) (rank?_of_quantity? isPlace)
      (rank?_of_quantity? isOther)
  · refine tied_equivalence Rank.order?_text ?_ ?_
    · rintro _ ⟨text, rfl⟩
      exact tellsTime_of_simple rfl
    · rintro _ ⟨text, rfl⟩
      exact ⟨_, rfl⟩
  · exact fun left right => isLess_iff_lt Rank.order?_text
      (tellsTime_of_simple rfl) (tellsTime_of_simple rfl) rfl rfl
  · refine tied_equivalence Rank.order?_time (fun value isDate => isDate.1) ?_
    rintro value ⟨_, _, ranked⟩
    exact ranked
  · intro left right equal
    have same := rank?_of_isEqual left.2.2 left.2.1 right.2.1 equal
    rw [says_isGreater left.2.1 right.2.1]
    exact ⟨not_isLess_of_rank left.2.1 right.2.1 same,
      not_isLess_of_rank right.2.1 left.2.1 same.symm⟩

/-! ## Dates that tell their time themselves -/

/-- A date that has the built-in way to tell its time tells it, and nothing changes. -/
theorem timeTold_of_builtin {place : Nat} {time : Option Int}
    (looked : graph.look? value (.ofText "getTime") = some (.object place))
    (callee : graph.callee? (.object place) = some (.builtin .getTime))
    (isTime : graph.date? value = some time) (words : String) :
    timeTold words value graph =
      .ok (.number ((time.map Number.ofInt).getD .nan)) graph := by
  have present : value.isMissing = false := by
    cases value <;> first | rfl | cases isTime
  have stepped := Run.stepWith_of_look? perform present looked
  unfold timeTold Run.callMember
  rw [bind_of_ok stepped, bind_get, if_pos (by rw [isCallable, callee]; rfl)]
  change callFunction (performWithin 3999) (.object place) value [] graph = _
  unfold callFunction
  rw [bind_get, callee]
  change Run.timeNumber value graph = _
  have received : Run.timeOfReceiver value graph = .ok time graph := by
    rw [Run.timeOfReceiver, bind_get, isTime]
    rfl
  rw [Run.timeNumber, bind_of_ok received]
  cases time <;> rfl

theorem tellsTime_of_builtin {place : Nat} {time : Option Int}
    (looked : graph.look? value (.ofText "getTime") = some (.object place))
    (callee : graph.callee? (.object place) = some (.builtin .getTime))
    (isTime : graph.date? value = some time) : graph.TellsTime value := by
  have told := timeTold_of_builtin looked callee isTime "x"
  refine fun _ => ⟨stateAfter_of_ok told, fun other isTold => ?_⟩
  have same := (ok_of_run' isTold).symm.trans told
  obtain ⟨rfl, _⟩ := EStateM.Result.ok.inj same
  rfl

theorem validDate_of_builtin {place : Nat} {time : Int}
    (looked : graph.look? value (.ofText "getTime") = some (.object place))
    (callee : graph.callee? (.object place) = some (.builtin .getTime))
    (isDate : graph.isDate value = true) (isTime : graph.date? value = some (some time)) :
    graph.TellsTime value ∧ graph.isDate value = true ∧
      ∃ place, graph.rank? value = some (.time place) := by
  have told : graph.told? value = some (.number (.ofInt time)) := by
    have ended := timeTold_of_builtin looked callee isTime "x"
    rw [told?, run'_of_ok ended]
    rfl
  refine ⟨tellsTime_of_builtin looked callee isTime, isDate, (Point.ofInt time).exact, ?_⟩
  rw [rank?_of_isDate isDate, told]
  rfl

/-- The standard graph with a date that counts how often it is asked for its time, a date that fails
when it is asked for its equality, a date that tells a big integer, and two other dates. -/
@[irreducible]
def watchGraph : Graph :=
  stateAfter (do
    let count ← Run.newFunction "getTime" [.increment "turn", .return (.slot .receiver "turn")]
    let _ ← Run.newOf .date (.date (some 5))
      (Run.dataSlots [(.name "turn", .ofNat 0), (.name "getTime", count)])
    let refuse ← Run.newFunction "equals" [.raise "no"]
    let _ ← Run.newOf .date (.date (some 5))
      [(.name "equals", .accessor refuse.place? none true true)]
    let exact ← Run.newFunction "getTime" [.return (.slot .receiver "turn")]
    let _ ← Run.newOf .date (.date (some 6))
      (Run.dataSlots [(.name "turn", .bigint 6), (.name "getTime", exact)])
    let _ ← Run.newOf .date (.date (some 5)) []
    Run.newOf .date (.date (some 7)) []) Graph.standard

/-- The objects of the graph of dates, in the order in which they were made. -/
def watch (number : Nat) : Value :=
  .object (Graph.standard.objects.size + number)

/-- A date that counts is less than itself.  A date that fails when it is asked for its equality does
not equal a date that equals it.  And a date that tells a big integer does not compare with dates of
which one is less than the other. -/
theorem comparisons_depend_on_dates :
    Says (isLess (watch 1) (watch 1)) watchGraph ∧
      Says (isEqual (watch 6) (watch 3)) watchGraph ∧
      ¬ Says (isEqual (watch 3) (watch 6)) watchGraph ∧
      Tied watchGraph (watch 6) (watch 5) ∧ Tied watchGraph (watch 5) (watch 7) ∧
      Says (isLess (watch 6) (watch 7)) watchGraph := by
  unfold Tied Says
  decide +kernel

/-- An earlier date is less than a later one, so the later one is not less than the earlier one. -/
theorem five_is_before_seven :
    ∃ early late : watchGraph.ValidDate, early = watch 6 ∧ late = watch 7 ∧
      Says (isLess early late) watchGraph ∧ ¬ Says (isLess late early) watchGraph := by
  have callee : watchGraph.callee? (.object BuiltinFunction.getTime.place) =
      some (.builtin .getTime) := by
    unfold watchGraph
    rfl
  have dated : ∀ number time, watchGraph.look? (watch number) (.ofText "getTime") =
        some (.object BuiltinFunction.getTime.place) → watchGraph.isDate (watch number) = true →
      watchGraph.date? (watch number) = some (some time) → _ :=
    fun number time looked isDate => validDate_of_builtin looked callee isDate
  have early := dated 6 5 (by decide +kernel) (by decide +kernel) (by decide +kernel)
  have late := dated 7 7 (by decide +kernel) (by decide +kernel) (by decide +kernel)
  have less : Says (isLess (watch 6) (watch 7)) watchGraph := by
    unfold Says
    decide +kernel
  obtain ⟨_, asymmetric, _⟩ := comparisons_are_orders watchGraph
  exact ⟨⟨_, early⟩, ⟨_, late⟩, rfl, rfl, less, asymmetric ⟨_, early.1⟩ ⟨_, late.1⟩ less⟩

end Graph

end ObjectPath
