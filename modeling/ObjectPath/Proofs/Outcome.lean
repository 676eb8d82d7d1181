import ObjectPath.Fault

/-!
# Outcomes of computations

What a computation over a state comes to, said once for graphs and for worlds: what holds
on every outcome, and what a computation that only looks finds.
-/

namespace ObjectPath

variable {σ α β : Type}

/-! ## Every outcome -/

/-- The state after a computation, however it ends. -/
def stateAfter (work : EStateM Fault σ α) (state : σ) : σ :=
  match work state with
  | .ok _ later => later
  | .error _ later => later

/-- A computation that gives a value ends as `good` says, one that fails as `bad` says. -/
def Ensures (work : EStateM Fault σ α) (state : σ) (good : α → σ → Prop)
    (bad : Fault → σ → Prop) : Prop :=
  match work state with
  | .ok value later => good value later
  | .error fault later => bad fault later

/-- A computation leaves the state as it is, and what it gives satisfies a condition. -/
def Peeks (work : EStateM Fault σ α) (state : σ) (gives : α → Prop) : Prop :=
  Ensures work state (fun value later => later = state ∧ gives value) fun _ later =>
    later = state

/-- A computation leaves the state as it is and gives the expected value.  If none is
expected it fails, provided that the state is `firm`. -/
def Answers (work : EStateM Fault σ α) (state : σ) (firm : Prop) : Option α → Prop
  | some value => work state = .ok value state
  | none => firm → ∃ fault, work state = .error fault state

section Steps

variable {work : EStateM Fault σ α} {next : α → EStateM Fault σ β} {state later : σ}

theorem bind_of_ok {value : α} (ended : work state = .ok value later) :
    (work >>= next) state = next value later := by
  change EStateM.bind work next state = next value later
  rw [EStateM.bind, ended]

theorem bind_of_error {fault : Fault} (ended : work state = .error fault later) :
    (work >>= next) state = .error fault later := by
  change EStateM.bind work next state = .error fault later
  rw [EStateM.bind, ended]

/-- What comes after a computation matters only where it can be reached. -/
theorem bind_congr_ok {other : EStateM Fault σ α} {onward : α → EStateM Fault σ β} {start : σ}
    (same : work state = other start)
    (after : ∀ value middle, other start = .ok value middle →
      next value middle = onward value middle) :
    (work >>= next) state = (other >>= onward) start := by
  cases ended : other start with
  | ok value middle =>
      rw [bind_of_ok ended, bind_of_ok (same.trans ended), after value middle ended]
  | error fault middle => rw [bind_of_error ended, bind_of_error (same.trans ended)]

/-- A computation fails if what comes after its first part does. -/
theorem fails_of_bind {value : α} {final : σ} (ended : work state = .ok value later)
    (fails : ∃ fault, next value later = .error fault final) :
    ∃ fault, (work >>= next) state = .error fault final := by
  rwa [bind_of_ok ended]

theorem stateAfter_of_ok {value : α} (ended : work state = .ok value later) :
    stateAfter work state = later := by
  rw [stateAfter, ended]

theorem stateAfter_of_error {fault : Fault} (ended : work state = .error fault later) :
    stateAfter work state = later := by
  rw [stateAfter, ended]

theorem stateAfter_bind {value : α} (ended : work state = .ok value later) :
    stateAfter (work >>= next) state = stateAfter (next value) later := by
  rw [stateAfter, bind_of_ok ended, stateAfter]

theorem bind_get {next : σ → EStateM Fault σ β} : (get >>= next) state = next state state :=
  rfl

theorem tryCatch_of_ok {handle : Fault → EStateM Fault σ α} {value : α}
    (ended : work state = .ok value later) :
    (tryCatch work handle) state = .ok value later := by
  change EStateM.tryCatch work handle state = .ok value later
  delta EStateM.tryCatch
  simp only [ended]

theorem tryCatch_of_error {handle : Fault → EStateM Fault σ α} {fault : Fault}
    (ended : work state = .error fault later) :
    (tryCatch work handle) state = handle fault later := by
  change EStateM.tryCatch work handle state = handle fault later
  delta EStateM.tryCatch
  simp only [ended]
  rfl

/-- A computation in two parts gives a value only if both parts do. -/
theorem ok_of_bind {value : β} (ended : (work >>= next) state = .ok value later) :
    ∃ first middle, work state = .ok first middle ∧ next first middle = .ok value later := by
  cases start : work state with
  | ok first middle =>
      rw [bind_of_ok start] at ended
      exact ⟨first, middle, rfl, ended⟩
  | error fault middle =>
      rw [bind_of_error start] at ended
      cases ended

end Steps

/-! ## Conditions on every outcome -/

namespace Ensures

variable {work : EStateM Fault σ α} {state : σ} {good : α → σ → Prop} {bad : Fault → σ → Prop}

theorem pure {value : α} (holds : good value state) :
    Ensures (pure value) state good bad :=
  holds

theorem throw {fault : Fault} (holds : bad fault state) :
    Ensures (throw fault : EStateM Fault σ α) state good bad :=
  holds

theorem get_bind {next : σ → EStateM Fault σ α} (rest : Ensures (next state) state good bad) :
    Ensures (get >>= next) state good bad :=
  rest

theorem of_ok {value : α} {later : σ} (ended : work state = .ok value later)
    (holds : good value later) : Ensures work state good bad := by
  rwa [Ensures, ended]

theorem mono {good' : α → σ → Prop} {bad' : Fault → σ → Prop}
    (ensures : Ensures work state good bad)
    (goodLater : ∀ value later, good value later → good' value later)
    (badLater : ∀ fault later, bad fault later → bad' fault later) :
    Ensures work state good' bad' := by
  unfold Ensures at ensures ⊢
  split at ensures
  · exact goodLater _ _ ensures
  · exact badLater _ _ ensures

theorem bind {next : α → EStateM Fault σ β} {good' : β → σ → Prop}
    (first : Ensures work state good bad)
    (rest : ∀ value later, good value later → Ensures (next value) later good' bad) :
    Ensures (work >>= next) state good' bad := by
  unfold Ensures at first
  split at first
  · rename_i value later ended
    have second := rest value later first
    unfold Ensures at second ⊢
    rwa [bind_of_ok ended]
  · rename_i fault later ended
    unfold Ensures
    rwa [bind_of_error ended]

theorem tryCatch {handle : Fault → EStateM Fault σ α} {caught : Fault → σ → Prop}
    (first : Ensures work state good caught)
    (rest : ∀ fault later, caught fault later → Ensures (handle fault) later good bad) :
    Ensures (tryCatch work handle) state good bad := by
  unfold Ensures at first
  split at first
  · rename_i ended
    unfold Ensures
    rw [tryCatch_of_ok ended]
    exact first
  · rename_i fault later ended
    have second := rest fault later first
    unfold Ensures at second ⊢
    rwa [tryCatch_of_error ended]

theorem ok_bind {next : α → EStateM Fault σ β} {value : α} {later : σ} {good : β → σ → Prop}
    (start : work state = .ok value later) (rest : Ensures (next value) later good bad) :
    Ensures (work >>= next) state good bad := by
  unfold Ensures at rest ⊢
  rwa [bind_of_ok start]

theorem error_bind {next : α → EStateM Fault σ β} {fault : Fault} {later : σ} {good : β → σ → Prop}
    (start : work state = .error fault later) (holds : bad fault later) :
    Ensures (work >>= next) state good bad := by
  rwa [Ensures, bind_of_error start]

/-- A computation that ends by throwing gives nothing, whatever it finds to throw. -/
theorem throw_bind {found : EStateM Fault σ Fault} :
    Ensures (found >>= fun fault => MonadExcept.throw fault) state good fun _ _ => True := by
  cases ended : found state with
  | ok fault later => exact ok_bind ended (throw trivial)
  | error fault later => exact error_bind ended trivial

/-- What two conditions say of one computation holds together. -/
theorem and {good' : α → σ → Prop} {bad' : Fault → σ → Prop} (first : Ensures work state good bad)
    (second : Ensures work state good' bad') :
    Ensures work state (fun value later => good value later ∧ good' value later)
      fun fault later => bad fault later ∧ bad' fault later := by
  unfold Ensures at first second ⊢
  split <;> rename_i ended <;> simp only [ended] at first second <;> exact ⟨first, second⟩

/-- What holds of a computation in every case holds in all of them together. -/
theorem all {ι : Sort _} {good : ι → α → σ → Prop} {bad : ι → Fault → σ → Prop}
    (ensures : ∀ index, Ensures work state (good index) (bad index)) :
    Ensures work state (fun value later => ∀ index, good index value later)
      fun fault later => ∀ index, bad index fault later := by
  unfold Ensures at ensures ⊢
  split <;> rename_i ended <;> simp only [ended] at ensures <;> exact ensures

theorem map {give : α → β} {good' : β → σ → Prop}
    (ensures : Ensures work state (fun value later => good' (give value) later) bad) :
    Ensures (give <$> work) state good' bad := by
  rw [map_eq_pure_bind]
  exact ensures.bind fun _ _ => pure

/-- A first part whose failures say more than is asked for. -/
theorem bind_weaker {next : α → EStateM Fault σ β} {good' : β → σ → Prop}
    {bad' : Fault → σ → Prop} (first : Ensures work state good bad)
    (badLater : ∀ fault later, bad fault later → bad' fault later)
    (rest : ∀ value later, good value later → Ensures (next value) later good' bad') :
    Ensures (work >>= next) state good' bad' :=
  (first.mono (fun _ _ => id) badLater).bind rest

/-- A first part that never fails. -/
theorem bind_of_never {next : α → EStateM Fault σ β} {good' : β → σ → Prop}
    {bad' : Fault → σ → Prop} (first : Ensures work state good fun _ _ => False)
    (rest : ∀ value later, good value later → Ensures (next value) later good' bad') :
    Ensures (work >>= next) state good' bad' :=
  first.bind_weaker (fun _ _ => False.elim) rest

theorem ok {value : α} {later : σ} (ensures : Ensures work state good bad)
    (ended : work state = .ok value later) : good value later := by
  rwa [Ensures, ended] at ensures

theorem error {fault : Fault} {later : σ} (ensures : Ensures work state good bad)
    (ended : work state = .error fault later) : bad fault later := by
  rwa [Ensures, ended] at ensures

/-- What holds on every outcome holds of the state afterwards. -/
theorem stateAfter {holds : σ → Prop}
    (ensures : Ensures work state (fun _ later => holds later) fun _ later => holds later) :
    holds (stateAfter work state) := by
  unfold Ensures at ensures
  unfold ObjectPath.stateAfter
  split at ensures <;> exact ensures

end Ensures

theorem run'_of_ok {work : EStateM Fault σ α} {state later : σ} {value : α}
    (ended : work state = .ok value later) : work.run' state = some value := by
  unfold EStateM.run' EStateM.run
  rw [ended]

/-- What a computation ends with, if its value is known. -/
theorem ok_of_run' {work : EStateM Fault σ α} {state : σ} {value : α}
    (given : work.run' state = some value) : work state = .ok value (stateAfter work state) := by
  unfold EStateM.run' EStateM.run at given
  unfold ObjectPath.stateAfter
  split at given
  · rename_i found later ended
    rw [ended, Option.some.inj given]
  · cases given

/-! ## Values that are given -/

/-- Whatever a computation gives satisfies a condition. -/
def Gives (work : EStateM Fault σ α) (holds : α → Prop) : Prop :=
  ∀ state value later, work state = .ok value later → holds value

namespace Gives

variable {work : EStateM Fault σ α} {holds : α → Prop}

theorem pure {value : α} (found : holds value) :
    Gives (pure value : EStateM Fault σ α) holds := by
  rintro _ _ _ ⟨⟩
  exact found

theorem throw {fault : Fault} : Gives (throw fault : EStateM Fault σ α) holds := by
  rintro _ _ _ ⟨⟩

theorem bind {next : α → EStateM Fault σ β} {holds' : β → Prop}
    (rest : ∀ value, Gives (next value) holds') : Gives (work >>= next) holds' := by
  intro state value later ended
  obtain ⟨first, middle, _, onward⟩ := ok_of_bind ended
  exact rest first middle value later onward

theorem ensures (gives : Gives work holds) {state : σ} :
    Ensures work state (fun value _ => holds value) fun _ _ => True := by
  unfold Ensures
  split
  · exact gives _ _ _ (by assumption)
  · trivial

/-- Only values that are given matter to what comes next. -/
theorem bind_congr {next other : α → EStateM Fault σ β} (gives : Gives work holds)
    (same : ∀ value, holds value → next value = other value) :
    work >>= next = work >>= other := by
  funext state
  cases ended : work state with
  | ok value later => rw [bind_of_ok ended, bind_of_ok ended, same value (gives state value later ended)]
  | error fault later => rw [bind_of_error ended, bind_of_error ended]

end Gives

/-! ## Computations that only look -/

namespace Peeks

variable {work : EStateM Fault σ α} {state : σ} {gives : α → Prop}

theorem pure {value : α} (holds : gives value) : Peeks (pure value) state gives :=
  ⟨rfl, holds⟩

theorem throw {fault : Fault} : Peeks (throw fault : EStateM Fault σ α) state gives :=
  rfl

theorem bind {next : α → EStateM Fault σ β} {gives' : β → Prop}
    (first : Peeks work state gives)
    (rest : ∀ value, gives value → Peeks (next value) state gives') :
    Peeks (work >>= next) state gives' := by
  refine Ensures.bind first ?_
  rintro value _ ⟨rfl, holds⟩
  exact rest value holds

theorem get_bind {next : σ → EStateM Fault σ α} (rest : Peeks (next state) state gives) :
    Peeks (get >>= next) state gives :=
  rest

theorem mono {gives' : α → Prop} (peeks : Peeks work state gives)
    (weaker : ∀ value, gives value → gives' value) : Peeks work state gives' :=
  Ensures.mono peeks (fun value _ ended => ⟨ended.1, weaker value ended.2⟩) fun _ _ same => same

/-- A computation that fails with what another one finds leaves the state alone. -/
theorem throw_bind {found : EStateM Fault σ Fault}
    (peeks : Peeks found state fun _ => True) :
    ∃ fault, (found >>= fun cause => (MonadExcept.throw cause : EStateM Fault σ α)) state =
      .error fault state := by
  unfold Peeks Ensures at peeks
  split at peeks
  · rename_i fault later ended
    obtain ⟨rfl, _⟩ := peeks
    exact ⟨fault, bind_of_ok ended⟩
  · rename_i fault later ended
    subst peeks
    exact ⟨fault, bind_of_error ended⟩

theorem ensures (peeks : Peeks work state gives) {good : α → σ → Prop} {bad : Fault → σ → Prop}
    (goodLater : ∀ value, gives value → good value state)
    (badLater : ∀ fault, bad fault state) : Ensures work state good bad := by
  refine Ensures.mono peeks ?_ ?_
  · rintro value later ⟨rfl, holds⟩
    exact goodLater value holds
  · rintro fault later rfl
    exact badLater fault

theorem ensures_bind {next : α → EStateM Fault σ β} {good : β → σ → Prop}
    {bad : Fault → σ → Prop} (peeks : Peeks work state gives)
    (rest : ∀ value, gives value → Ensures (next value) state good bad)
    (badLater : ∀ fault, bad fault state) : Ensures (work >>= next) state good bad := by
  have first : Ensures work state (fun value later => later = state ∧ gives value) bad :=
    peeks.ensures (fun _ holds => ⟨rfl, holds⟩) badLater
  refine first.bind ?_
  rintro value _ ⟨rfl, holds⟩
  exact rest value holds

theorem stateAfter (peeks : Peeks work state gives) : stateAfter work state = state := by
  have always : Ensures work state (fun _ later => later = state) fun _ later => later = state :=
    Ensures.mono peeks (fun _ _ ended => ended.1) fun _ _ same => same
  exact always.stateAfter

end Peeks

/-! ## Expected values -/

namespace Answers

variable {work : EStateM Fault σ α} {state : σ} {firm : Prop}

theorem pure {value : α} : Answers (pure value) state firm (some value) :=
  rfl

theorem get_bind {next : σ → EStateM Fault σ α} {expected : Option α}
    (rest : Answers (next state) state firm expected) :
    Answers (get >>= next) state firm expected := by
  cases expected <;> exact rest

theorem ok_bind {next : α → EStateM Fault σ β} {value : α} {expected : Option β}
    (start : work state = .ok value state)
    (rest : Answers (next value) state firm expected) :
    Answers (work >>= next) state firm expected := by
  unfold Answers at rest ⊢
  rwa [bind_of_ok start]

theorem mono {weaker : Prop} {expected : Option α} (answers : Answers work state weaker expected)
    (isWeaker : firm → weaker) : Answers work state firm expected := by
  cases expected with
  | some value => exact answers
  | none => exact fun isFirm => answers (isWeaker isFirm)

/-- If the first part is expected to fail, so is the whole. -/
theorem bind {next : α → EStateM Fault σ β} {first : Option α} {expected : α → Option β}
    (start : Answers work state firm first)
    (rest : ∀ value, first = some value → Answers (next value) state firm (expected value)) :
    Answers (work >>= next) state firm (first.bind expected) := by
  cases first with
  | some value =>
      exact ok_bind start (rest value rfl)
  | none =>
      intro isFirm
      obtain ⟨fault, ended⟩ := start isFirm
      exact ⟨fault, bind_of_error ended⟩

theorem throw_bind {found : EStateM Fault σ Fault}
    (peeks : firm → Peeks found state fun _ => True) :
    Answers (found >>= fun cause => (MonadExcept.throw cause : EStateM Fault σ α)) state firm
      none :=
  fun isFirm => (peeks isFirm).throw_bind

theorem peeks {expected : Option α} (answers : Answers work state firm expected)
    (isFirm : firm) : Peeks work state fun value => expected = some value := by
  unfold Peeks Ensures
  cases expected with
  | some value =>
      rw [show work state = .ok value state from answers]
      exact ⟨rfl, rfl⟩
  | none =>
      obtain ⟨fault, ended⟩ := answers isFirm
      rw [ended]

end Answers

end ObjectPath
