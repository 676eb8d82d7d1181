/-!
Ordered entries: a finite map kept as a list of pairs in the order in which its
keys were first entered.
-/

namespace ObjectPath.Entries

variable {κ : Type} {α : Type} [DecidableEq κ]

/-! ## Look-up -/

def get? : List (κ × α) → κ → Option α
  | [], _ => none
  | (name, value) :: rest, key => if name = key then some value else get? rest key

def has (entries : List (κ × α)) (key : κ) : Bool :=
  (get? entries key).isSome

/-! ## Change -/

/-- Enters a value: in place if the key is there, at the end otherwise. -/
def put : List (κ × α) → κ → α → List (κ × α)
  | [], key, value => [(key, value)]
  | (name, old) :: rest, key, value =>
      if name = key then (name, value) :: rest else (name, old) :: put rest key value

def erase : List (κ × α) → κ → List (κ × α)
  | [], _ => []
  | (name, value) :: rest, key =>
      if name = key then erase rest key else (name, value) :: erase rest key

/-- Enters pairs one after the other. -/
def ofList (pairs : List (κ × α)) : List (κ × α) :=
  pairs.foldl (fun entries pair => put entries pair.1 pair.2) []

/-- Adds the pairs whose keys are not there yet. -/
def orElse (entries later : List (κ × α)) : List (κ × α) :=
  later.foldl (fun merged pair => if has merged pair.1 then merged else merged ++ [pair]) entries

/-! ## Laws -/

@[simp]
theorem get?_nil (key : κ) :
    get? ([] : List (κ × α)) key = none :=
  rfl

theorem get?_put_self (entries : List (κ × α)) (key : κ) (value : α) :
    get? (put entries key value) key = some value := by
  induction entries with
  | nil => simp [put, get?]
  | cons head rest hypothesis =>
      obtain ⟨name, old⟩ := head
      by_cases same : name = key
      · simp [put, get?, same]
      · simp [put, get?, same, hypothesis]

theorem get?_put_of_ne {key other : κ} (different : other ≠ key)
    (entries : List (κ × α)) (value : α) :
    get? (put entries key value) other = get? entries other := by
  induction entries with
  | nil => simp [put, get?, different.symm]
  | cons head rest hypothesis =>
      obtain ⟨name, old⟩ := head
      by_cases same : name = key
      · subst same
        simp [put, get?, different.symm]
      · by_cases found : name = other
        · subst found
          simp [put, get?, same]
        · simp [put, get?, same, found, hypothesis]

/-- Entering a value changes what is found for its key and for no other. -/
theorem get?_put (entries : List (κ × α)) (key other : κ) (value : α) :
    get? (put entries key value) other =
      if other = key then some value else get? entries other := by
  by_cases same : other = key
  · subst same
    simp [get?_put_self]
  · simp [same, get?_put_of_ne same]

theorem put_of_get? {entries : List (κ × α)} {key : κ} {value : α}
    (found : get? entries key = some value) : put entries key value = entries := by
  induction entries with
  | nil => cases found
  | cons head rest inductionHypothesis =>
      by_cases same : head.1 = key
      · rw [get?, if_pos same] at found
        rw [put, if_pos same, ← Option.some.inj found]
      · rw [get?, if_neg same] at found
        rw [put, if_neg same, inductionHypothesis found]

theorem put_of_not_mem {entries : List (κ × α)} {key : κ} (fresh : key ∉ entries.map Prod.fst)
    (value : α) : put entries key value = entries ++ [(key, value)] := by
  induction entries with
  | nil => rfl
  | cons head rest inductionHypothesis =>
      rw [List.map_cons, List.mem_cons, not_or] at fresh
      rw [put, if_neg (Ne.symm fresh.1), inductionHypothesis fresh.2, List.cons_append]

theorem get?_erase_self (entries : List (κ × α)) (key : κ) :
    get? (erase entries key) key = none := by
  induction entries with
  | nil => rfl
  | cons head rest hypothesis =>
      obtain ⟨name, value⟩ := head
      by_cases same : name = key
      · simp [erase, same, hypothesis]
      · simp [erase, get?, same, hypothesis]

theorem get?_append (entries : List (κ × α)) (pair : κ × α) (key : κ) :
    get? (entries ++ [pair]) key =
      match get? entries key with
      | some value => some value
      | none => if pair.1 = key then some pair.2 else none := by
  induction entries with
  | nil => rfl
  | cons head rest hypothesis =>
      by_cases same : head.1 = key
      · simp [get?, same]
      · simp [get?, same, hypothesis]

theorem mem_of_get? {entries : List (κ × α)} {key : κ} {value : α}
    (found : get? entries key = some value) : (key, value) ∈ entries := by
  induction entries with
  | nil => cases found
  | cons pair rest hypothesis =>
      unfold get? at found
      split at found
      · rename_i same
        cases found
        exact List.mem_cons.2 (Or.inl (by rw [← same]))
      · exact List.mem_cons_of_mem pair (hypothesis found)

theorem get?_eq_none_iff {entries : List (κ × α)} {key : κ} :
    get? entries key = none ↔ key ∉ entries.map Prod.fst := by
  induction entries with
  | nil => simp
  | cons head rest hypothesis =>
      by_cases same : head.1 = key
      · simp [get?, same]
      · simp [get?, same, hypothesis, Ne.symm same]

theorem get?_of_mem {entries : List (κ × α)} (distinct : (entries.map Prod.fst).Nodup) {key : κ}
    {value : α} (member : (key, value) ∈ entries) : get? entries key = some value := by
  induction entries with
  | nil => cases member
  | cons head rest hypothesis =>
      obtain ⟨headAbsent, restDistinct⟩ := List.nodup_cons.1 distinct
      rcases List.mem_cons.1 member with rfl | isLater
      · simp [get?]
      · have different : head.1 ≠ key := by
          rintro rfl
          exact headAbsent (List.mem_map.2 ⟨_, isLater, rfl⟩)
        simp [get?, different, hypothesis restDistinct isLater]

end ObjectPath.Entries
