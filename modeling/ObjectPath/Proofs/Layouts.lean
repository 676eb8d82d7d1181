import ObjectPath.Proofs.Scalars

/-!
# Texts of laid out data

The text of laid out data tells the layout, and where it ends.  Scalars that are no texts, numbers
of objects and the mark of a hole are words; texts, arrays and records are told by the character
that opens them, and their parts by induction.
-/

namespace ObjectPath.Format

/-! ## Separated texts -/

/-- Texts one after the other, with commas between them. -/
def separated : List (List Char) → List Char
  | [] => []
  | first :: rest => first ++ rest.flatMap fun text => ',' :: ' ' :: text

theorem intercalate_eq_separated (texts : List String) :
    (", ".intercalate texts).toList = separated (texts.map String.toList) := by
  rw [String.toList_intercalate]
  cases texts with
  | nil => rfl
  | cons first rest =>
      induction rest generalizing first with
      | nil => simp [separated]
      | cons next rest inductionHypothesis =>
          rw [List.map_cons, List.map_cons, List.intercalate_cons_cons, ← List.map_cons,
            inductionHypothesis]
          simp [separated]

section Separated

variable {α : Type} (text : α → List Char)

/-- The texts of two items tell the items, whatever comes after them that ends words. -/
def ToldApart (item other : α) : Prop :=
  ∀ rest onward, Ends rest → Ends onward → text item ++ rest = text other ++ onward →
    item = other ∧ rest = onward

variable {text} {close : Char}

theorem ends_tails (endsClose : isWordCharacter close = false) (items : List α)
    (rest : List Char) :
    Ends ((items.flatMap fun item => ',' :: ' ' :: text item) ++ close :: rest) := by
  cases items with
  | nil => exact ends_cons endsClose
  | cons item items => exact ends_cons (by decide)

theorem tails_unique (endsClose : isWordCharacter close = false) (notComma : close ≠ ',')
    {items others : List α} {rest onward : List Char}
    (toldApart : ∀ item ∈ items, ∀ other ∈ others, ToldApart text item other)
    (same : (items.flatMap fun item => ',' :: ' ' :: text item) ++ close :: rest =
      (others.flatMap fun other => ',' :: ' ' :: text other) ++ close :: onward) :
    items = others ∧ rest = onward := by
  induction items generalizing others with
  | nil =>
      cases others with
      | nil => exact ⟨rfl, (List.cons.inj same).2⟩
      | cons => exact absurd (List.cons.inj same).1 notComma
  | cons item items inductionHypothesis =>
      cases others with
      | nil => exact absurd (List.cons.inj same).1.symm notComma
      | cons other others =>
          rw [List.flatMap_cons, List.flatMap_cons, List.append_assoc, List.append_assoc] at same
          obtain ⟨rfl, sameTails⟩ := toldApart item (List.mem_cons_self ..) other
            (List.mem_cons_self ..) _ _ (ends_tails endsClose items rest)
            (ends_tails endsClose others onward) (List.cons.inj (List.cons.inj same).2).2
          obtain ⟨rfl, rest⟩ := inductionHypothesis (fun item member other memberOther =>
            toldApart item (List.mem_cons_of_mem _ member) other
              (List.mem_cons_of_mem _ memberOther)) sameTails
          exact ⟨rfl, rest⟩

/-- A closed list of separated texts tells its items, and where it ends. -/
theorem separated_unique (endsClose : isWordCharacter close = false) (notComma : close ≠ ',')
    {items others : List α} {rest onward : List Char}
    (opens : ∀ item ∈ items, ∀ rest onward, text item ++ rest ≠ close :: onward)
    (opensOther : ∀ other ∈ others, ∀ rest onward, text other ++ rest ≠ close :: onward)
    (toldApart : ∀ item ∈ items, ∀ other ∈ others, ToldApart text item other)
    (same : separated (items.map text) ++ close :: rest =
      separated (others.map text) ++ close :: onward) : items = others ∧ rest = onward := by
  cases items with
  | nil =>
      cases others with
      | nil => exact ⟨rfl, (List.cons.inj same).2⟩
      | cons other others =>
          rw [List.map_cons, separated, List.append_assoc] at same
          exact absurd same.symm (opensOther other (List.mem_cons_self ..) _ _)
  | cons item items =>
      rw [List.map_cons, separated, List.append_assoc, List.flatMap_map] at same
      cases others with
      | nil => exact absurd same (opens item (List.mem_cons_self ..) _ _)
      | cons other others =>
          rw [List.map_cons, separated, List.append_assoc, List.flatMap_map] at same
          obtain ⟨rfl, sameTails⟩ := toldApart item (List.mem_cons_self ..) other
            (List.mem_cons_self ..) _ _ (ends_tails endsClose items rest)
            (ends_tails endsClose others onward) same
          obtain ⟨rfl, rest⟩ := tails_unique endsClose notComma (fun item member other memberOther =>
            toldApart item (List.mem_cons_of_mem _ member) other
              (List.mem_cons_of_mem _ memberOther)) sameTails
          exact ⟨rfl, rest⟩

end Separated

/-! ## Layouts of data -/

/-- A layout whose leaves are the texts of scalars. -/
inductive Layout.IsData : Layout → Prop
  | leaf {value : Value} {text : String} : Scalar value → simple? value = some text →
      IsData (.leaf text)
  | visited (number : Nat) : IsData (.visited number)
  | list {elements : List (Option Layout)} : (∀ layout, some layout ∈ elements → layout.IsData) →
      IsData (.list elements)
  | record {entries : List (String × Layout)} : (∀ entry ∈ entries, entry.2.IsData) →
      IsData (.record entries)

/-- The characters of the text of a layout. -/
def Layout.characters (layout : Layout) : List Char :=
  layout.text.toList

/-- The text of an element of an array, which may be a hole. -/
def elementText : Option Layout → List Char
  | none => "<hole>".toList
  | some layout => layout.characters

/-- The text of an entry of a record. -/
def entryText (entry : String × Layout) : List Char :=
  (key entry.1).toList ++ ':' :: ' ' :: entry.2.characters

theorem toList_elementTexts (elements : List (Option Layout)) :
    (elementTexts elements).map String.toList = elements.map elementText := by
  induction elements with
  | nil => rw [elementTexts]; rfl
  | cons element rest inductionHypothesis =>
      cases element <;> rw [elementTexts, List.map_cons, inductionHypothesis] <;> rfl

theorem toList_entryTexts (entries : List (String × Layout)) :
    (entryTexts entries).map String.toList = entries.map entryText := by
  induction entries with
  | nil => rw [entryTexts]; rfl
  | cons entry rest inductionHypothesis =>
      rw [entryTexts, List.map_cons, inductionHypothesis, List.map_cons, entryText]
      simp [Layout.characters]

theorem characters_list (elements : List (Option Layout)) :
    (Layout.list elements).characters = '[' :: (separated (elements.map elementText) ++ [']']) := by
  rw [Layout.characters, Layout.text, ← toList_elementTexts, ← intercalate_eq_separated]
  simp

theorem characters_record (entries : List (String × Layout)) :
    (Layout.record entries).characters =
      '\x7b' :: (separated (entries.map entryText) ++ ['\x7d']) := by
  rw [Layout.characters, Layout.text, ← toList_entryTexts, ← intercalate_eq_separated]
  simp

theorem characters_visited (number : Nat) :
    (Layout.visited number).characters = '$' :: Nat.toDigits 10 number := by
  rw [Layout.characters, Layout.text, String.toList_append, Nat.toList_repr]
  rfl

/-- The character that opens a text, if the text does not start with a word. -/
def opening? (text : List Char) : Option Char :=
  text.head?.filter fun first => !isWordCharacter first

theorem isWordCharacter_of_isScalarCharacter {character : Char}
    (isScalar : isScalarCharacter character = true) : isWordCharacter character = true := by
  rw [isWordCharacter, isScalar]
  rfl

/-- The forms that the texts of data have, by what opens them. -/
inductive Form : Layout → Option Char → Prop
  | scalar {text : String} : text.toList.all isScalarCharacter = true → Form (.leaf text) none
  | quoted {text : String} {quoted : List Char} : text.toList = Text.quoteList quoted →
      Form (.leaf text) (some '"')
  | visited (number : Nat) : Form (.visited number) none
  | list (elements : List (Option Layout)) : Form (.list elements) (some '[')
  | record (entries : List (String × Layout)) : Form (.record entries) (some '\x7b')

theorem opening?_of_all {text : List Char} (isWord : text.all isWordCharacter = true) :
    opening? text = none := by
  cases text with
  | nil => rfl
  | cons first rest =>
      rw [List.all_cons, Bool.and_eq_true] at isWord
      rw [opening?, List.head?_cons, Option.filter_some, isWord.1]
      rfl

theorem all_isWordCharacter {text : List Char} (isScalar : text.all isScalarCharacter = true) :
    text.all isWordCharacter = true := by
  rw [List.all_eq_true] at isScalar ⊢
  exact fun character member => isWordCharacter_of_isScalarCharacter (isScalar character member)

theorem Layout.IsData.form {layout : Layout} (isData : layout.IsData) :
    layout.characters ≠ [] ∧ Form layout (opening? layout.characters) := by
  cases isData with
  | @leaf value text scalar isText =>
      rw [Layout.characters, Layout.text]
      rcases scalar.word_or_quoted isText with ⟨nonempty, isScalar⟩ | ⟨quoted, -, isQuoted⟩
      · rw [opening?_of_all (all_isWordCharacter isScalar)]
        exact ⟨nonempty, .scalar isScalar⟩
      · rw [isQuoted]
        exact ⟨List.cons_ne_nil _ _, .quoted isQuoted⟩
  | visited number =>
      rw [characters_visited]
      exact ⟨List.cons_ne_nil _ _, .visited number⟩
  | @list elements =>
      rw [characters_list]
      exact ⟨List.cons_ne_nil _ _, .list elements⟩
  | @record entries =>
      rw [characters_record]
      exact ⟨List.cons_ne_nil _ _, .record entries⟩

theorem opening?_append {text rest : List Char} (nonempty : text ≠ []) :
    opening? (text ++ rest) = opening? text := by
  rw [opening?, List.head?_append_of_ne_nil _ nonempty, opening?]

/-- Texts of data that start alike have forms that are opened alike. -/
theorem Layout.IsData.sameForm {layout other : Layout} (isData : layout.IsData)
    (isDataOther : other.IsData) {rest onward : List Char}
    (same : layout.characters ++ rest = other.characters ++ onward) :
    ∃ opening, Form layout opening ∧ Form other opening := by
  obtain ⟨nonempty, form⟩ := isData.form
  obtain ⟨nonemptyOther, formOther⟩ := isDataOther.form
  refine ⟨_, form, ?_⟩
  rwa [← opening?_append nonempty, same, opening?_append nonemptyOther]

/-! ## Keys -/

theorem all_isWordCharacter_of_isIdentifier {name : String}
    (isIdentifier : Text.isIdentifier name = true) :
    name.toList ≠ [] ∧ name.toList.all isWordCharacter = true := by
  have starts : ∀ {character : Char}, Text.startsIdentifier character = true →
      isWordCharacter character = true := by
    intro character starts
    simp only [Text.startsIdentifier, Bool.or_eq_true] at starts
    simp only [isWordCharacter, isScalarCharacter, Char.isAlphanum, Bool.or_eq_true]
    tauto
  have continues : ∀ {character : Char}, Text.continuesIdentifier character = true →
      isWordCharacter character = true := by
    intro character continues
    rw [Text.continuesIdentifier, Bool.or_eq_true] at continues
    rcases continues with startsToo | isDigit
    · exact starts startsToo
    · simp [isWordCharacter, isScalarCharacter, Char.isAlphanum, isDigit]
  rw [Text.isIdentifier] at isIdentifier
  cases characters : name.toList with
  | nil =>
      rw [characters] at isIdentifier
      cases isIdentifier
  | cons first rest =>
      rw [characters, Text.isIdentifierList, Bool.and_eq_true, List.all_eq_true] at isIdentifier
      refine ⟨List.cons_ne_nil _ _, ?_⟩
      rw [List.all_cons, Bool.and_eq_true, List.all_eq_true]
      exact ⟨starts isIdentifier.1, fun character member =>
        continues (isIdentifier.2 character member)⟩

/-- The text of a key tells the key, and where it ends. -/
theorem key_unique {name other : String} {rest onward : List Char}
    (same : (key name).toList ++ ':' :: rest = (key other).toList ++ ':' :: onward) :
    name = other ∧ rest = onward := by
  have quoted : ∀ {name : String}, (Text.quote name).toList = Text.quoteList name.toList :=
    fun {name} => String.toList_ofList
  have apart : ∀ {word other : String} {rest onward : List Char}, Text.isIdentifier word = true →
      word.toList ++ rest ≠ (Text.quote other).toList ++ onward := by
    intro word other rest onward isIdentifier same
    obtain ⟨nonempty, isWord⟩ := all_isWordCharacter_of_isIdentifier isIdentifier
    have opened := congrArg opening? same
    rw [opening?_append nonempty, opening?_of_all isWord, quoted] at opened
    cases opened
  rw [key, key] at same
  split at same
  · rename_i isIdentifier
    obtain ⟨_, isWord⟩ := all_isWordCharacter_of_isIdentifier isIdentifier
    split at same
    · rename_i isIdentifierOther
      obtain ⟨_, isWordOther⟩ := all_isWordCharacter_of_isIdentifier isIdentifierOther
      obtain ⟨names, rest⟩ := word_unique isWord isWordOther (ends_cons (by decide))
        (ends_cons (by decide)) same
      exact ⟨String.toList_inj.1 names, (List.cons.inj rest).2⟩
    · exact absurd same (apart isIdentifier)
  · split at same
    · rename_i isIdentifierOther
      exact absurd same.symm (apart isIdentifierOther)
    · rw [quoted, quoted] at same
      obtain ⟨names, rest⟩ := Text.quoteList_unique same
      exact ⟨String.toList_inj.1 names, (List.cons.inj rest).2⟩

/-! ## Unique reading -/

theorem element_opens {element : Option Layout} (isData : ∀ layout ∈ element, layout.IsData)
    (rest onward : List Char) : elementText element ++ rest ≠ ']' :: onward := by
  intro same
  cases element with
  | none => cases (List.cons.inj same).1
  | some layout =>
      obtain ⟨nonempty, form⟩ := (isData layout rfl).form
      have opened : opening? layout.characters = some ']' := by
        rw [← opening?_append nonempty, show layout.characters ++ rest = _ from same]
        rfl
      rw [opened] at form
      cases form

theorem key_opening (name : String) :
    (key name).toList ≠ [] ∧ opening? (key name).toList ≠ some '\x7d' := by
  rw [key]
  split
  · rename_i isIdentifier
    obtain ⟨nonempty, isWord⟩ := all_isWordCharacter_of_isIdentifier isIdentifier
    rw [opening?_of_all isWord]
    exact ⟨nonempty, nofun⟩
  · rw [Text.quote, String.toList_ofList]
    refine ⟨List.cons_ne_nil _ _, ?_⟩
    change some '"' ≠ some '\x7d'
    decide

theorem entry_opens (entry : String × Layout) (rest onward : List Char) :
    entryText entry ++ rest ≠ '\x7d' :: onward := by
  intro same
  obtain ⟨nonempty, opens⟩ := key_opening entry.1
  rw [entryText, List.append_assoc] at same
  apply opens
  rw [← opening?_append nonempty, same]
  rfl

theorem toldApart_elements {element other : Option Layout}
    (isData : ∀ layout ∈ element, layout.IsData) (isDataOther : ∀ layout ∈ other, layout.IsData)
    (toldApart : ∀ layout ∈ element, ∀ layoutOther ∈ other,
      ToldApart Layout.characters layout layoutOther) :
    ToldApart elementText element other := by
  have apart : ∀ {layout : Layout} {rest onward : List Char}, layout.IsData →
      elementText none ++ rest ≠ layout.characters ++ onward := by
    intro layout rest onward isData same
    obtain ⟨nonempty, form⟩ := isData.form
    have opened := congrArg opening? same
    rw [opening?_append nonempty] at opened
    rw [← opened] at form
    cases form
  intro rest onward ends endsOther same
  cases element with
  | none =>
      cases other with
      | none => exact ⟨rfl, List.append_cancel_left same⟩
      | some other => exact absurd same (apart (isDataOther other rfl))
  | some layout =>
      cases other with
      | none => exact absurd same.symm (apart (isData layout rfl))
      | some other =>
          obtain ⟨layouts, rest⟩ := toldApart layout rfl other rfl rest onward ends endsOther same
          exact ⟨congrArg some layouts, rest⟩

theorem toldApart_entries {entry other : String × Layout}
    (toldApart : ToldApart Layout.characters entry.2 other.2) :
    ToldApart entryText entry other := by
  intro rest onward ends endsOther same
  rw [entryText, entryText, List.append_assoc, List.append_assoc] at same
  obtain ⟨names, sameContents⟩ := key_unique same
  obtain ⟨layouts, rest⟩ := toldApart rest onward ends endsOther (List.cons.inj sameContents).2
  exact ⟨Prod.ext names layouts, rest⟩

theorem scalar_ne_visited {text : String} {number : Nat} {rest onward : List Char}
    (isScalar : text.toList.all isScalarCharacter = true) (ends : Ends rest) :
    text.toList ++ rest ≠ (Layout.visited number).characters ++ onward := by
  intro same
  rw [characters_visited] at same
  cases characters : text.toList with
  | nil =>
      rw [characters, List.nil_append] at same
      have noWord := ends '$' (same ▸ rfl)
      cases noWord
  | cons first more =>
      rw [characters] at same isScalar
      rw [(List.cons.inj same).1, List.all_cons, Bool.and_eq_true] at isScalar
      cases isScalar.1

/-- The text of data tells its layout, and where it ends. -/
theorem Layout.IsData.toldApart {layout : Layout} (isData : layout.IsData) :
    ∀ other, other.IsData → ToldApart Layout.characters layout other := by
  -- Induction on the first layout; its first character tells which form the second one has.
  induction isData with
  | @leaf value text scalar isText =>
      intro other isDataOther rest onward ends endsOther same
      obtain ⟨opening, form, formOther⟩ :=
        (Layout.IsData.leaf scalar isText).sameForm isDataOther same
      cases form with
      | scalar isScalar =>
          cases formOther with
          | scalar isScalarOther =>
              obtain ⟨texts, rest⟩ := word_unique (all_isWordCharacter isScalar)
                (all_isWordCharacter isScalarOther) ends endsOther same
              exact ⟨congrArg Layout.leaf (String.toList_inj.1 texts), rest⟩
          | visited number => exact absurd same (scalar_ne_visited isScalar ends)
      | @quoted _ quoted isQuoted =>
          cases formOther with
          | @quoted textOther quotedOther isQuotedOther =>
              change text.toList ++ rest = textOther.toList ++ onward at same
              rw [isQuoted, isQuotedOther] at same
              obtain ⟨rfl, rest⟩ := Text.quoteList_unique same
              exact ⟨congrArg Layout.leaf (String.toList_inj.1 (isQuoted.trans isQuotedOther.symm)),
                rest⟩
  | visited number =>
      intro other isDataOther rest onward ends endsOther same
      obtain ⟨opening, form, formOther⟩ := (Layout.IsData.visited number).sameForm isDataOther same
      cases form
      cases formOther with
      | scalar isScalarOther => exact absurd same.symm (scalar_ne_visited isScalarOther endsOther)
      | visited otherNumber =>
          rw [characters_visited, characters_visited] at same
          obtain ⟨digits, rest⟩ := word_unique
            (all_isWordCharacter (all_isScalarCharacter_toDigits number))
            (all_isWordCharacter (all_isScalarCharacter_toDigits otherNumber)) ends endsOther
            (List.cons.inj same).2
          have numbers : Nat.repr number = Nat.repr otherNumber := by
            rw [← String.toList_inj, Nat.toList_repr, Nat.toList_repr, digits]
          exact ⟨congrArg Layout.visited (Nat.repr_injective numbers), rest⟩
  | @list elements isData inductionHypothesis =>
      intro other isDataOther rest onward ends endsOther same
      obtain ⟨opening, form, formOther⟩ := (Layout.IsData.list isData).sameForm isDataOther same
      cases form
      cases formOther with
      | list others =>
          cases isDataOther with
          | list isDataOther =>
              rw [characters_list, characters_list] at same
              simp only [List.cons_append, List.append_assoc, List.nil_append] at same
              obtain ⟨rfl, rest⟩ := separated_unique (by decide) (by decide)
                (fun element member => element_opens fun layout isLayout =>
                  isData layout (isLayout ▸ member))
                (fun element member => element_opens fun layout isLayout =>
                  isDataOther layout (isLayout ▸ member))
                (fun element member other memberOther => toldApart_elements
                  (fun layout isLayout => isData layout (isLayout ▸ member))
                  (fun layout isLayout => isDataOther layout (isLayout ▸ memberOther))
                  fun layout isLayout other isOther => inductionHypothesis layout
                    (isLayout ▸ member) other (isDataOther other (isOther ▸ memberOther)))
                (List.cons.inj same).2
              exact ⟨rfl, rest⟩
  | @record entries isData inductionHypothesis =>
      intro other isDataOther rest onward ends endsOther same
      obtain ⟨opening, form, formOther⟩ := (Layout.IsData.record isData).sameForm isDataOther same
      cases form
      cases formOther with
      | record others =>
          cases isDataOther with
          | record isDataOther =>
              rw [characters_record, characters_record] at same
              simp only [List.cons_append, List.append_assoc, List.nil_append] at same
              obtain ⟨rfl, rest⟩ := separated_unique (by decide) (by decide)
                (fun entry _ => entry_opens entry) (fun entry _ => entry_opens entry)
                (fun entry member other memberOther => toldApart_entries
                  (inductionHypothesis entry member other.2 (isDataOther other memberOther)))
                (List.cons.inj same).2
              exact ⟨rfl, rest⟩

/-- Layouts of data with the same text are the same. -/
theorem Layout.IsData.eq_of_text {layout other : Layout} (isData : layout.IsData)
    (isDataOther : other.IsData) (same : layout.text = other.text) : layout = other := by
  have characters := congrArg String.toList same
  exact (isData.toldApart other isDataOther [] [] ends_nil ends_nil
    (congrArg (· ++ []) characters)).1

end ObjectPath.Format
