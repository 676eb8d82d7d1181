import ObjectPath.Proofs.Resolving
import ObjectPath.Proofs.Unbinding

/-!
# Names that are read back

A text that is bound to a name is read as that name and the path that was bound, whatever the path
looks like, as long as the name can be told from what is around it.  So a text that is bound again
only changes its name, and every text that is read as bound was written in this way.
-/

namespace ObjectPath.PathText

/-- A name that can be told from what is around it: there is one, and it ends where the first
closing parenthesis stands. -/
structure Readable (name : String) : Prop where
  something : name ≠ ""
  noClosing : ')' ∉ name.toList

/-! ## Reading -/

theorem Readable.parseStatic {name body : String} (readable : Readable name)
    (something : body ≠ "") : parseStatic (withType name body) = .ok (some ⟨name, body⟩) :=
  parseStatic_withType readable.something readable.noClosing something

/-- A text is read as a name and a path exactly if they stand behind the mark. -/
theorem parseStatic_eq_some_iff {text : String} {parts : StaticParts} :
    parseStatic text = .ok (some parts) ↔
      text = withType parts.typeName parts.body ∧ Readable parts.typeName ∧ parts.body ≠ "" := by
  constructor
  · intro parsed
    obtain ⟨isStatic, noClosing, named, something⟩ := eq_withType_of_parseStatic parsed
    exact ⟨isStatic, ⟨named, noClosing⟩, something⟩
  · rintro ⟨rfl, readable, something⟩
    exact readable.parseStatic something

/-! ## Writing -/

theorem toStatic_of_toNonStatic (name : String) {text body : String}
    (stripped : toNonStatic text = .ok body) : toStatic name text = .ok (withType name body) := by
  rw [toStatic, stripped]

/-- Of a text that is not blank something is left without its type. -/
theorem ne_empty_of_toNonStatic {text body : String} (notBlank : ¬ Text.Blanks text.toList)
    (stripped : toNonStatic text = .ok body) : body ≠ "" := by
  unfold toNonStatic withoutType at stripped
  split at stripped
  · rename_i parts parsed
    cases stripped
    exact (parseStatic_eq_some_iff.1 parsed).2.2
  · cases stripped
    rw [Text.trim, Ne, String.ofList_eq_empty_iff]
    exact fun nothing => notBlank (Text.blanks_of_trimList_eq_nil nothing)
  · cases stripped

/-- Without the name that it was just bound to, a text is what it was without its type. -/
theorem toNonStatic_withType {name text body : String} (readable : Readable name)
    (notBlank : ¬ Text.Blanks text.toList) (stripped : toNonStatic text = .ok body) :
    toNonStatic (withType name body) = .ok body :=
  toNonStatic_of_static (trim_withType name (trimEnd_of_toNonStatic stripped))
    (readable.parseStatic (ne_empty_of_toNonStatic notBlank stripped))

/-- What is bound to a name is read as that name and the path that is left of the text without its
type; without its type it is that path; and it does not matter to which other name the text was
bound before.  A text is read as a name and a path only if they stand behind the mark, with
something for each and no closing parenthesis in the name. -/
theorem bound_text_reads_back :
    (∀ name text body, Readable name → ¬ Text.Blanks text.toList → toNonStatic text = .ok body →
      ∃ bound, toStatic name text = .ok bound ∧ parseStatic bound = .ok (some ⟨name, body⟩) ∧
        toNonStatic bound = .ok body ∧
        ∀ other, Readable other →
          ∃ rebound, toStatic other text = .ok rebound ∧ toStatic name rebound = .ok bound) ∧
      ∀ text (parts : StaticParts), parseStatic text = .ok (some parts) ↔
        text = "class(" ++ parts.typeName ++ ")" ++ parts.body ∧ Readable parts.typeName ∧
          parts.body ≠ "" := by
  refine ⟨fun name text body readable notBlank stripped => ?_, fun _ _ => parseStatic_eq_some_iff⟩
  have something := ne_empty_of_toNonStatic notBlank stripped
  refine ⟨withType name body, toStatic_of_toNonStatic name stripped,
    readable.parseStatic something, toNonStatic_withType readable notBlank stripped,
    fun other readableOther => ⟨withType other body, toStatic_of_toNonStatic other stripped, ?_⟩⟩
  exact toStatic_of_toNonStatic name (toNonStatic_withType readableOther notBlank stripped)

/-- What is left of a text without its type may start with a blank and go on like a bound text. -/
theorem bound_text_reads_back_behind_blank :
    ∃ bound rebound, toStatic "A" "\tclass(B) class(C)x " = .ok bound ∧
      parseStatic bound = .ok (some ⟨"A", " class(C)x"⟩) ∧ toNonStatic bound = .ok " class(C)x" ∧
      toStatic "[(" "\tclass(B) class(C)x " = .ok rebound ∧ toStatic "A" rebound = .ok bound := by
  obtain ⟨bound, isBound, parsed, stripped, rebinds⟩ :=
    bound_text_reads_back.1 "A" "\tclass(B) class(C)x " " class(C)x" ⟨by decide, by decide⟩
      (by decide) rfl
  obtain ⟨rebound, isRebound, again⟩ := rebinds "[(" ⟨by decide, by decide⟩
  exact ⟨bound, rebound, isBound, parsed, stripped, isRebound, again⟩

end ObjectPath.PathText
