import TreeQuery.Proofs.Spans
import TreeQuery.Proofs.Sql.Lexing

/-!
# Reading lexemes back

Names and strings are read back from their quoted spelling, and words, numbers and marks from
their own, in front of whatever may follow them.
-/

namespace TreeQuery.Sql

open Lexing

namespace Lexing

/-- Digits, at least one. -/
def Digits (characters : List Char) : Prop :=
  characters ≠ [] ∧ ∀ character ∈ characters, character.isDigit = true

/-- The spelling of a number without a sign: digits, and maybe a fraction and an exponent. -/
def Magnitude (spelling : List Char) : Prop :=
  ∃ whole fraction exponent, spelling = whole ++ fraction ++ exponent ∧ Digits whole ∧
    (fraction = [] ∨ ∃ digits, Digits digits ∧ fraction = '.' :: digits) ∧
    (exponent = [] ∨ ∃ sign digits, (sign = [] ∨ sign = ['-']) ∧ Digits digits ∧
      exponent = 'e' :: sign ++ digits)

/-- The spelling of a number. -/
def Numeral (spelling : List Char) : Prop :=
  ∃ sign magnitude, spelling = sign ++ magnitude ∧ (sign = [] ∨ sign = ['-']) ∧
    Magnitude magnitude

/-- Whether characters spell a word. -/
def isWord : List Char → Bool
  | [] => false
  | first :: rest => beginsWord first && rest.all continuesWord

/-- A character that keeps apart what stands before it. -/
def gaps : List Char := [' ', '\n', ',', '(', ')']

/-- A text that is empty or begins with a gap. -/
def GapAhead (after : List Char) : Prop :=
  ∀ character ∈ after.head?, character ∈ gaps

theorem spanDigits_of_forall {digits after : List Char}
    (hdigits : ∀ character ∈ digits, character.isDigit = true)
    (hafter : ∀ character ∈ after.head?, character.isDigit = false) :
    spanDigits (digits ++ after) = (digits, after) := by
  obtain ⟨htake, hdrop⟩ := takeWhile_dropWhile hdigits hafter
  rw [spanDigits, htake, hdrop]

theorem spanOneOf_of_mem {choices : List Char} {character : Char} (hmem : character ∈ choices)
    (rest : List Char) : spanOneOf choices (character :: rest) = ([character], rest) := by
  rw [spanOneOf, if_pos hmem]

theorem spanOneOf_of_not_mem {choices characters : List Char}
    (hhead : ∀ character ∈ characters.head?, character ∉ choices) :
    spanOneOf choices characters = ([], characters) := by
  cases characters with
  | nil => rfl
  | cons character rest => rw [spanOneOf, if_neg (hhead character rfl)]

/-- A minus sign that may be missing is read in front of digits. -/
theorem spanOneOf_sign {choices sign digits : List Char} (hminus : '-' ∈ choices)
    (hchoices : ∀ character ∈ choices, character.isDigit = false)
    (hsign : sign = [] ∨ sign = ['-']) (hdigits : Digits digits) (after : List Char) :
    spanOneOf choices (sign ++ (digits ++ after)) = (sign, digits ++ after) := by
  rcases hsign with rfl | rfl
  · refine spanOneOf_of_not_mem fun character hhead hchoice => ?_
    obtain ⟨hne, hall⟩ := hdigits
    have hmem : character ∈ digits := by
      obtain ⟨first, rest, rfl⟩ := List.exists_cons_of_ne_nil hne
      cases hhead
      exact List.mem_cons_self
    have hdigit := hall character hmem
    rw [hchoices character hchoice] at hdigit
    cases hdigit
  · exact spanOneOf_of_mem hminus _

/-- A fraction that may be missing is read in front of what is neither a point nor a digit. -/
theorem spanFraction_append_of {fraction after : List Char}
    (hfraction : fraction = [] ∨ ∃ digits, Digits digits ∧ fraction = '.' :: digits)
    (hafter : ∀ character ∈ after.head?, character ≠ '.' ∧ character.isDigit = false) :
    spanFraction (fraction ++ after) = (fraction, after) := by
  rcases hfraction with rfl | ⟨digits, ⟨hne, hall⟩, rfl⟩
  · have hpoint : spanOneOf ['.'] after = ([], after) :=
      spanOneOf_of_not_mem fun character hhead => by simpa using (hafter character hhead).1
    simp [spanFraction, hpoint]
  · have hpoint := spanOneOf_of_mem (List.mem_singleton_self '.') (digits ++ after)
    have hspan := spanDigits_of_forall hall fun character hhead => (hafter character hhead).2
    simp [spanFraction, hpoint, hspan, hne]

/-- An exponent that may be missing is read in front of what is neither its letter nor a
digit. -/
theorem spanExponent_append_of {exponent after : List Char}
    (hexponent : exponent = [] ∨ ∃ sign digits, (sign = [] ∨ sign = ['-']) ∧ Digits digits ∧
      exponent = 'e' :: sign ++ digits)
    (hafter : ∀ character ∈ after.head?,
      character ∉ ['e', 'E'] ∧ character.isDigit = false) :
    spanExponent (exponent ++ after) = (exponent, after) := by
  rcases hexponent with rfl | ⟨sign, digits, hsign, hdigits, rfl⟩
  · have hletter : spanOneOf ['e', 'E'] after = ([], after) :=
      spanOneOf_of_not_mem fun character hhead => (hafter character hhead).1
    simp [spanExponent, hletter]
  · have hletter := spanOneOf_of_mem (show 'e' ∈ ['e', 'E'] by decide) (sign ++ (digits ++ after))
    have hminus := spanOneOf_sign (show '-' ∈ ['+', '-'] by decide) (by simp) hsign hdigits
      after
    have hspan := spanDigits_of_forall hdigits.2 fun character hhead => (hafter character hhead).2
    simp [spanExponent, hletter, hminus, hspan, hdigits.1]

/-- No gap goes on with a number. -/
theorem gap_not_numeral : ∀ character ∈ gaps,
    character.isDigit = false ∧ character ≠ '.' ∧ character ∉ ['e', 'E'] := by
  simp [gaps]

/-- A number is read in front of a gap. -/
theorem number?_append {spelling after : List Char} (hspelling : Numeral spelling)
    (hafter : GapAhead after) : number? (spelling ++ after) = some (spelling, after) := by
  obtain ⟨sign, _, rfl, hsign, whole, fraction, exponent, rfl, hwhole, hfraction, hexponent⟩ :=
    hspelling
  have hend : ∀ character ∈ after.head?,
      character ∉ ['e', 'E'] ∧ character.isDigit = false := fun character hhead =>
    have hgap := gap_not_numeral character (hafter character hhead)
    ⟨hgap.2.2, hgap.1⟩
  -- an exponent begins with its letter
  have hlast : ∀ character ∈ (exponent ++ after).head?,
      character ≠ '.' ∧ character.isDigit = false := by
    rcases hexponent with rfl | ⟨inner, digits, -, -, rfl⟩
    · intro character hhead
      have hgap := gap_not_numeral character (hafter character hhead)
      exact ⟨hgap.2.1, hgap.1⟩
    · rintro _ ⟨⟩
      decide
  -- a fraction begins with its point
  have hrest : ∀ character ∈ (fraction ++ (exponent ++ after)).head?,
      character.isDigit = false := by
    rcases hfraction with rfl | ⟨digits, -, rfl⟩
    · exact fun character hhead => (hlast character hhead).2
    · rintro _ ⟨⟩
      decide
  have hminus := spanOneOf_sign (List.mem_singleton_self '-') (by simp) hsign hwhole
    (fraction ++ (exponent ++ after))
  have hdigits := spanDigits_of_forall hwhole.2 hrest
  have hpoint := spanFraction_append_of hfraction hlast
  have hletter := spanExponent_append_of hexponent hend
  simp [number?, hminus, hdigits, hpoint, hletter, hwhole.1]

/-- A mark is read whatever follows, but for the two that begin a longer one. -/
theorem mark?_append (mark : Mark) {after : List Char}
    (hafter : mark ≠ .lt ∧ mark ≠ .gt ∨ GapAhead after) :
    mark? (mark.text.toList ++ after) = some (mark, after) := by
  cases mark with
  | lt | gt =>
      have hgap : GapAhead after := by simpa using hafter
      cases after with
      | nil => rfl
      | cons next rest =>
          have hnext := hgap next rfl
          simp only [gaps, List.mem_cons, List.not_mem_nil, or_false] at hnext
          rcases hnext with rfl | rfl | rfl | rfl | rfl <;> rfl
  | _ => rfl

/-- A string with its backslashes and apostrophes doubled is read back. -/
theorem unescaped?_doubled (content after : List Char) (hafter : after.head? ≠ some '\'') :
    unescaped? (doubled '\'' (doubled '\\' content) ++ '\'' :: after) =
      some (content, after) := by
  induction content with
  | nil =>
      cases after with
      | nil => rfl
      | cons next rest =>
          have hne : next ≠ '\'' := by simpa using hafter
          simp [doubled, unescaped?, hne]
  | cons character rest ih =>
      by_cases hbackslash : character = '\\'
      · subst hbackslash
        simp [doubled, unescaped?, escaped, ih]
      · by_cases hquote : character = '\''
        · subst hquote
          simp [doubled, unescaped?, ih]
        · simp [doubled, hbackslash, hquote, unescaped?, ih]

end Lexing

namespace Dialect

variable {dialect : Dialect} {after : List Char}

theorem quoteIdentifier_toList (name : String) :
    (dialect.quoteIdentifier name).toList =
      enclosed dialect.opening dialect.closing name.toList := by
  cases dialect <;> simp [quoteIdentifier, opening, closing]

theorem next?_blank {character : Char} (hblank : character.isWhitespace = true) :
    dialect.next? (character :: after) = some (.blank character, after) := by
  rw [next?, if_pos hblank]

/-- A quoted name is read back in front of anything but its closing character. -/
theorem next?_quoteIdentifier (name : String) (hafter : after.head? ≠ some dialect.closing) :
    dialect.next? ((dialect.quoteIdentifier name).toList ++ after) =
      some (.identifier name, after) := by
  have hread := unenclosed?_doubled dialect.closing name.toList after hafter
  have hblank : dialect.opening.isWhitespace = false := by cases dialect <;> rfl
  rw [quoteIdentifier_toList, enclosed, List.cons_append, List.cons_append, List.append_assoc,
    List.singleton_append, next?, hblank, if_neg Bool.false_ne_true, if_pos rfl, hread]
  simp

theorem next?_apostrophe (characters : List Char) :
    dialect.next? ('\'' :: characters) =
      (dialect.unquoted? characters).map fun (content, after) =>
        (.text (String.ofList content), after) := by
  cases dialect <;> simp [next?, opening]

theorem next?_prefixed (characters : List Char) :
    tsql.next? ('N' :: '\'' :: characters) =
      (tsql.unquoted? characters).map fun (content, after) =>
        (.text (String.ofList content), after) := by
  simp [next?, opening, prefixed]

/-- A quoted string is read back in front of anything but an apostrophe. -/
theorem next?_quoteString (content : String) (hafter : after.head? ≠ some '\'') :
    dialect.next? ((dialect.quoteString content).toList ++ after) =
      some (.text content, after) := by
  have hplain := unenclosed?_doubled '\'' content.toList after hafter
  cases dialect with
  | mysql =>
      have hescaped := unescaped?_doubled content.toList after hafter
      simp [quoteString, enclosed, next?_apostrophe, unquoted?, hescaped]
  | tsql =>
      by_cases hascii : content.toList.all fun character => character.toNat < 128
      · simp only [quoteString, hascii]
        simp [enclosed, next?_apostrophe, unquoted?, hplain]
      · simp only [quoteString, hascii]
        simp [enclosed, next?_prefixed, unquoted?, hplain]
  | duckdb | postgres | sqlite =>
      simp [quoteString, enclosed, next?_apostrophe, unquoted?, hplain]

example : mysql.next? ['\'', '\\', '\\', '\'', '\'', '\'', ','] = some (.text "\\'", [',']) := by
  decide

theorem prefixed_eq_false {first : Char} {rest : List Char}
    (hrest : first ≠ 'N' ∨ rest.head? ≠ some '\'') : dialect.prefixed (first :: rest) = false := by
  unfold prefixed
  split
  · next hcons =>
      obtain ⟨rfl, rfl⟩ := List.cons.inj hcons
      simp at hrest
  · rfl

theorem ne_of_holds {holds : Char → Bool} {character other : Char}
    (hcharacter : holds character = true) (hother : holds other = false) : character ≠ other := by
  rintro rfl
  rw [hcharacter] at hother
  cases hother

/-- Words are read by their letters unless they are the prefix of a string. -/
theorem next?_beginsWord {first : Char} {rest : List Char} (hfirst : beginsWord first = true)
    (hrest : rest.head? ≠ some '\'') :
    dialect.next? (first :: rest) =
      some (.word (first :: rest.takeWhile continuesWord), rest.dropWhile continuesWord) := by
  have hne : ∀ other, beginsWord other = false → first ≠ other := fun _ => ne_of_holds hfirst
  have hblank : first.isWhitespace = false := by
    simp [Char.isWhitespace, hne ' ' rfl, hne '\t' rfl, hne '\r' rfl, hne '\n' rfl]
  have hopening : first ≠ dialect.opening := hne _ (by cases dialect <;> rfl)
  have hprefixed : dialect.prefixed (first :: rest) = false := prefixed_eq_false (.inr hrest)
  rw [next?, hblank, if_neg Bool.false_ne_true, if_neg hopening, if_neg (hne '\'' rfl), hprefixed,
    if_neg Bool.false_ne_true, if_pos hfirst]

theorem beginsWord_of_isDigit {character : Char} (hdigit : character.isDigit = true) :
    beginsWord character = false := by
  rw [beginsWord, Bool.or_eq_false_iff, decide_eq_false_iff_not]
  refine ⟨?_, ne_of_holds hdigit rfl⟩
  have hnine : '9'.val.toNat = 57 := rfl
  have hupper : 'A'.val.toNat = 65 := rfl
  have hlower : 'a'.val.toNat = 97 := rfl
  simp only [Char.isDigit, Char.isAlpha, Char.isUpper, Char.isLower, Bool.or_eq_false_iff,
    Bool.and_eq_true, Bool.and_eq_false_iff, decide_eq_true_eq, decide_eq_false_iff_not,
    ge_iff_le, UInt32.le_iff_toNat_le] at hdigit ⊢
  omega

theorem next?_beginsNumber {first : Char} {rest : List Char}
    (hfirst : first = '-' ∨ first.isDigit = true) :
    dialect.next? (first :: rest) =
      (number? (first :: rest)).map fun (spelling, after) => (.number spelling, after) := by
  rcases hfirst with rfl | hdigit
  · cases dialect <;> simp [next?, opening, prefixed, beginsWord]
  · have hne : ∀ other, other.isDigit = false → first ≠ other := fun _ => ne_of_holds hdigit
    have hblank : first.isWhitespace = false := by
      simp [Char.isWhitespace, hne ' ' rfl, hne '\t' rfl, hne '\r' rfl, hne '\n' rfl]
    have hopening : first ≠ dialect.opening := hne _ (by cases dialect <;> rfl)
    have hprefixed : dialect.prefixed (first :: rest) = false :=
      prefixed_eq_false (.inl (hne 'N' rfl))
    rw [next?, hblank, if_neg Bool.false_ne_true, if_neg hopening, if_neg (hne '\'' rfl),
      hprefixed, if_neg Bool.false_ne_true, beginsWord_of_isDigit hdigit,
      if_neg Bool.false_ne_true, hdigit, Bool.or_true, if_pos rfl]

theorem next?_sign {first : Char} (hfirst : first ∈ [',', '.', '*', '(', ')', '=', '<', '>'])
    (rest : List Char) :
    dialect.next? (first :: rest) =
      (mark? (first :: rest)).map fun (mark, after) => (.sign mark, after) := by
  simp only [List.mem_cons, List.not_mem_nil, or_false] at hfirst
  rcases hfirst with rfl | rfl | rfl | rfl | rfl | rfl | rfl | rfl <;> cases dialect <;>
    simp [next?, opening, prefixed, beginsWord]

theorem gap_not_word : ∀ character ∈ gaps,
    continuesWord character = false ∧ character ≠ '\'' := by
  simp [gaps, continuesWord]

/-- A word is read in front of a gap. -/
theorem next?_word {spelling : List Char} (hspelling : isWord spelling = true)
    (hafter : GapAhead after) :
    dialect.next? (spelling ++ after) = some (.word spelling, after) := by
  obtain ⟨first, rest, rfl⟩ : ∃ first rest, spelling = first :: rest := by
    cases spelling with
    | nil => cases hspelling
    | cons first rest => exact ⟨first, rest, rfl⟩
  obtain ⟨hfirst, hrest⟩ : beginsWord first = true ∧ ∀ character ∈ rest,
      continuesWord character = true := by simpa [isWord] using hspelling
  have hend : ∀ character ∈ after.head?, continuesWord character = false := fun _ hhead =>
    (gap_not_word _ (hafter _ hhead)).1
  have hquote : (rest ++ after).head? ≠ some '\'' := by
    cases rest with
    | nil => exact fun hhead => (gap_not_word _ (hafter _ hhead)).2 rfl
    | cons character others =>
        rintro ⟨⟩
        exact absurd (hrest '\'' List.mem_cons_self) (by decide)
  obtain ⟨htake, hdrop⟩ := takeWhile_dropWhile hrest hend
  rw [List.cons_append, next?_beginsWord hfirst hquote, htake, hdrop]

/-- A number is read in front of a gap. -/
theorem next?_number {spelling : List Char} (hspelling : Numeral spelling)
    (hafter : GapAhead after) :
    dialect.next? (spelling ++ after) = some (.number spelling, after) := by
  have hread := number?_append hspelling hafter
  obtain ⟨first, rest, rfl, hfirst⟩ : ∃ first rest, spelling = first :: rest ∧
      (first = '-' ∨ first.isDigit = true) := by
    obtain ⟨sign, _, rfl, hsign, whole, fraction, exponent, rfl, ⟨hne, hdigits⟩, -, -⟩ :=
      hspelling
    obtain ⟨digit, digits, rfl⟩ := List.exists_cons_of_ne_nil hne
    rcases hsign with rfl | rfl
    · exact ⟨digit, _, rfl, .inr (hdigits digit List.mem_cons_self)⟩
    · exact ⟨'-', _, rfl, .inl rfl⟩
  rw [List.cons_append] at hread ⊢
  rw [next?_beginsNumber hfirst, hread]
  rfl

/-- A mark is read whatever follows, but for the two that begin a longer one. -/
theorem next?_mark (mark : Mark) (hafter : mark ≠ .lt ∧ mark ≠ .gt ∨ GapAhead after) :
    dialect.next? (mark.text.toList ++ after) = some (.sign mark, after) := by
  have hread := mark?_append mark hafter
  obtain ⟨first, rest, htext, hfirst⟩ : ∃ first rest, mark.text.toList = first :: rest ∧
      first ∈ [',', '.', '*', '(', ')', '=', '<', '>'] := by
    cases mark <;> simp [Mark.text]
  rw [htext, List.cons_append] at hread ⊢
  rw [next?_sign hfirst, hread]
  rfl

end Dialect

end TreeQuery.Sql
