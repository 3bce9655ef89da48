import TreeQuery.Proofs.Plan.Membership

/-!
# Patterns and substrings

A match anywhere in a column is put as a pattern between two percent signs.  In a pattern a
percent sign stands for any run of characters, an underscore for any one character, and every
other character for itself.  So what has to occur in the column is a text that the pattern
stands for: the pattern itself, but where it holds one of the two signs also other texts.
-/

namespace TreeQuery.Sql

/-- The texts a pattern stands for.  A percent sign takes any run off the front of a text, an
underscore any one character. -/
inductive StandsFor : List Char → List Char → Prop
  | nil : StandsFor [] []
  | percent {pattern text rest : List Char} (hrun : rest <:+ text)
      (hrest : StandsFor pattern rest) : StandsFor ('%' :: pattern) text
  | underscore {pattern rest : List Char} (character : Char) (hrest : StandsFor pattern rest) :
      StandsFor ('_' :: pattern) (character :: rest)
  | self {pattern rest : List Char} {character : Char} (hpercent : character ≠ '%')
      (hunderscore : character ≠ '_') (hrest : StandsFor pattern rest) :
      StandsFor (character :: pattern) (character :: rest)

/-- Matches a text with a pattern.  A percent sign is tried with every run the text begins
with. -/
def matchesPattern : List Char → List Char → Bool
  | [], text => text.isEmpty
  | '%' :: pattern, text => text.tails.any fun rest => matchesPattern pattern rest
  | '_' :: _, [] => false
  | '_' :: pattern, _ :: rest => matchesPattern pattern rest
  | _ :: _, [] => false
  | character :: pattern, first :: rest => character == first && matchesPattern pattern rest

namespace StandsFor

variable {pattern text : List Char} {character : Char}

theorem nil_iff : StandsFor [] text ↔ text = [] := by
  constructor
  · rintro ⟨⟩
    rfl
  · rintro rfl
    exact .nil

theorem percent_iff :
    StandsFor ('%' :: pattern) text ↔ ∃ rest, rest <:+ text ∧ StandsFor pattern rest := by
  constructor
  · intro hstands
    cases hstands with
    | percent hrun hrest => exact ⟨_, hrun, hrest⟩
    | self hpercent _ _ => exact absurd rfl hpercent
  · rintro ⟨rest, hrun, hrest⟩
    exact .percent hrun hrest

theorem underscore_iff : StandsFor ('_' :: pattern) text ↔
    ∃ first rest, text = first :: rest ∧ StandsFor pattern rest := by
  constructor
  · intro hstands
    cases hstands with
    | underscore first hrest => exact ⟨first, _, rfl, hrest⟩
    | self _ hunderscore _ => exact absurd rfl hunderscore
  · rintro ⟨first, rest, rfl, hrest⟩
    exact .underscore first hrest

theorem self_iff (hpercent : character ≠ '%') (hunderscore : character ≠ '_') :
    StandsFor (character :: pattern) text ↔
      ∃ rest, text = character :: rest ∧ StandsFor pattern rest := by
  constructor
  · intro hstands
    cases hstands with
    | percent _ _ => exact absurd rfl hpercent
    | underscore _ _ => exact absurd rfl hunderscore
    | self _ _ hrest => exact ⟨_, rfl, hrest⟩
  · rintro ⟨rest, rfl, hrest⟩
    exact .self hpercent hunderscore hrest

theorem append {front behind first second : List Char} (hfirst : StandsFor front first)
    (hsecond : StandsFor behind second) : StandsFor (front ++ behind) (first ++ second) := by
  induction hfirst with
  | nil => exact hsecond
  | percent hrun _ ih =>
      obtain ⟨run, rfl⟩ := hrun
      exact .percent ⟨run, (List.append_assoc ..).symm⟩ ih
  | underscore character _ ih => exact .underscore character ih
  | self hpercent hunderscore _ ih => exact .self hpercent hunderscore ih

theorem exists_append {front behind : List Char} (hstands : StandsFor (front ++ behind) text) :
    ∃ first second, text = first ++ second ∧ StandsFor front first ∧
      StandsFor behind second := by
  induction front generalizing text with
  | nil => exact ⟨[], text, rfl, .nil, hstands⟩
  | cons sign front ih =>
      cases hstands with
      | percent hrun hrest =>
          obtain ⟨run, rfl⟩ := hrun
          obtain ⟨first, second, rfl, hfirst, hsecond⟩ := ih hrest
          exact ⟨run ++ first, second, (List.append_assoc ..).symm,
            .percent (List.suffix_append run first) hfirst, hsecond⟩
      | underscore character hrest =>
          obtain ⟨first, second, rfl, hfirst, hsecond⟩ := ih hrest
          exact ⟨character :: first, second, rfl, .underscore character hfirst, hsecond⟩
      | self hpercent hunderscore hrest =>
          obtain ⟨first, second, rfl, hfirst, hsecond⟩ := ih hrest
          exact ⟨sign :: first, second, rfl, .self hpercent hunderscore hfirst, hsecond⟩

/-- A pattern between two percent signs stands for the texts in which occurs what the pattern
stands for. -/
theorem between_percents_iff : StandsFor ('%' :: (pattern ++ ['%'])) text ↔
    ∃ occurrence, StandsFor pattern occurrence ∧ occurrence <:+: text := by
  constructor
  · intro hstands
    obtain ⟨rest, ⟨run, rfl⟩, hrest⟩ := percent_iff.mp hstands
    obtain ⟨occurrence, behind, rfl, hoccurrence, -⟩ := exists_append hrest
    exact ⟨occurrence, hoccurrence, run, behind, List.append_assoc ..⟩
  · rintro ⟨occurrence, hoccurrence, run, behind, rfl⟩
    have hbehind : StandsFor ['%'] behind := .percent (List.nil_suffix) .nil
    rw [List.append_assoc]
    exact .percent (List.suffix_append run _) (hoccurrence.append hbehind)

/-- A pattern stands for itself. -/
theorem refl (pattern : List Char) : StandsFor pattern pattern := by
  induction pattern with
  | nil => exact .nil
  | cons sign pattern ih =>
      by_cases hpercent : sign = '%'
      · rw [hpercent]
        exact .percent (List.suffix_cons '%' pattern) ih
      · by_cases hunderscore : sign = '_'
        · rw [hunderscore]
          exact .underscore '_' ih
        · exact .self hpercent hunderscore ih

/-- A pattern without signs stands for nothing else. -/
theorem eq_of_plain (hplain : '%' ∉ pattern ∧ '_' ∉ pattern) (hstands : StandsFor pattern text) :
    text = pattern := by
  induction hstands with
  | nil => rfl
  | percent _ _ _ => exact absurd List.mem_cons_self hplain.1
  | underscore _ _ _ => exact absurd List.mem_cons_self hplain.2
  | self _ _ _ ih =>
      obtain ⟨hpercent, hunderscore⟩ := hplain
      rw [ih ⟨fun hmem => hpercent (List.mem_cons_of_mem _ hmem),
        fun hmem => hunderscore (List.mem_cons_of_mem _ hmem)⟩]

/-- Every pattern stands for a text without the two signs. -/
theorem exists_plain (pattern : List Char) :
    ∃ text, StandsFor pattern text ∧ '%' ∉ text ∧ '_' ∉ text := by
  induction pattern with
  | nil => exact ⟨[], .nil, List.not_mem_nil, List.not_mem_nil⟩
  | cons sign pattern ih =>
      obtain ⟨text, hstands, hplain⟩ := ih
      by_cases hpercent : sign = '%'
      · rw [hpercent]
        exact ⟨text, .percent List.suffix_rfl hstands, hplain⟩
      · by_cases hunderscore : sign = '_'
        · rw [hunderscore]
          exact ⟨'a' :: text, .underscore 'a' hstands, by simpa using hplain⟩
        · refine ⟨sign :: text, .self hpercent hunderscore hstands, ?_⟩
          simpa [eq_comm, hpercent, hunderscore] using hplain

/-- What a pattern stands for occurs in the same texts as the pattern if and only if the
pattern holds neither sign. -/
theorem occurs_as_itself_iff :
    (∀ text, (∃ occurrence, StandsFor pattern occurrence ∧ occurrence <:+: text) ↔
      pattern <:+: text) ↔ '%' ∉ pattern ∧ '_' ∉ pattern := by
  constructor
  · intro hsame
    obtain ⟨text, hstands, hpercent, hunderscore⟩ := exists_plain pattern
    have hoccurs : pattern <:+: text := (hsame text).mp ⟨text, hstands, List.infix_rfl⟩
    exact ⟨fun hmem => hpercent (hoccurs.mem hmem), fun hmem => hunderscore (hoccurs.mem hmem)⟩
  · intro hplain text
    constructor
    · rintro ⟨occurrence, hstands, hoccurs⟩
      rwa [← hstands.eq_of_plain hplain]
    · exact fun hoccurs => ⟨pattern, .refl pattern, hoccurs⟩

end StandsFor

/-- A pattern matches the texts it stands for. -/
theorem matchesPattern_iff {pattern text : List Char} :
    matchesPattern pattern text = true ↔ StandsFor pattern text := by
  fun_induction matchesPattern pattern text with
  | case1 text => rw [List.isEmpty_iff, StandsFor.nil_iff]
  | case2 pattern text ih =>
      rw [List.any_eq_true, StandsFor.percent_iff]
      simp only [List.mem_tails, ih]
  | case3 pattern => simp [StandsFor.underscore_iff]
  | case4 pattern first rest ih => simp [StandsFor.underscore_iff, ih]
  | case5 character pattern hpercent hunderscore =>
      rw [StandsFor.self_iff hpercent hunderscore]
      simp
  | case6 character pattern first rest hpercent hunderscore ih =>
      rw [Bool.and_eq_true, beq_iff_eq, ih, StandsFor.self_iff hpercent hunderscore]
      simp [eq_comm]

instance (pattern text : List Char) : Decidable (StandsFor pattern text) :=
  decidable_of_iff _ matchesPattern_iff

/-- A store that matches texts with patterns as they are written. -/
def Engine.MatchesPatterns (engine : Engine) : Prop :=
  ∀ text pattern : String,
    engine.fits (engine.constant (.string text)) (engine.constant (.string pattern)) =
      matchesPattern pattern.toList text.toList

/-- A store of literals that matches texts with patterns. -/
def literalStore : Engine where
  Datum := Literal
  constant := id
  equal left right := decide (left = right)
  less _ _ := false
  fits
    | .string text, .string pattern => matchesPattern pattern.toList text.toList
    | _, _ => false
  lower := id
  holds datum := datum == .bool true
  equal_self _ := decide_eq_true rfl

theorem literalStore_matchesPatterns : literalStore.MatchesPatterns :=
  fun _ _ => rfl

end TreeQuery.Sql

namespace TreeQuery.Plan.Predicate

open Sql (Assignment Engine StandsFor literalStore literalStore_matchesPatterns)

variable {engine : Engine} {assignment : Assignment engine} {table name : String}

/-- A match of a pattern is true of a text if and only if what the pattern stands for occurs in
the text. -/
theorem contains_eq_true_iff (hengine : engine.MatchesPatterns) {pattern text : String}
    (htext : assignment (some table) name = some (engine.constant (.string text))) :
    (contains (.ofTable table name) pattern true false).verdict engine assignment = some true ↔
      ∃ occurrence, StandsFor pattern.toList occurrence ∧ occurrence <:+: text.toList := by
  have hpattern : ("%" ++ pattern ++ "%").toList = '%' :: (pattern.toList ++ ['%']) := by
    simp
  have hvalue : (Sql.Expr.ofTable table name).value engine assignment =
      some (engine.constant (.string text)) := htext
  have hverdict : (contains (.ofTable table name) pattern true false).verdict engine assignment =
      some (Sql.matchesPattern ('%' :: (pattern.toList ++ ['%'])) text.toList) := by
    rw [← hpattern, ← hengine]
    change engine.likeness false _ _ = _
    rw [hvalue]
    rfl
  rw [hverdict, Option.some.injEq, Sql.matchesPattern_iff, StandsFor.between_percents_iff]

/-- A match of a pattern is planned as a predicate that is true of a text if and only if what the
pattern stands for occurs there, so that it is true of every text that holds the pattern itself.
It is true of no other text, whatever the row, if and only if the pattern has neither a percent
sign nor an underscore.  Written in any dialect and read back, the predicate says the same. -/
theorem containing_substring_iff (hengine : engine.MatchesPatterns) (table name pattern : String) :
    ∃ predicate, ofOperator name (.ofTable table name) (.containing pattern) =
        .ok (some predicate) ∧
      (∀ (assignment : Assignment engine) (text : String),
        assignment (some table) name = some (engine.constant (.string text)) →
          (predicate.verdict engine assignment = some true ↔ ∃ occurrence,
            StandsFor pattern.toList occurrence ∧ occurrence <:+: text.toList) ∧
          (pattern.toList <:+: text.toList → predicate.verdict engine assignment = some true)) ∧
      ((∀ (assignment : Assignment engine) (text : String),
          assignment (some table) name = some (engine.constant (.string text)) →
            (predicate.verdict engine assignment = some true ↔ pattern.toList <:+: text.toList)) ↔
        '%' ∉ pattern.toList ∧ '_' ∉ pattern.toList) ∧
      ∀ dialect, ∃ read, Sql.Reading.predicate? (predicate.tokens dialect) = some read ∧
        read.SaysSame predicate := by
  refine ⟨contains (.ofTable table name) pattern true false, rfl, ?_, ?_, ?_⟩
  · intro assignment text htext
    rw [contains_eq_true_iff hengine htext]
    exact ⟨Iff.rfl, fun hoccurs => ⟨pattern.toList, .refl _, hoccurs⟩⟩
  · rw [← StandsFor.occurs_as_itself_iff]
    constructor
    · intro hsubstring text
      -- some row holds the text
      have hrow := hsubstring (fun _ _ => some (engine.constant (.string (String.ofList text))))
        (String.ofList text) rfl
      rwa [contains_eq_true_iff hengine rfl, String.toList_ofList] at hrow
    · intro hsame assignment text htext
      rw [contains_eq_true_iff hengine htext, hsame]
  · intro dialect
    have hcolumn : Sql.Scalar (.ofTable table name) := .column table name
    have hmeans := means_contains hcolumn pattern true false
    exact reads_back_of_numeric (hmeans.condition _ rfl) rfl dialect

/-- The row of a book with a title. -/
def titled (title : String) : Assignment literalStore :=
  fun _ _ => some (Sql.Literal.string title)

theorem containing_substring_iff_discount :
    ∃ predicate, ofOperator "title" (.ofTable "book" "title") (.containing "100%") =
        .ok (some predicate) ∧
      predicate.verdict literalStore (titled "Save 100% today") = some true ∧
      ¬ ∀ (assignment : Assignment literalStore) (text : String),
        assignment (some "book") "title" = some (Sql.Literal.string text) →
          (predicate.verdict literalStore assignment = some true ↔
            "100%".toList <:+: text.toList) := by
  obtain ⟨predicate, hplanned, hrows, hlaw, -⟩ :=
    containing_substring_iff literalStore_matchesPatterns "book" "title" "100%"
  refine ⟨predicate, hplanned, ?_, ?_⟩
  · exact (hrows (titled "Save 100% today") "Save 100% today" rfl).2 (by decide)
  · exact fun hsubstring => (hlaw.mp hsubstring).1 (by decide)

/-- A title in which a pattern does not occur is matched all the same. -/
theorem percent_sign_matched :
    ∃ predicate, ofOperator "title" (.ofTable "book" "title") (.containing "100%") =
        .ok (some predicate) ∧
      predicate.verdict literalStore (titled "1000 Nights") = some true ∧
      ¬ "100%".toList <:+: "1000 Nights".toList :=
  ⟨_, rfl, by decide, by decide⟩

end TreeQuery.Plan.Predicate
