import TreeQuery.Proofs.Sql.Spacing
import TreeQuery.Proofs.Sql.Wording

/-!
# Page clauses

The clause for a page is read with the grammar of its dialect.  DuckDB and Postgres take either
half alone, MySQL and SQLite take an offset only behind a limit, and T-SQL counts rows behind a
sort order.  A page is read back from its text, but for one: MySQL has no reading of an offset
that stands alone.
-/

namespace TreeQuery.Sql

open Lexing (Digits)

/-! ## The grammars -/

/-- Digits that spell a count. -/
def Counts (digits : List Char) (count : Nat) : Prop :=
  Digits digits ∧ Nat.ofDigitChars 10 digits 0 = count

/-- The unit of a keyword that is one word. -/
def Keyword.unit (word : Keyword) : Lexeme := .word word.text.toList

/-- The page clauses of a dialect, each with its limit and the number of rows that it skips. -/
@[mk_iff]
inductive PageClause : Dialect → List Lexeme → Option Nat → Nat → Prop
  | limit {dialect : Dialect} {digits : List Char} {limit : Nat} (hdialect : dialect ≠ .tsql)
      (hlimit : Counts digits limit) :
      PageClause dialect [Keyword.LIMIT.unit, .number digits] (some limit) 0
  | limitOffset {dialect : Dialect} {digits skipped : List Char} {limit offset : Nat}
      (hdialect : dialect ≠ .tsql) (hlimit : Counts digits limit)
      (hoffset : Counts skipped offset) :
      PageClause dialect
        [Keyword.LIMIT.unit, .number digits, Keyword.OFFSET.unit, .number skipped]
        (some limit) offset
  | offset {dialect : Dialect} {skipped : List Char} {offset : Nat}
      (hdialect : dialect = .duckdb ∨ dialect = .postgres) (hoffset : Counts skipped offset) :
      PageClause dialect [Keyword.OFFSET.unit, .number skipped] none offset
  -- SQLite takes a negative limit for none.
  | unlimited {digits : List Char} {count : Nat} (hcount : Counts digits count)
      (hsome : 0 < count) :
      PageClause .sqlite [Keyword.LIMIT.unit, .number ('-' :: digits)] none 0
  | unlimitedOffset {digits skipped : List Char} {count offset : Nat}
      (hcount : Counts digits count) (hsome : 0 < count) (hoffset : Counts skipped offset) :
      PageClause .sqlite
        [Keyword.LIMIT.unit, .number ('-' :: digits), Keyword.OFFSET.unit, .number skipped]
        none offset
  | rows {skipped : List Char} {offset : Nat} (hoffset : Counts skipped offset) :
      PageClause .tsql [Keyword.OFFSET.unit, .number skipped, Keyword.ROWS.unit] none offset
  | fetch {digits skipped : List Char} {limit offset : Nat} (hoffset : Counts skipped offset)
      (hlimit : Counts digits limit) :
      PageClause .tsql
        [Keyword.OFFSET.unit, .number skipped, Keyword.ROWS.unit, Keyword.FETCH.unit,
          Keyword.NEXT.unit, .number digits, Keyword.ROWS.unit, Keyword.ONLY.unit]
        (some limit) offset

/-- The units that are not blanks. -/
def withoutBlanks (lexemes : List Lexeme) : List Lexeme :=
  lexemes.filter fun
    | .blank _ => false
    | _ => true

@[simp]
theorem withoutBlanks_append (lexemes others : List Lexeme) :
    withoutBlanks (lexemes ++ others) = withoutBlanks lexemes ++ withoutBlanks others := by
  rw [withoutBlanks, List.filter_append]
  rfl

/-- The units of a text, its blanks aside. -/
def Dialect.units? (dialect : Dialect) (text : String) : Option (List Lexeme) :=
  (dialect.lex text.toList).map withoutBlanks

/-! ## Counts are read back -/

@[simp]
theorem counts_toDigits_iff (value count : Nat) :
    Counts (Nat.toDigits 10 value) count ↔ count = value := by
  have hdigits := digits_repr value
  rw [Nat.toString_eq_repr, Nat.toList_repr] at hdigits
  rw [Counts, and_iff_right hdigits, Nat.ofDigitChars_ten_toDigits]
  exact eq_comm

@[simp]
theorem not_counts_minus (digits : List Char) (count : Nat) : ¬ Counts ('-' :: digits) count :=
  fun hcounts => absurd (hcounts.1.2 '-' List.mem_cons_self) (by decide)

@[simp]
theorem toDigits_ne_minus (value : Nat) (digits : List Char) :
    Nat.toDigits 10 value ≠ '-' :: digits :=
  fun hminus => not_counts_minus digits value (hminus ▸ (counts_toDigits_iff value value).mpr rfl)

/-- The unit of a count. -/
def countUnit (count : Nat) : Lexeme := .number (Nat.toDigits 10 count)

/-! ## The readings of each form -/

namespace PageClause

variable {dialect : Dialect} {limit : Option Nat} {offset count skipped : Nat}

theorem limit_iff :
    PageClause dialect [Keyword.LIMIT.unit, countUnit count] limit offset ↔
      dialect ≠ .tsql ∧ limit = some count ∧ offset = 0 := by
  simp [pageClause_iff, Keyword.unit, Keyword.text, countUnit]

theorem limitOffset_iff :
    PageClause dialect
        [Keyword.LIMIT.unit, countUnit count, Keyword.OFFSET.unit, countUnit skipped]
        limit offset ↔
      dialect ≠ .tsql ∧ limit = some count ∧ offset = skipped := by
  simp [pageClause_iff, Keyword.unit, Keyword.text, countUnit, and_comm]

theorem unlimitedOffset_iff :
    PageClause dialect
        [Keyword.LIMIT.unit, .number ('-' :: Nat.toDigits 10 1), Keyword.OFFSET.unit,
          countUnit skipped]
        limit offset ↔
      dialect = .sqlite ∧ limit = none ∧ offset = skipped := by
  simp [pageClause_iff, Keyword.unit, Keyword.text, countUnit, and_comm, and_left_comm]

theorem offset_iff :
    PageClause dialect [Keyword.OFFSET.unit, countUnit skipped] limit offset ↔
      (dialect = .duckdb ∨ dialect = .postgres) ∧ limit = none ∧ offset = skipped := by
  simp [pageClause_iff, Keyword.unit, Keyword.text, countUnit, and_comm]

theorem rows_iff :
    PageClause dialect [Keyword.OFFSET.unit, countUnit skipped, Keyword.ROWS.unit] limit offset ↔
      dialect = .tsql ∧ limit = none ∧ offset = skipped := by
  simp [pageClause_iff, Keyword.unit, Keyword.text, countUnit, and_comm, and_left_comm]

theorem fetch_iff :
    PageClause dialect
        [Keyword.OFFSET.unit, countUnit skipped, Keyword.ROWS.unit, Keyword.FETCH.unit,
          Keyword.NEXT.unit, countUnit count, Keyword.ROWS.unit, Keyword.ONLY.unit] limit offset ↔
      dialect = .tsql ∧ limit = some count ∧ offset = skipped := by
  simp [pageClause_iff, Keyword.unit, Keyword.text, countUnit, and_comm, and_left_comm]

end PageClause

/-! ## The units of a page -/

namespace Page

/-- Counts that fit in a signed word of 64 bits. -/
structure Fits (page : Page) : Prop where
  limit : ∀ count ∈ page.limit, count < 2 ^ 63
  offset : ∀ count ∈ page.offset, count < 2 ^ 63

theorem Fits.offset_getD {page : Page} (hfits : page.Fits) : page.offset.getD 0 < 2 ^ 63 := by
  cases hoffset : page.offset with
  | none => decide
  | some count => exact hfits.offset count hoffset

theorem lexemes_countToken {count : Nat} (hcount : count < 2 ^ 63) (dialect : Dialect) :
    (countToken count).lexemes dialect = [countUnit count] := by
  have hword : Int.bmod count (Nat.pow 2 64) = count := by
    apply Int.bmod_eq_of_le
    · omega
    · change (count : Int) < (18446744073709551616 + 1) / 2
      omega
  rw [countToken, hword, Token.lexemes, Literal.lexeme, countUnit, ← Nat.toList_repr]
  rfl

theorem units?_render_tokens (dialect : Dialect) (page : Page) :
    dialect.units? (render dialect (page.tokens dialect)) =
      some (withoutBlanks ((page.tokens dialect).flatMap (Token.lexemes dialect))) := by
  rw [Dialect.units?, lex_render (page.spaced_tokens dialect) (page.worded_tokens dialect)]
  rfl

theorem withoutBlanks_limitTokens {count : Nat} (hcount : count < 2 ^ 63) (dialect : Dialect) :
    withoutBlanks ((limitTokens count).flatMap (Token.lexemes dialect)) =
      [Keyword.LIMIT.unit, countUnit count] := by
  simp only [limitTokens, List.flatMap_cons, lexemes_countToken hcount]
  rfl

theorem withoutBlanks_offsetTokens {count : Nat} (hcount : count < 2 ^ 63) (dialect : Dialect) :
    withoutBlanks ((offsetTokens count).flatMap (Token.lexemes dialect)) =
      [Keyword.OFFSET.unit, countUnit count] := by
  simp only [offsetTokens, List.flatMap_cons, lexemes_countToken hcount]
  rfl

theorem bare_offset_iff {dialect : Dialect} (htsql : dialect ≠ .tsql)
    (hsqlite : dialect ≠ .sqlite) :
    (dialect = .duckdb ∨ dialect = .postgres) ↔ dialect ≠ .mysql := by
  cases dialect <;> simp at *

/-- The clause for a page has the page for its only reading, unless it is an offset that stands
alone in MySQL: that has none. -/
theorem clause_iff (dialect : Dialect) {page : Page} (hfits : page.Fits)
    (hpage : page.limit ≠ none ∨ page.offset ≠ none) (limit : Option Nat) (offset : Nat) :
    PageClause dialect
        (withoutBlanks ((page.tokens dialect).flatMap (Token.lexemes dialect))) limit offset ↔
      ¬ (dialect = .mysql ∧ page.limit = none) ∧ limit = page.limit ∧
        offset = page.offset.getD 0 := by
  unfold tokens
  split
  · rw [List.flatMap_append, List.flatMap_append, withoutBlanks_append, withoutBlanks_append,
      withoutBlanks_offsetTokens hfits.offset_getD]
    cases hgiven : page.limit with
    | none =>
        refine PageClause.rows_iff.trans ?_
        simp
    | some count =>
        simp only [List.flatMap_cons, lexemes_countToken (hfits.limit count hgiven)]
        refine PageClause.fetch_iff.trans ?_
        simp
  · next count skipped htsql hcount hskipped =>
      rw [List.flatMap_append, List.flatMap_append, withoutBlanks_append, withoutBlanks_append,
        withoutBlanks_limitTokens (hfits.limit count hcount),
        withoutBlanks_offsetTokens (hfits.offset skipped hskipped), hcount, hskipped]
      refine PageClause.limitOffset_iff.trans ?_
      simp [show _ ≠ Dialect.tsql from htsql]
  · next count htsql hcount hskipped =>
      rw [withoutBlanks_limitTokens (hfits.limit count hcount), hcount, hskipped,
        PageClause.limit_iff]
      simp [show _ ≠ Dialect.tsql from htsql]
  · next skipped hcount hskipped =>
      rw [List.flatMap_append, withoutBlanks_append,
        withoutBlanks_offsetTokens (hfits.offset skipped hskipped), hcount, hskipped]
      refine PageClause.unlimitedOffset_iff.trans ?_
      simp
  · next skipped htsql hsqlite hcount hskipped =>
      rw [withoutBlanks_offsetTokens (hfits.offset skipped hskipped), hcount, hskipped,
        PageClause.offset_iff, bare_offset_iff htsql hsqlite]
      simp
  · next hcount hskipped =>
      exact absurd hpage (by simp [hcount, hskipped])

end Page

/-! ## Pages behind a sort order -/

namespace Query

/-- What T-SQL sorts by: the sort keys, or a constant if there are none. -/
def sortTokens (query : Query) : List Token :=
  if query.order.isEmpty then parenthesized [.keyword .SELECT, .blank, .keyword .NULL]
  else commaSeparated (query.order.map (SortKey.tokens .tsql))

theorem orderTokens_paged (query : Query) (hpage : query.page.isSome) :
    query.orderTokens .tsql = [.newline, .keyword .ORDER_BY, .blank] ++ query.sortTokens := by
  rw [orderTokens, sortTokens, hpage]
  split <;> rfl

/-- In T-SQL a page always stands behind a sort order, which stands behind all the rest. -/
theorem tokens_paged {query : Query} {page : Page} (hpage : query.page = some page) :
    query.tokens .tsql =
      Query.tokens .tsql { query with order := [], page := none } ++
        [.newline, .keyword .ORDER_BY, .blank] ++ query.sortTokens ++
        .newline :: page.tokens .tsql := by
  have hsorted := orderTokens_paged query (by rw [hpage]; rfl)
  have hbare : orderTokens .tsql { query with order := [], page := none } = [] := rfl
  simp only [tokens, hsorted, hbare, hpage, List.append_nil, List.append_assoc]

end Query

namespace Page

/-- A page is read back from its clause.  In every dialect but MySQL the grammar has one reading
of the clause, and it is the page.  In MySQL this holds of a page with a limit, while an offset
that stands alone is not a clause of its grammar.  In T-SQL the clause stands behind a sort
order. -/
theorem clause_reads_back_iff (dialect : Dialect) (page : Page) (hfits : page.Fits)
    (hpage : page.limit ≠ none ∨ page.offset ≠ none) :
    (∃ units, dialect.units? (render dialect (page.tokens dialect)) = some units ∧
      ∀ limit offset, PageClause dialect units limit offset ↔
        ¬ (dialect = .mysql ∧ page.limit = none) ∧
          limit = page.limit ∧ offset = page.offset.getD 0) ∧
    ∀ query : Query, query.page = some page →
      query.tokens .tsql =
        Query.tokens .tsql { query with order := [], page := none } ++
          [.newline, .keyword .ORDER_BY, .blank] ++ query.sortTokens ++
          .newline :: page.tokens .tsql :=
  ⟨⟨_, units?_render_tokens dialect page, clause_iff dialect hfits hpage⟩,
    fun _ hquery => Query.tokens_paged hquery⟩

/-- The second ten rows. -/
def secondTen : Page := ⟨some 10, some 10⟩

theorem clause_reads_back_iff_secondTen :
    (∃ units, Dialect.sqlite.units? (render .sqlite (secondTen.tokens .sqlite)) = some units ∧
      ∀ limit offset, PageClause .sqlite units limit offset ↔
        ¬ (Dialect.sqlite = .mysql ∧ secondTen.limit = none) ∧
          limit = some 10 ∧ offset = 10) ∧
    ∀ query : Query, query.page = some secondTen →
      query.tokens .tsql =
        Query.tokens .tsql { query with order := [], page := none } ++
          [.newline, .keyword .ORDER_BY, .blank] ++ query.sortTokens ++
          .newline :: secondTen.tokens .tsql :=
  clause_reads_back_iff .sqlite secondTen ⟨by simp [secondTen], by simp [secondTen]⟩
    (.inl (by simp [secondTen]))

/-- MySQL is given an offset alone, which its grammar has no reading of. -/
theorem mysql_bare_offset :
    render .mysql ((⟨none, some 20⟩ : Page).tokens .mysql) = "OFFSET 20" ∧
    ∃ units, Dialect.mysql.units? "OFFSET 20" = some units ∧
      ∀ limit offset, ¬ PageClause .mysql units limit offset := by
  have htext : render .mysql ((⟨none, some 20⟩ : Page).tokens .mysql) = "OFFSET 20" := by
    decide
  have hfits : (⟨none, some 20⟩ : Page).Fits := ⟨by simp, by simp⟩
  refine ⟨htext, _, htext ▸ units?_render_tokens .mysql ⟨none, some 20⟩, fun limit offset => ?_⟩
  rw [clause_iff .mysql hfits (.inr (by simp))]
  simp

end Page

end TreeQuery.Sql
