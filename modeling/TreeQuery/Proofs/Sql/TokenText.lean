import TreeQuery.Proofs.Sql.Numerals

/-!
# The text of tokens

Tokens that may follow one another are written as a text that splits into their units again,
names and strings included.  Most tokens end where a blank, a comma or a parenthesis begins, and
blanks, parentheses and most marks end by themselves.
-/

namespace TreeQuery.Sql

open Lexing

/-- The units of a keyword: its words, with a blank between them. -/
def Keyword.lexemes : Keyword → List Lexeme
  | .ORDER_BY => [.word "ORDER".toList, .blank ' ', .word "BY".toList]
  | .PARTITION_BY => [.word "PARTITION".toList, .blank ' ', .word "BY".toList]
  | word => [.word word.text.toList]

/-- The unit of a literal.  A truth value is a word or a number, and a double that is not finite
is the word for null. -/
def Literal.lexeme (dialect : Dialect) : Literal → Lexeme
  | .null | .float none => .word "NULL".toList
  | .bool value =>
      if dialect.writesTruthAsWord then .word (dialect.truthText value).toList
      else .number (dialect.truthText value).toList
  | .int value => .number (toString value).toList
  | .float (some value) => .number (floatLayout.render value).toList
  | .string value => .text value

namespace Token

/-- The units of a token. -/
def lexemes (dialect : Dialect) : Token → List Lexeme
  | keyword word => word.lexemes
  | mark sign => [.sign sign]
  | blank => [.blank ' ']
  | newline => [.blank '\n']
  | indent levels => List.replicate (2 * levels) (.blank ' ')
  | identifier name | qualified none name => [.identifier name]
  | qualified (some schema) name => [.identifier schema, .sign .dot, .identifier name]
  | literal value => [value.lexeme dialect]
  | function name => [.word (Text.uppercase name).toList]

/-- A token that is a word if it is the name of a function. -/
def Worded : Token → Prop
  | function name => isWord (Text.uppercase name).toList = true
  | _ => True

/-- A token that ends by itself, whatever follows. -/
def isLoose : Token → Bool
  | blank | newline | indent _ => true
  | mark sign => sign != .lt && sign != .gt
  | keyword _ | identifier _ | qualified _ _ | literal _ | function _ => false

/-- A token that ends whatever stands before it. -/
def isGap : Token → Bool
  | blank | newline | mark .comma | mark .open | mark .close => true
  | _ => false

/-- A token that is a name. -/
def isName : Token → Bool
  | identifier _ | qualified _ _ => true
  | _ => false

/-- Whether a token may stand behind another one.  A name may also be followed by a point. -/
def MayFollow (first second : Token) : Prop :=
  first.isLoose ∨ second.isGap ∨ first.isName ∧ second = .mark .dot

/-- Whether a text may stand behind a token. -/
def Admits (token : Token) (after : List Char) : Prop :=
  token.isLoose ∨ GapAhead after ∨ token.isName ∧ after.head? = some '.'

end Token

/-! ## Texts that are read as units -/

/-- In front of what follows, a text is read as the given units. -/
def ReadsAs (dialect : Dialect) (text : List Char) (lexemes : List Lexeme) (after : List Char) :
    Prop :=
  dialect.lex (text ++ after) = (dialect.lex after).map (lexemes ++ ·)

namespace ReadsAs

variable {dialect : Dialect} {text other after : List Char} {lexeme : Lexeme}
  {lexemes others : List Lexeme}

theorem nil : ReadsAs dialect [] [] after := by
  rw [ReadsAs]
  simp

theorem of_next? (hnext : dialect.next? (text ++ after) = some (lexeme, after)) :
    ReadsAs dialect text [lexeme] after :=
  Dialect.lex_of_next? hnext

theorem append (hfirst : ReadsAs dialect text lexemes (other ++ after))
    (hlater : ReadsAs dialect other others after) :
    ReadsAs dialect (text ++ other) (lexemes ++ others) after := by
  rw [ReadsAs, List.append_assoc, hfirst, hlater, Option.map_map]
  simp [Function.comp_def]

end ReadsAs

namespace Token

variable {dialect : Dialect} {after : List Char}

theorem gapAhead_cons {character : Char} (hgap : character ∈ gaps) (rest : List Char) :
    GapAhead (character :: rest) := by
  rintro _ ⟨⟩
  exact hgap

theorem readsAs_blank {character : Char} (hblank : character.isWhitespace = true) :
    ReadsAs dialect [character] [.blank character] after :=
  .of_next? (Dialect.next?_blank hblank)

theorem readsAs_blanks (count : Nat) :
    ReadsAs dialect (List.replicate count ' ') (List.replicate count (.blank ' ')) after := by
  induction count with
  | zero => exact .nil
  | succ count ih =>
      have hblank : ' '.isWhitespace = true := rfl
      exact (readsAs_blank hblank).append ih

theorem readsAs_word {text : String} (hword : isWord text.toList = true) (hafter : GapAhead after) :
    ReadsAs dialect text.toList [.word text.toList] after :=
  .of_next? (Dialect.next?_word hword hafter)

theorem readsAs_number {text : String} (htext : Numeral text.toList) (hafter : GapAhead after) :
    ReadsAs dialect text.toList [.number text.toList] after :=
  .of_next? (Dialect.next?_number htext hafter)

/-- Two words with a blank between them are read one after the other. -/
theorem readsAs_words {first second : String} (hfirst : isWord first.toList = true)
    (hsecond : isWord second.toList = true) (hafter : GapAhead after) :
    ReadsAs dialect (first.toList ++ ' ' :: second.toList)
      [.word first.toList, .blank ' ', .word second.toList] after := by
  have hgap : GapAhead (' ' :: second.toList ++ after) := gapAhead_cons (by simp [gaps]) _
  have hblank : ' '.isWhitespace = true := rfl
  exact (readsAs_word hfirst hgap).append
    ((readsAs_blank hblank).append (readsAs_word hsecond hafter))

theorem readsAs_keyword (word : Keyword) (hafter : GapAhead after) :
    ReadsAs dialect word.text.toList word.lexemes after := by
  have hby : isWord "BY".toList = true := by simp [isWord, beginsWord, continuesWord]
  cases word with
  | ORDER_BY =>
      have horder : isWord "ORDER".toList = true := by simp [isWord, beginsWord, continuesWord]
      have hwords : ReadsAs dialect _ _ after := readsAs_words horder hby hafter
      simpa [Keyword.text, Keyword.lexemes] using hwords
  | PARTITION_BY =>
      have hpartition : isWord "PARTITION".toList = true := by
        simp [isWord, beginsWord, continuesWord]
      have hwords : ReadsAs dialect _ _ after := readsAs_words hpartition hby hafter
      simpa [Keyword.text, Keyword.lexemes] using hwords
  | _ => exact readsAs_word (by simp [Keyword.text, isWord, beginsWord, continuesWord]) hafter

/-- A truth value is read as a word or as a number, as the dialect writes it. -/
theorem readsAs_truth (value : Bool) (hafter : GapAhead after) :
    ReadsAs dialect (dialect.truthText value).toList [(Literal.bool value).lexeme dialect]
      after := by
  rw [Literal.lexeme]
  split
  · next hword =>
      refine readsAs_word ?_ hafter
      cases value <;> simp [Dialect.truthText, hword, isWord, beginsWord, continuesWord]
  · next hword =>
      refine readsAs_number (numeral_of_digits ?_) hafter
      cases value <;> simp [Dialect.truthText, hword, Digits]

theorem readsAs_literal (value : Literal) (hafter : GapAhead after) :
    ReadsAs dialect (value.render dialect).toList [value.lexeme dialect] after := by
  have hnull : isWord "NULL".toList = true := by simp [isWord, beginsWord, continuesWord]
  cases value with
  | null => exact readsAs_word hnull hafter
  | bool value => exact readsAs_truth value hafter
  | int value => exact readsAs_number (numeral_toString value) hafter
  | float value =>
      cases value with
      | none => exact readsAs_word hnull hafter
      | some value => exact readsAs_number (Decimal.Layout.numeral_render rfl value) hafter
  | string content =>
      refine .of_next? (Dialect.next?_quoteString content fun hquote => ?_)
      have hgap := hafter _ hquote
      simp [gaps] at hgap

/-- A name is read in front of a gap or a point. -/
theorem readsAs_identifier (name : String) (hafter : GapAhead after ∨ after.head? = some '.') :
    ReadsAs dialect (dialect.quoteIdentifier name).toList [.identifier name] after := by
  refine .of_next? (Dialect.next?_quoteIdentifier name fun hclosing => ?_)
  rcases hafter with hgap | hdot
  · have hmem := hgap _ hclosing
    cases dialect <;> simp [Dialect.closing, gaps] at hmem
  · rw [hclosing] at hdot
    cases dialect <;> simp [Dialect.closing] at hdot

/-- Only a gap may stand behind what neither ends by itself nor is a name. -/
theorem Admits.gapAhead {token : Token} (hadmits : token.Admits after)
    (hloose : token.isLoose = false) (hname : token.isName = false) : GapAhead after := by
  simpa [Admits, hloose, hname] using hadmits

/-- Behind a name there may also be a point. -/
theorem Admits.gapAhead_or_dot {token : Token} (hadmits : token.Admits after)
    (hloose : token.isLoose = false) : GapAhead after ∨ after.head? = some '.' := by
  have hends : GapAhead after ∨ token.isName = true ∧ after.head? = some '.' := by
    simpa [Admits, hloose] using hadmits
  exact hends.imp_right And.right

/-- A token is read as its units in front of a text that may stand behind it. -/
theorem readsAs (token : Token) (hworded : token.Worded) (hafter : token.Admits after) :
    ReadsAs dialect (token.render dialect).toList (token.lexemes dialect) after := by
  cases token with
  | blank =>
      have hblank : ReadsAs dialect [' '] [.blank ' '] after := readsAs_blank rfl
      simpa [render, lexemes] using hblank
  | newline =>
      have hblank : ReadsAs dialect ['\n'] [.blank '\n'] after := readsAs_blank rfl
      simpa [render, lexemes] using hblank
  | indent levels =>
      rw [render, String.toList_ofList]
      exact readsAs_blanks _
  | mark sign =>
      refine .of_next? (Dialect.next?_mark sign ?_)
      simpa [Admits, isLoose, isName] using hafter
  | keyword word => exact readsAs_keyword word (hafter.gapAhead rfl rfl)
  | function name => exact readsAs_word hworded (hafter.gapAhead rfl rfl)
  | literal value => exact readsAs_literal value (hafter.gapAhead rfl rfl)
  | identifier name => exact readsAs_identifier name (hafter.gapAhead_or_dot rfl)
  | qualified schema name =>
      have hname : ReadsAs dialect (dialect.quoteIdentifier name).toList [.identifier name]
          after := readsAs_identifier name (hafter.gapAhead_or_dot rfl)
      cases schema with
      | none => exact hname
      | some schema =>
          have hdot : ReadsAs dialect (Mark.text .dot).toList [.sign .dot]
              ((dialect.quoteIdentifier name).toList ++ after) :=
            .of_next? (Dialect.next?_mark .dot (.inl (by decide)))
          have hpoint : ((Mark.text .dot).toList ++
              ((dialect.quoteIdentifier name).toList ++ after)).head? = some '.' := by
            simp [Mark.text]
          have hrest := hdot.append hname
          rw [← List.append_assoc] at hpoint
          simpa [render, lexemes, Mark.text] using
            (readsAs_identifier schema (.inr hpoint)).append hrest

/-- A token that ends what stands before it begins with a gap. -/
theorem gapAhead_of_isGap {token : Token} (hgap : token.isGap = true) (rest : List Char) :
    GapAhead ((token.render dialect).toList ++ rest) := by
  cases token with
  | blank | newline =>
      simp [GapAhead, render, gaps]
  | mark sign =>
      cases sign <;> simp [isGap] at hgap <;> simp [GapAhead, render, Mark.text, gaps]
  | keyword | indent | identifier | qualified | literal | function => cases hgap

theorem admits_of_mayFollow {first second : Token} (hfollow : first.MayFollow second)
    (rest : List Char) : first.Admits ((second.render dialect).toList ++ rest) := by
  rcases hfollow with hloose | hgap | ⟨hname, rfl⟩
  · exact .inl hloose
  · exact .inr (.inl (gapAhead_of_isGap hgap rest))
  · exact .inr (.inr ⟨hname, by simp [render, Mark.text]⟩)

end Token

theorem render_cons (dialect : Dialect) (token : Token) (rest : List Token) :
    (render dialect (token :: rest)).toList =
      (token.render dialect).toList ++ (render dialect rest).toList := by
  simp [render]

/-- The text of tokens that may follow one another splits into their units, by induction from
the last token. -/
theorem lex_render {dialect : Dialect} {tokens : List Token}
    (hchain : tokens.IsChain Token.MayFollow) (hworded : ∀ token ∈ tokens, token.Worded) :
    dialect.lex (render dialect tokens).toList =
      some (tokens.flatMap (Token.lexemes dialect)) := by
  induction tokens with
  | nil => exact dialect.lex_nil
  | cons token rest ih =>
      obtain ⟨hnext, hrest⟩ := List.isChain_cons.mp hchain
      obtain ⟨hfirst, hothers⟩ := List.forall_mem_cons.mp hworded
      have hadmits : token.Admits (render dialect rest).toList := by
        cases rest with
        | nil => exact .inr (.inl fun _ hnone => nomatch hnone)
        | cons second others =>
            rw [render_cons]
            exact Token.admits_of_mayFollow (hnext second rfl) _
      rw [render_cons, token.readsAs hfirst hadmits, ih hrest hothers]
      rfl

end TreeQuery.Sql
