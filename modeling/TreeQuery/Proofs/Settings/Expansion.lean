import TreeQuery.Proofs.Runs
import TreeQuery.Proofs.Spans
import TreeQuery.Settings.Variables

/-!
# What the variables of a text stand for

A text is read in one way only, as literal characters and references, and what stands behind
a piece has no part in it but for where a name ends.  The variables are looked up once the
pieces are known, so their values are never read for references.
-/

namespace TreeQuery.Settings

variable {environment : Variables}

/-! ## Reading -/

/-- How a text is read from left to right.  A name in braces goes up to the first closing
brace, or to the end of the text where there is none; a name without braces is as long as can
be, and a dollar sign before neither stands for itself. -/
inductive Reads : List Char → List Piece → Prop
  | done : Reads [] []
  | literal {character : Char} {rest : List Char} {found : List Piece}
      (hcharacter : character ≠ '$') (hrest : Reads rest found) :
      Reads (character :: rest) (.character character :: found)
  | braces {name rest : List Char} {found : List Piece} (hname : '\x7d' ∉ name)
      (hrest : Reads rest found) :
      Reads ('$' :: '\x7b' :: (name ++ '\x7d' :: rest))
        (.reference (String.ofList name) :: found)
  | openBraces {name : List Char} (hname : '\x7d' ∉ name) :
      Reads ('$' :: '\x7b' :: name) [.reference (String.ofList name)]
  | bare {name rest : List Char} {found : List Piece} (hne : name ≠ [])
      (hname : ∀ character ∈ name, isNameChar character = true)
      (hlongest : ∀ character ∈ rest.head?, isNameChar character = false)
      (hrest : Reads rest found) :
      Reads ('$' :: (name ++ rest)) (.reference (String.ofList name) :: found)
  | lone {rest : List Char} {found : List Piece}
      (hlone : ∀ character ∈ rest.head?, character ≠ '\x7b' ∧ isNameChar character = false)
      (hrest : Reads rest found) : Reads ('$' :: rest) (.character '$' :: found)

theorem isNameChar_brace : isNameChar '\x7b' = false := by decide +kernel

theorem forall_isInsideBraces {name : List Char} :
    (∀ character ∈ name, isInsideBraces character = true) ↔ '\x7d' ∉ name := by
  simp only [isInsideBraces, bne_iff_ne]
  exact ⟨fun hname hmem => hname _ hmem rfl, fun hname _ hmem hbrace => hname (hbrace ▸ hmem)⟩

theorem pieces_literal {character : Char} (hcharacter : character ≠ '$') (rest : List Char) :
    pieces (character :: rest) = .character character :: pieces rest := by
  rw [pieces]
  · exact fun _ hdollar _ => hcharacter hdollar
  · exact hcharacter

theorem pieces_braces {name : List Char} (hname : '\x7d' ∉ name) (rest : List Char) :
    pieces ('$' :: '\x7b' :: (name ++ '\x7d' :: rest)) =
      .reference (String.ofList name) :: pieces rest := by
  have hends : ∀ character ∈ ('\x7d' :: rest).head?, isInsideBraces character = false := by
    simp [isInsideBraces]
  obtain ⟨htake, hdrop⟩ := takeWhile_dropWhile (forall_isInsideBraces.mpr hname) hends
  rw [pieces, htake, hdrop]
  rfl

theorem pieces_openBraces {name : List Char} (hname : '\x7d' ∉ name) :
    pieces ('$' :: '\x7b' :: name) = [.reference (String.ofList name)] := by
  have hinside := forall_isInsideBraces.mpr hname
  rw [pieces, List.takeWhile_eq_self_iff.mpr hinside, List.dropWhile_eq_nil_iff.mpr hinside,
    List.drop_nil, pieces]

theorem pieces_bare {name rest : List Char} (hne : name ≠ [])
    (hname : ∀ character ∈ name, isNameChar character = true)
    (hlongest : ∀ character ∈ rest.head?, isNameChar character = false) :
    pieces ('$' :: (name ++ rest)) = .reference (String.ofList name) :: pieces rest := by
  obtain ⟨htake, hdrop⟩ := takeWhile_dropWhile hname hlongest
  rw [pieces, htake, hdrop]
  · simp [hne]
  · -- a name does not begin with a brace
    intro others hothers
    obtain ⟨first, behind, rfl⟩ := List.exists_cons_of_ne_nil hne
    have hfirst := hname first List.mem_cons_self
    rw [(List.cons.inj hothers).1, isNameChar_brace] at hfirst
    cases hfirst

theorem pieces_lone {rest : List Char}
    (hlone : ∀ character ∈ rest.head?, character ≠ '\x7b' ∧ isNameChar character = false) :
    pieces ('$' :: rest) = .character '$' :: pieces rest := by
  have hnone : rest.takeWhile isNameChar = [] := by
    cases rest with
    | nil => rfl
    | cons first behind => exact List.takeWhile_cons_of_neg (by simp [(hlone first rfl).2])
  rw [pieces, hnone]
  · rfl
  · rintro others rfl
    exact (hlone _ rfl).1 rfl

/-- Whatever way a text is read, its pieces come out. -/
theorem Reads.eq_pieces {text : List Char} {found : List Piece} (hreads : Reads text found) :
    found = pieces text := by
  induction hreads with
  | done => rw [pieces]
  | literal hcharacter _ ih => rw [pieces_literal hcharacter, ih]
  | braces hname _ ih => rw [pieces_braces hname, ih]
  | openBraces hname => rw [pieces_openBraces hname]
  | bare hne hname hlongest _ ih => rw [pieces_bare hne hname hlongest, ih]
  | lone hlone _ ih => rw [pieces_lone hlone, ih]

/-- One piece can be read off a text that begins with a dollar sign. -/
theorem exists_reads_dollar (rest : List Char) :
    ∃ piece after, after.length ≤ rest.length ∧
      ∀ found, Reads after found → Reads ('$' :: rest) (piece :: found) := by
  by_cases hbrace : ∃ behind, rest = '\x7b' :: behind
  · obtain ⟨behind, rfl⟩ := hbrace
    obtain ⟨name, after, rfl, hname, hafter⟩ := exists_span isInsideBraces behind
    rw [forall_isInsideBraces] at hname
    cases after with
    | nil =>
        refine ⟨.reference (String.ofList name), [], Nat.zero_le _, ?_⟩
        rintro _ ⟨⟩
        rw [List.append_nil]
        exact .openBraces hname
    | cons closing after =>
        obtain rfl : closing = '\x7d' := bne_eq_false_iff_eq.mp (hafter closing rfl)
        refine ⟨.reference (String.ofList name), after, ?_, fun found => .braces hname⟩
        simp only [List.length_cons, List.length_append]
        omega
  · obtain ⟨name, after, rfl, hname, hafter⟩ := exists_span isNameChar rest
    rcases eq_or_ne name [] with rfl | hne
    · refine ⟨.character '$', after, le_rfl, fun found => .lone fun first hfirst => ?_⟩
      refine ⟨?_, hafter first hfirst⟩
      rintro rfl
      exact hbrace ⟨after.tail, List.eq_cons_of_mem_head? hfirst⟩
    · refine ⟨.reference (String.ofList name), after, ?_, fun found => .bare hne hname hafter⟩
      simp only [List.length_append]
      omega

/-- Every text can be read. -/
theorem exists_reads (text : List Char) : ∃ found, Reads text found := by
  induction hlength : text.length using Nat.strong_induction_on generalizing text with
  | _ length ih =>
      subst hlength
      cases text with
      | nil => exact ⟨[], .done⟩
      | cons first rest =>
          by_cases hdollar : first = '$'
          · subst hdollar
            obtain ⟨piece, after, hshorter, hreads⟩ := exists_reads_dollar rest
            obtain ⟨found, hfound⟩ := ih after.length (Nat.lt_succ_of_le hshorter) after rfl
            exact ⟨piece :: found, hreads found hfound⟩
          · obtain ⟨found, hfound⟩ := ih rest.length (Nat.lt_succ_self _) rest rfl
            exact ⟨_, .literal hdollar hfound⟩

/-- A text is read in one way, which is how its pieces are found. -/
theorem reads_iff {text : List Char} {found : List Piece} :
    Reads text found ↔ found = pieces text := by
  constructor
  · exact Reads.eq_pieces
  · rintro rfl
    obtain ⟨found, hfound⟩ := exists_reads text
    exact hfound.eq_pieces ▸ hfound

/-! ## Looking up -/

/-- A variable has a value. -/
def IsSet (environment : Variables) (name : String) : Prop :=
  ∃ value, List.lookup name environment = some value

/-- What a piece stands for, if that is known. -/
def Piece.value? (environment : Variables) : Piece → Option String
  | .character letter => some letter.toString
  | .reference name => List.lookup name environment

/-- The values of pieces, each of which stands for something. -/
def Values (environment : Variables) : List Piece → List String → Prop :=
  List.Forall₂ fun piece value => piece.value? environment = some value

/-- The first reference to a variable without a value. -/
def FirstUnset (environment : Variables) (found : List Piece) (name : String) : Prop :=
  ∃ before after, found = before ++ .reference name :: after ∧ ¬ IsSet environment name ∧
    ∀ other, .reference other ∈ before → IsSet environment other

/-- Pieces have values exactly when the variables they refer to are set. -/
theorem exists_values_iff {found : List Piece} :
    (∃ values, Values environment found values) ↔
      ∀ name, .reference name ∈ found → IsSet environment name := by
  induction found with
  | nil => simpa using ⟨[], .nil⟩
  | cons piece rest ih =>
      constructor
      · rintro ⟨_, _ | ⟨hvalue, hvalues⟩⟩ name hname
        rcases List.mem_cons.mp hname with rfl | hrest
        · exact ⟨_, hvalue⟩
        · exact ih.mp ⟨_, hvalues⟩ name hrest
      · intro hset
        obtain ⟨values, hvalues⟩ := ih.mpr fun name hname =>
          hset name (List.mem_cons_of_mem _ hname)
        cases piece with
        | character letter => exact ⟨_, .cons rfl hvalues⟩
        | reference name =>
            obtain ⟨value, hvalue⟩ := hset name List.mem_cons_self
            exact ⟨_, .cons hvalue hvalues⟩

/-- Some variable is the first one without a value, unless all pieces have values. -/
theorem exists_firstUnset {found : List Piece}
    (hunset : ¬ ∀ name, .reference name ∈ found → IsSet environment name) :
    ∃ name, FirstUnset environment found name := by
  induction found with
  | nil => simp at hunset
  | cons piece rest ih =>
      by_cases hpiece : ∀ name, piece = .reference name → IsSet environment name
      · obtain ⟨name, before, after, rfl, hname, hbefore⟩ := ih fun hrest => hunset fun name hmem =>
          (List.mem_cons.mp hmem).elim (fun hsame => hpiece name hsame.symm) (hrest name)
        refine ⟨name, piece :: before, after, rfl, hname, fun other hmem => ?_⟩
        rcases List.mem_cons.mp hmem with hsame | hmem
        · exact hpiece other hsame.symm
        · exact hbefore other hmem
      · push Not at hpiece
        obtain ⟨name, rfl, hname⟩ := hpiece
        exact ⟨name, [], rest, rfl, hname, by simp⟩

/-- The value of the first piece goes in front. -/
theorem substitute_cons {piece : Piece} {value : String}
    (hvalue : piece.value? environment = some value) (rest : List Piece) :
    substitute environment (piece :: rest) = (substitute environment rest).map (value ++ ·) := by
  cases piece with
  | character letter =>
      obtain rfl := Option.some.inj hvalue
      rw [substitute]
      cases substitute environment rest <;> rfl
  | reference name =>
      have hlookup : List.lookup name environment = some value := hvalue
      rw [substitute, hlookup]
      cases substitute environment rest <;> rfl

/-- The values of pieces go in front of what becomes of the pieces behind them. -/
theorem substitute_append {found : List Piece} {values : List String}
    (hvalues : Values environment found values) (rest : List Piece) :
    substitute environment (found ++ rest) =
      (substitute environment rest).map (String.join values ++ ·) := by
  induction hvalues with
  | nil => cases h : substitute environment rest <;> simp [h, Except.map]
  | @cons piece value found values hvalue _ ih =>
      rw [List.cons_append, substitute_cons hvalue, ih]
      cases substitute environment rest <;> simp [Except.map, String.append_assoc]

theorem substitute_of_values {found : List Piece} {values : List String}
    (hvalues : Values environment found values) :
    substitute environment found = .ok (String.join values) := by
  have hall := substitute_append hvalues []
  rw [List.append_nil, substitute] at hall
  simpa [Except.map] using hall

theorem substitute_of_firstUnset {found : List Piece} {name : String}
    (hunset : FirstUnset environment found name) :
    substitute environment found = .error name := by
  obtain ⟨before, after, rfl, hname, hbefore⟩ := hunset
  obtain ⟨values, hvalues⟩ := exists_values_iff.mpr hbefore
  have hlookup : List.lookup name environment = none := by
    rw [Option.eq_none_iff_forall_ne_some]
    exact fun value hvalue => hname ⟨value, hvalue⟩
  rw [substitute_append hvalues, substitute, hlookup]
  rfl

/-- Every text is read in one way.  It is expanded exactly when all variables it refers to are
set, to its literal characters and their values in order; otherwise the first variable
that is not set is named. -/
theorem expand_reads (environment : Variables) (text : String) :
    ∃ found, (∀ other, Reads text.toList other ↔ other = found) ∧
      ((∃ result, expand environment text = .ok result) ↔
        ∀ name, .reference name ∈ found → IsSet environment name) ∧
      (∀ result, expand environment text = .ok result →
        ∃ values, Values environment found values ∧ result = String.join values) ∧
      ∀ name, expand environment text = .error name ↔ FirstUnset environment found name := by
  refine ⟨pieces text.toList, fun other => reads_iff, ?_⟩
  rw [expand]
  by_cases hset : ∀ name, .reference name ∈ pieces text.toList → IsSet environment name
  · obtain ⟨values, hvalues⟩ := exists_values_iff.mpr hset
    rw [substitute_of_values hvalues]
    refine ⟨iff_of_true ⟨_, rfl⟩ hset, fun result hresult => ?_, fun name => ?_⟩
    · exact ⟨values, hvalues, (Except.ok.inj hresult).symm⟩
    · refine iff_of_false nofun ?_
      rintro ⟨before, after, hfound, hname, -⟩
      exact hname (hset name (by simp [hfound]))
  · obtain ⟨unset, hunset⟩ := exists_firstUnset hset
    have hfails := substitute_of_firstUnset hunset
    rw [hfails]
    refine ⟨iff_of_false nofun hset, nofun, fun name => ⟨?_, fun hfirst => ?_⟩⟩
    · intro hname
      exact Except.error.inj hname ▸ hunset
    · exact hfails.symm.trans (substitute_of_firstUnset hfirst)

end TreeQuery.Settings
