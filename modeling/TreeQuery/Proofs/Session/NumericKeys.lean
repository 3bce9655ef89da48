import TreeQuery.Proofs.Decimal.Layout
import TreeQuery.Proofs.Session.Junctions

/-!
# Children by numeric keys

A database compares numbers by their values: an integer and a double may be equal.
Children are picked by the text of their key, and texts tell integers and doubles apart.
So a child that came back for an equal key is held by a parent exactly if some parent has
an equal key of the same type, and of the same sign where the keys are zero.
-/

namespace TreeQuery

/-- The value of a double. -/
def Double.toRat (value : Double) : ℚ :=
  (if value.negative then -1 else 1) * (units value.rank / unitsPerOne)

/-- Doubles of one sign are known from their values. -/
theorem Double.eq_of_toRat {left right : Double} (hsign : left.negative = right.negative)
    (hvalue : left.toRat = right.toRat) : left = right := by
  have hone : (unitsPerOne : ℚ) ≠ 0 := by exact_mod_cast unitsPerOne_pos.ne'
  have hunits : (units left.rank : ℚ) = units right.rank := by
    have hfactor : (if right.negative then -1 else 1 : ℚ) ≠ 0 := by split <;> norm_num
    rw [toRat, toRat, hsign] at hvalue
    exact (div_left_inj' hone).mp (mul_left_cancel₀ hfactor hvalue)
  have hrank : left.rank = right.rank := units_strictMono.injective (by exact_mod_cast hunits)
  cases left
  cases right
  obtain rfl : _ = _ := hsign
  obtain rfl : _ = _ := hrank
  rfl

namespace Json

/-- The number that a value is to a database, if it is one. -/
def quantity? : Json → Option ℚ
  | .int value => some value
  | .float value => some value.toRat
  | _ => none

/-- Whether two values are numbers that a database takes for equal. -/
def SameNumber (left right : Json) : Prop :=
  ∃ quantity, left.quantity? = some quantity ∧ right.quantity? = some quantity

/-- Whether two numbers are integers, or doubles of one sign. -/
def SameType : Json → Json → Prop
  | .int _, .int _ => True
  | .float left, .float right => left.negative = right.negative
  | _, _ => False

variable {left right : Json}

/-- Equal numbers of one type are the same. -/
theorem eq_iff_sameNumber (hleft : left.quantity?.isSome = true) :
    left = right ↔ left.SameNumber right ∧ left.SameType right := by
  constructor
  · rintro rfl
    obtain ⟨quantity, hquantity⟩ := Option.isSome_iff_exists.mp hleft
    refine ⟨⟨quantity, hquantity, hquantity⟩, ?_⟩
    cases left with
    | int value => trivial
    | float value => rfl
    | _ => cases hquantity
  · rintro ⟨⟨quantity, hquantity, hsame⟩, htype⟩
    cases left with
    | int value =>
        cases right with
        | int other =>
            have hvalue : (value : ℚ) = other :=
              (Option.some.inj hquantity).trans (Option.some.inj hsame).symm
            rw [Int.cast_inj.mp hvalue]
        | _ => cases htype
    | float value =>
        cases right with
        | float other =>
            have hvalue : value.toRat = other.toRat :=
              (Option.some.inj hquantity).trans (Option.some.inj hsame).symm
            rw [Double.eq_of_toRat htype hvalue]
        | _ => cases htype
    | _ => cases hquantity

/-- Numbers are known from their texts. -/
theorem eq_of_compact (hleft : left.quantity?.isSome = true)
    (hright : right.quantity?.isSome = true) (hsame : left.compact = right.compact) :
    left = right := by
  cases left with
  | int value =>
      cases right with
      | int other => exact congrArg Json.int (Int.repr_injective hsame)
      | float other =>
          exact absurd hsame.symm (Decimal.Layout.render_ne_toString floatLayout other value)
      | _ => cases hright
  | float value =>
      cases right with
      | int other =>
          exact absurd hsame (Decimal.Layout.render_ne_toString floatLayout value other)
      | float other =>
          exact congrArg Json.float (Decimal.Layout.render_injective floatLayout hsame)
      | _ => cases hright
  | _ => cases hleft

end Json

namespace Session

open Catalog (Link Memo Schema)

variable {reader : Reader} {bucket child : Bucket} {start finish : State} {path : List String}
  {place : Path} {elements : List Element} {rows records children : List Record}
  {name column : String} {keys : List Json}

/-- A child is held: some row has a key by whose text the child is picked, and the list at
the site in the row's record has the child's entry. -/
def Held (rows records : List Record) (name : String) (site : List String) (column : String)
    (child : Record) (entry : Json) : Prop :=
  ∃ pair ∈ rows.zip records, ∃ value items, pair.1.get? name = some value ∧
    value.isNull = false ∧ hasKey column value.compact child = true ∧
    (Json.object pair.2).at? site = some (.array items) ∧ entry ∈ items

theorem hasKey_iff {record : Record} {key : Json} {text : String}
    (hkey : record.get? column = some key) (hnull : key.isNull = false) :
    hasKey column text record = true ↔ key.compact = text := by
  rw [hasKey, hkey, Option.bind_some, beq_iff_eq, keyText?_eq_some, and_iff_right hnull]

theorem isNull_of_quantity {key : Json} (hkey : key.quantity?.isSome = true) :
    key.isNull = false := by
  cases key with
  | null => cases hkey
  | _ => rfl

/-- A child with a numeric key is held exactly if its key is one of the parents' keys. -/
theorem held_iff_mem_keys {site : List String} {entry : Record → Json} {record : Record}
    {key : Json} (hkeys : KeysOf rows name keys)
    (hnumbers : ∀ parent ∈ keys, parent.quantity?.isSome = true)
    (hholds : HoldsByKey name site
      (fun text => (children.filter (hasKey column text)).map entry) rows records)
    (hrecord : record ∈ children) (hkey : record.get? column = some key)
    (hnumber : key.quantity?.isSome = true) :
    Held rows records name site column record (entry record) ↔ key ∈ keys := by
  have hnull := isNull_of_quantity hnumber
  constructor
  · rintro ⟨⟨row, parent⟩, hpair, value, items, hvalue, hvalueNull, hpicked, -, -⟩
    have hrow : row ∈ rows := (List.of_mem_zip hpair).1
    obtain ⟨found, hfound, htext⟩ := hkeys.complete row hrow value hvalue hvalueNull
    have hsame : found.compact = key.compact :=
      htext.trans ((hasKey_iff hkey hnull).mp hpicked).symm
    rwa [← Json.eq_of_compact (hnumbers found hfound) hnumber hsame]
  · intro hmem
    obtain ⟨-, row, hrow, hvalue⟩ := hkeys.sound key hmem
    obtain ⟨index, hindex, rfl⟩ := List.getElem_of_mem hrow
    have hlength := hholds.length_eq
    have hother : index < records.length := hlength ▸ hindex
    have hpicked : hasKey column key.compact record = true := (hasKey_iff hkey hnull).mpr rfl
    refine ⟨(rows[index], records[index]), ?_, key, _, hvalue, hnull, hpicked,
      hholds.get hindex hother key hvalue hnull, ?_⟩
    · rw [List.mem_iff_getElem]
      exact ⟨index, by simpa using ⟨hindex, hother⟩, by simp⟩
    · exact List.mem_map_of_mem (List.mem_filter.mpr ⟨hrecord, hpicked⟩)

/-- A row read for children shows its key in its record. -/
theorem ShowsRow.get?_key {row record : Record} {key : Json}
    (hshows : ShowsRow reader.schema (childrenBucket child column keys) row record)
    (hkey : row.get? column = some key) :
    record.get? column = some key := by
  have hasked : .item (.column column) ∈ (childrenBucket child column keys).elements :=
    mem_childrenBucket.mpr (.inr rfl)
  obtain ⟨value, hvalue, hshown⟩ := hshows [] _ _ column .here hasked
  rw [List.nil_append, Segments.join_singleton] at hvalue
  obtain rfl := Option.some.inj (hkey.symm.trans hvalue)
  rcases hshown with hshown | ⟨-, hnone⟩
  · rw [List.nil_append, Json.at?_cons] at hshown
    simpa [Json.at?] using hshown
  · cases hnone

/-- Children by numeric keys.  Where the keys of the parents are numbers, a child that came
back with a numeric key is held by a parent exactly if some parent's key is an equal number
of the same type.  A child whose key equals parents' keys of the other type alone, as a
database may return it, is dropped without an error. -/
theorem read_holds_child_iff (hreadable : Readable reader bucket)
    (hfaithful : Memo.Faithful reader.schema start.memo)
    (hreached : Reached reader.schema bucket.rootPath bucket.elements path place elements)
    (hchild : .bucket child ∈ elements) {source target : Address}
    (hlink : reader.schema.linkBetween place (place.child child.step) =
      .ok (some (.oneToMany source target)))
    {view : View} (hrun : Succeeds (reader.read bucket) start view finish) :
    ∃ rows records keys, view.data = records.map .object ∧
      Answered reader bucket start finish rows records ∧
      KeysOf rows (Segments.join (path ++ [source.name])) keys ∧
      (keys ≠ [] → ∃ answers children,
        FetchedWithin reader (childrenBucket child target.name keys) start finish answers
          children ∧
        ((∀ parent ∈ keys, parent.quantity?.isSome = true) →
          List.Forall₂ (fun answer record => ∀ key, answer.get? target.name = some key →
            key.quantity?.isSome = true →
            (Held rows records (Segments.join (path ++ [source.name]))
                (path ++ [child.outputName]) target.name record
                (.object (withoutKey (child.columns.contains target.name) target.name record)) ↔
              ∃ parent ∈ keys, parent.SameNumber key ∧ parent.SameType key))
            answers children)) := by
  obtain ⟨fetched, depth, hfetch, hview⟩ := read_succeeds hrun
  obtain ⟨rows, hanswered, -, hattached⟩ := fetch_attaches hreadable hfaithful hfetch
  have hdefers : Defers reader.schema bucket.rootPath [] bucket.elements
      ⟨path, child.outputName, .oneToMany source target, child⟩ :=
    Defers.of_reached hreached hchild hlink rfl
  obtain ⟨hvalues, smaller, attached, middle, later, hbefore, hchildren, hbehind, hholds⟩ :=
    hattached _ hdefers
  have hkeys := KeysOf.of_parentKeys rfl hvalues
  refine ⟨rows, fetched.records, _, hview, hanswered, hkeys, fun hsome => ?_⟩
  obtain ⟨children, hread, rfl⟩ := fetchChildren_oneToMany rfl hsome hchildren
  have hcolumn := ((Schema.linkBetween_ok hlink).plainNames hreadable.schema).2
  obtain ⟨answers, hchildAnswered, hcollapsed, -⟩ := fetch_attaches
    (hreadable.children hreached hchild hcolumn _) (hbefore.faithful hfaithful) hread
  have hheld := hholds fun hcollapses => childrenOfRows_collapsed (hcollapsed hcollapses)
  have hitems := funext fun text => of_childrenOfRows
    (child.columns.contains target.name) target.name text children.records
  rw [hitems] at hheld
  refine ⟨answers, children.records, ?_, fun hnumbers => ?_⟩
  · exact ⟨smaller, middle, children, later, hbefore, hread, rfl, hchildAnswered, hbehind⟩
  · have hshown := hchildAnswered.shown
    rw [List.forall₂_iff_zip]
    refine ⟨hshown.length_eq, fun {answer record} hpair key hkey hnumber => ?_⟩
    have hrecord : record ∈ children.records := (List.of_mem_zip hpair).2
    have hfound := (List.forall₂_zip hshown hpair).get?_key hkey
    apply (held_iff_mem_keys hkeys hnumbers hheld hrecord hfound hnumber).trans
    constructor
    · intro hmem
      exact ⟨key, hmem, (Json.eq_iff_sameNumber hnumber).mp rfl⟩
    · rintro ⟨parent, hmem, hsame⟩
      rwa [(Json.eq_iff_sameNumber (hnumbers parent hmem)).mpr hsame] at hmem

/-! ### An integer and a double -/

/-- The double of value one. -/
def oneDouble : Double := ⟨false, 1023 * 2 ^ 52, by decide⟩

theorem one_sameNumber : (Json.int 1).SameNumber (.float oneDouble) := by
  have hunits : Double.units oneDouble.rank = Double.unitsPerOne := by decide +kernel
  have hone : (Double.unitsPerOne : ℚ) ≠ 0 := by exact_mod_cast Double.unitsPerOne_pos.ne'
  refine ⟨1, by simp [Json.quantity?], ?_⟩
  rw [Json.quantity?, Double.toRat, hunits, div_self hone]
  simp [oneDouble]

/-- A book with its reviews. -/
def reviewedBook : Bucket where
  name := "book"
  elements := [.item (.column "title"), .bucket bookReviews]

/-- One book and two reviews of it, one of which has a double for its key. -/
def mixedAnswers : List String → List Record
  | ["title", "id"] => [[("id", .int 1), ("title", .string "Emma")]]
  | ["body", "book_id"] =>
      [[("body", .string "Witty"), ("book_id", .float oneDouble)],
        [("body", .string "Sharp"), ("book_id", .int 1)]]
  | _ => []

theorem mixedAnswers_rowOf (names : List String) :
    ∀ row ∈ mixedAnswers names, RowOf names row := by
  intro row hrow
  unfold mixedAnswers at hrow
  split at hrow
  · obtain rfl := List.mem_singleton.mp hrow
    exact ⟨by decide, fun name => List.Perm.mem_iff (by decide), by decide⟩
  · simp only [List.mem_cons, List.not_mem_nil, or_false] at hrow
    rcases hrow with rfl | rfl <;>
      exact ⟨by decide, fun name => List.Perm.mem_iff (by decide), by decide⟩
  · cases hrow

/-- A reader of these answers. -/
def mixedReader : Reader where
  schema := chapteredBooks
  connection := .ofNames mixedAnswers

/-- Both reviews come back for the key of the book, and one of them is in its list. -/
theorem mixedReader_drops_review :
    (∀ answer ∈ mixedAnswers ["body", "book_id"], ∃ key, answer.get? "book_id" = some key ∧
      (Json.int 1).SameNumber key) ∧
    ∃ view finish, Succeeds (mixedReader.read reviewedBook) {} view finish ∧
      view.data.map Json.compact =
        ["\x7b\"review\":[\x7b\"body\":\"Sharp\"\x7d],\"title\":\"Emma\"\x7d"] := by
  constructor
  · simp only [mixedAnswers, List.forall_mem_cons, List.not_mem_nil, IsEmpty.forall_iff,
      implies_true, and_true]
    exact ⟨⟨_, rfl, one_sameNumber⟩, ⟨_, rfl, 1, by simp [Json.quantity?], by simp [Json.quantity?]⟩⟩
  · exact Succeeds.of_toOption
      (show (Id.run ((mixedReader.read reviewedBook).run.run {})).1.toOption.map
        (fun view => view.data.map Json.compact) = some _ by decide +kernel)

theorem readable_reviewedBook : Readable mixedReader reviewedBook where
  extensions := rfl
  schema := by decide
  answers := Connection.answersByName_ofNames mixedAnswers_rowOf
  plain := by decide
  separate := by decide
  total := fun hasTotal => nomatch hasTotal

theorem read_holds_child_iff_reviewedBook :
    ∃ view finish, Succeeds (mixedReader.read reviewedBook) {} view finish ∧
      ∃ rows records keys, view.data = records.map .object ∧
        Answered mixedReader reviewedBook {} finish rows records ∧ KeysOf rows "id" keys ∧
        (keys ≠ [] → ∃ answers children,
          FetchedWithin mixedReader (childrenBucket bookReviews "book_id" keys) {} finish answers
            children ∧
          ((∀ parent ∈ keys, parent.quantity?.isSome = true) →
            List.Forall₂ (fun answer record => ∀ key, answer.get? "book_id" = some key →
              key.quantity?.isSome = true →
              (Held rows records "id" ["review"] "book_id" record
                  (.object (withoutKey false "book_id" record)) ↔
                ∃ parent ∈ keys, parent.SameNumber key ∧ parent.SameType key))
              answers children)) := by
  obtain ⟨view, finish, hrun, -⟩ := Succeeds.of_toOption
    (show (Id.run ((mixedReader.read reviewedBook).run.run {})).1.toOption.map
      (fun view => view.data.length) = some 1 by decide +kernel)
  have hfaithful : Memo.Faithful mixedReader.schema (State.memo {}) := .empty chapteredBooks
  exact ⟨view, finish, hrun, read_holds_child_iff readable_reviewedBook hfaithful .here
    (List.mem_cons_of_mem _ List.mem_cons_self) rfl hrun⟩

end Session

end TreeQuery
