import TreeQuery.Proofs.Catalog.Answers
import TreeQuery.Proofs.SideBySide

/-!
# Lookups about one path

A lookup that asks about the table and the columns of one path, and about nothing else, cannot
tell two memories apart that give the same answers about it, and it leaves these answers as they
are.  So it may be run again after any number of such lookups, whatever else is remembered.
-/

namespace TreeQuery.Catalog

variable {schema : Schema} {path : Path} {base memo other after : Memo}

/-- Two memories give the same answers about a path. -/
structure Memo.Alike (schema : Schema) (path : Path) (memo other : Memo) : Prop where
  table : schema.tableAnswer? memo path = schema.tableAnswer? other path
  column : ∀ name, schema.columnAnswer? memo ⟨name, path⟩ = schema.columnAnswer? other ⟨name, path⟩

namespace Memo.Alike

theorem refl (memo : Memo) : Memo.Alike schema path memo memo := ⟨rfl, fun _ => rfl⟩

theorem symm (halike : Memo.Alike schema path memo other) : Memo.Alike schema path other memo :=
  ⟨halike.table.symm, fun name => (halike.column name).symm⟩

theorem trans (hfirst : Memo.Alike schema path memo other)
    (hsecond : Memo.Alike schema path other after) : Memo.Alike schema path memo after :=
  ⟨hfirst.table.trans hsecond.table, fun name => (hfirst.column name).trans (hsecond.column name)⟩

/-- Answers about the path are remembered as they are given. -/
theorem of_grows (hgrows : Memo.Grows schema (· = path) memo after) :
    Memo.Alike schema path memo after := by
  induction hgrows with
  | refl => exact refl memo
  | tail _ hlearns ih =>
      obtain ⟨htable, hcolumn⟩ := Schema.answers_learns hlearns
      exact ih.trans ⟨htable.symm, fun name => (hcolumn name).symm⟩

end Memo.Alike

/-- Two memories whose answers about a path are those of a third one. -/
def Memo.Share (schema : Schema) (path : Path) (base memo other : Memo) : Prop :=
  Memo.Alike schema path base memo ∧ Memo.Alike schema path base other

namespace Schema

variable {ε ε' α β : Type}

/-- A lookup has one outcome from all memories with the same answers about a path, and it leaves
these answers as they are. -/
def Confined (schema : Schema) (path : Path) (lookup : Lookup ε α) : Prop :=
  ∀ base memo other, Memo.Share schema path base memo other →
    EndsAlike (Memo.Share schema path base) (· = ·) lookup lookup memo other

namespace Confined

variable {lookup first : Lookup ε α} {next : α → Lookup ε β}

theorem pure (value : α) : schema.Confined path (pure value : Lookup ε α) :=
  fun _ _ _ hshare => .pure rfl hshare

theorem throw (failure : ε) : schema.Confined path (throw failure : Lookup ε α) :=
  fun _ _ _ hshare => .throw failure hshare

theorem liftExcept (outcome : Except ε α) :
    schema.Confined path (liftExcept outcome : Lookup ε α) := by
  cases outcome with
  | error failure => exact throw failure
  | ok value => exact pure value

theorem bind (hfirst : schema.Confined path first)
    (hnext : ∀ value, schema.Confined path (next value)) :
    schema.Confined path (first >>= next) := by
  intro base memo other hshare
  refine (hfirst base memo other hshare).bind ?_
  rintro value _ middle paused - - rfl hlater
  exact hnext value base middle paused hlater

theorem map {change : α → β} (hlookup : schema.Confined path lookup) :
    schema.Confined path (change <$> lookup) := by
  rw [map_eq_pure_bind]
  exact hlookup.bind fun _ => pure _

theorem adapt {reword : ε → ε'} (hlookup : schema.Confined path lookup) :
    schema.Confined path (lookup.adapt reword) :=
  fun base memo other hshare => (hlookup base memo other hshare).adapt

theorem forM {step : α → Lookup ε PUnit} {entries : List α}
    (hstep : ∀ entry, schema.Confined path (step entry)) :
    schema.Confined path (entries.forM step) := by
  induction entries with
  | nil => exact pure _
  | cons entry rest ih => exact (hstep entry).bind fun _ => ih

/-- What a lookup gives from a memory with the answers of another one it gives from that one. -/
theorem succeeds (hlookup : schema.Confined path lookup) {value : α}
    (halike : Memo.Alike schema path base memo) (hrun : Succeeds lookup memo value after) :
    Memo.Alike schema path base after ∧ ∃ later, Succeeds lookup base value later := by
  obtain ⟨houtcome, hafter, -⟩ := hlookup base memo base ⟨halike, .refl base⟩
  rw [show Id.run (lookup.run.run memo) = (.ok value, after) from hrun] at houtcome hafter
  refine ⟨hafter, ?_⟩
  cases hbase : Id.run (lookup.run.run base) with
  | mk outcome later =>
      rw [hbase] at houtcome
      cases houtcome with
      | ok hvalue => exact ⟨later, hvalue ▸ hbase⟩

end Confined

/-! ## Tables and columns -/

/-- What is answered from memory, and remembered as an answer about the path. -/
theorem confined_of_answers (answer : Memo → α) {step : StateM Memo α}
    {next : α → Lookup ε β}
    (hstep : ∀ memo, ∃ after, Id.run (step.run memo) = (answer memo, after) ∧
      Memo.Grows schema (· = path) memo after)
    (hanswer : ∀ memo other, Memo.Alike schema path memo other → answer memo = answer other)
    (hnext : ∀ value, schema.Confined path (next value)) :
    schema.Confined path (liftM step >>= next) := by
  refine Confined.bind (fun base memo other hshare => ?_) hnext
  obtain ⟨after, hrun, hgrows⟩ := hstep memo
  obtain ⟨later, htwin, hlater⟩ := hstep other
  constructor
  · change SameOutcome (· = ·) (.ok (Id.run (step.run memo)).1) (.ok (Id.run (step.run other)).1)
    rw [hrun, htwin]
    exact .ok (hanswer memo other (hshare.1.symm.trans hshare.2))
  · change Memo.Share schema path base (Id.run (step.run memo)).2 (Id.run (step.run other)).2
    rw [hrun, htwin]
    exact ⟨hshare.1.trans (.of_grows hgrows), hshare.2.trans (.of_grows hlater)⟩

theorem confined_table (schema : Schema) (path : Path) :
    schema.Confined path (schema.table path) := by
  refine confined_of_answers (fun memo => schema.tableAnswer? memo path) (fun memo => ?_)
    (fun _ _ halike => halike.table) fun answer => ?_
  · obtain ⟨after, hrun, hgrows, -, -⟩ := @table?_run (· = path) schema path rfl memo
    exact ⟨after, hrun, hgrows⟩
  · cases answer with
    | none => exact .throw _
    | some table => exact .pure table

theorem confined_column (schema : Schema) (path : Path) (name : String) :
    schema.Confined path (schema.column ⟨name, path⟩) := by
  refine confined_of_answers (fun memo => schema.columnAnswer? memo ⟨name, path⟩)
    (fun memo => ?_) (fun _ _ halike => halike.column name) fun answer => ?_
  · obtain ⟨after, hrun, hgrows, -⟩ := @column?_run (· = path) schema ⟨name, path⟩ rfl memo
    exact ⟨after, hrun, hgrows⟩
  · cases answer with
    | some column => exact .pure column
    | none =>
        dsimp only
        split
        · exact .throw _
        · exact .throw _

end Schema

end TreeQuery.Catalog
