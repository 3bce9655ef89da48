import TreeQuery.Proofs.Catalog.Faithful
import TreeQuery.Proofs.Catalog.Transparency

/-!
# Steady lookups

A lookup that asks the schema about keys that can be read back cannot tell one exact memory
from another.  What it gives once it gives always, and so does every lookup that is composed
of such lookups.
-/

namespace TreeQuery.Catalog

variable {schema : Schema} {memo after : Memo}

theorem Memo.Exact.faithful (hexact : Memo.Exact schema memo) : Memo.Faithful schema memo where
  tables path table hpath hknown := hexact.tables path table hpath.keyed hknown
  columns address column hpath hname hknown := by
    have hcolumn := hexact.columns address column ⟨hpath.keyed, hname.keyName⟩ hknown
    rw [Schema.columnRef?] at hcolumn
    split at hcolumn
    · next hlisted =>
        obtain ⟨table, htable, rfl⟩ := Option.map_eq_some_iff.mp hcolumn
        exact ⟨hlisted, htable, rfl, rfl⟩
    · cases hcolumn
  links source target link hsource htarget hknown :=
    hexact.links source target link hsource.keyed htarget.keyed hknown

namespace Schema

variable {ε ε' α β : Type}

/-- From every exact memory a lookup gives the value, and the memory stays exact. -/
def Gives (schema : Schema) (lookup : Lookup ε α) (value : α) : Prop :=
  ∀ memo, Memo.Exact schema memo →
    ∃ after, Succeeds lookup memo value after ∧ Memo.Exact schema after

/-- What a lookup gives from one exact memory it gives from all of them. -/
def Steady (schema : Schema) (lookup : Lookup ε α) : Prop :=
  ∀ memo value after, Memo.Exact schema memo → Succeeds lookup memo value after →
    Memo.Exact schema after ∧ schema.Gives lookup value

namespace Gives

variable {lookup first : Lookup ε α} {next : α → Lookup ε β} {value : α} {result : β}

theorem pure (value : α) : schema.Gives (pure value : Lookup ε α) value :=
  fun memo hexact => ⟨memo, Succeeds.pure_iff.mpr ⟨rfl, rfl⟩, hexact⟩

theorem liftExcept {outcome : Except ε α} (houtcome : outcome = .ok value) :
    schema.Gives (liftExcept outcome : Lookup ε α) value :=
  fun memo hexact => ⟨memo, Succeeds.liftExcept_iff.mpr ⟨houtcome, rfl⟩, hexact⟩

theorem bind (hfirst : schema.Gives first value) (hnext : schema.Gives (next value) result) :
    schema.Gives (first >>= next) result := by
  intro memo hexact
  obtain ⟨middle, hvalue, hmiddle⟩ := hfirst memo hexact
  obtain ⟨after, hresult, hafter⟩ := hnext middle hmiddle
  exact ⟨after, Succeeds.bind_iff.mpr ⟨value, middle, hvalue, hresult⟩, hafter⟩

theorem map (change : α → β) (hlookup : schema.Gives lookup value) :
    schema.Gives (change <$> lookup) (change value) := by
  rw [map_eq_pure_bind]
  exact hlookup.bind (pure (change value))

theorem adapt {reword : ε → ε'} (hlookup : schema.Gives lookup value) :
    schema.Gives (lookup.adapt reword) value := by
  intro memo hexact
  obtain ⟨after, hvalue, hafter⟩ := hlookup memo hexact
  exact ⟨after, Succeeds.adapt_iff.mpr hvalue, hafter⟩

/-- Whatever a lookup gives from an exact memory is what it always gives. -/
theorem eq_of_succeeds (hlookup : schema.Gives lookup value) {found : α}
    (hexact : Memo.Exact schema memo) (hrun : Succeeds lookup memo found after) :
    found = value ∧ Memo.Exact schema after := by
  obtain ⟨other, hvalue, hother⟩ := hlookup memo hexact
  obtain ⟨hsame, rfl⟩ := Prod.mk.inj (hrun.symm.trans hvalue)
  exact ⟨Except.ok.inj hsame, hother⟩

end Gives

/-- What is answered from memory and then goes on from the answer. -/
theorem Answers.gives {step : StateM Memo α} {answer : α} {next : α → Lookup ε β} {value : β}
    (hstep : schema.Answers step answer) (hnext : schema.Gives (next answer) value) :
    schema.Gives (liftM step >>= next) value := by
  intro memo hexact
  obtain ⟨middle, hanswer, hmiddle⟩ := hstep memo hexact
  obtain ⟨after, hvalue, hafter⟩ := hnext middle hmiddle
  exact ⟨after, Succeeds.bind_iff.mpr ⟨answer, middle, Succeeds.lift_iff.mpr hanswer, hvalue⟩,
    hafter⟩

namespace Steady

variable {lookup first : Lookup ε α} {next : α → Lookup ε β}

/-- A lookup with one outcome from all exact memories is steady. -/
theorem of_answers {outcome : Except ε α} (hlookup : schema.Answers lookup.run outcome) :
    schema.Steady lookup := by
  intro memo value after hexact hrun
  obtain ⟨other, hother, hafter⟩ := hlookup memo hexact
  obtain ⟨rfl, rfl⟩ := Prod.mk.inj (hother.symm.trans hrun)
  exact ⟨hafter, hlookup⟩

theorem pure (value : α) : schema.Steady (pure value : Lookup ε α) := by
  intro memo result after hexact hrun
  obtain ⟨rfl, rfl⟩ := Succeeds.pure_iff.mp hrun
  exact ⟨hexact, .pure value⟩

theorem throw (failure : ε) : schema.Steady (throw failure : Lookup ε α) :=
  fun _ _ _ _ hrun => absurd hrun Succeeds.not_throw

theorem liftExcept (outcome : Except ε α) : schema.Steady (liftExcept outcome : Lookup ε α) := by
  cases outcome with
  | error failure => exact throw failure
  | ok value => exact pure value

/-- What follows a steady lookup need only be steady for what the lookup can give. -/
theorem bind (hfirst : schema.Steady first)
    (hnext : ∀ value, schema.Gives first value → schema.Steady (next value)) :
    schema.Steady (first >>= next) := by
  intro memo result after hexact hrun
  obtain ⟨value, middle, hvalue, hresult⟩ := Succeeds.bind_iff.mp hrun
  obtain ⟨hmiddle, hgives⟩ := hfirst memo value middle hexact hvalue
  obtain ⟨hafter, hlater⟩ := hnext value hgives middle result after hmiddle hresult
  exact ⟨hafter, hgives.bind hlater⟩

theorem adapt {reword : ε → ε'} (hlookup : schema.Steady lookup) :
    schema.Steady (lookup.adapt reword) := by
  intro memo value after hexact hrun
  obtain ⟨hafter, hgives⟩ := hlookup memo value after hexact (Succeeds.adapt_iff.mp hrun)
  exact ⟨hafter, hgives.adapt⟩

end Steady

theorem Answers.steady {step : StateM Memo α} {answer : α} {next : α → Lookup ε β}
    (hstep : schema.Answers step answer) (hnext : schema.Steady (next answer)) :
    schema.Steady (liftM step >>= next) := by
  intro memo value after hexact hrun
  obtain ⟨middle, hmiddle, hvalue⟩ := hstep.succeeds hexact hrun
  obtain ⟨hafter, hgives⟩ := hnext middle value after hmiddle hvalue
  exact ⟨hafter, hstep.gives hgives⟩

/-! ## Tables, columns and links -/

theorem steady_table {path : Path} (hpath : path.Keyed) : schema.Steady (schema.table path) := by
  apply (answers_table? hpath).steady
  split
  · exact .pure _
  · exact .throw _

theorem steady_column {address : Address} (haddress : address.Keyed) :
    schema.Steady (schema.column address) := by
  apply (answers_column? haddress).steady
  split
  · exact .pure _
  · dsimp only
    split
    · exact .throw _
    · exact .throw _

theorem steady_link {source target : Path} (hsource : source.Keyed) (htarget : target.Keyed) :
    schema.Steady (schema.link source target) := by
  refine (Steady.of_answers (answers_link? hsource htarget)).bind fun found _ => ?_
  split
  · exact .pure _
  · exact .throw _

/-- A column that the schema has is found. -/
theorem gives_column {address : Address} {column : ResolvedColumn} (haddress : address.Keyed)
    (hcolumn : schema.columnRef? address = some column) :
    schema.Gives (schema.column address) column := by
  apply (answers_column? haddress).gives
  rw [hcolumn]
  exact .pure column

theorem gives_link {source target : Path} {link : Link} (hsource : source.Keyed)
    (htarget : target.Keyed) (hlink : schema.linkBetween source target = .ok (some link)) :
    schema.Gives (schema.link source target) link := by
  have hanswers : schema.Answers (schema.link? source target).run
      (schema.linkBetween source target) := answers_link? hsource htarget
  rw [hlink] at hanswers
  have hfound : schema.Gives (schema.link? source target) (some link) := hanswers
  exact hfound.bind (.pure link)

/-- A link that is found is the one between the paths. -/
theorem Gives.linkBetween {source target : Path} {link : Link} (hsource : source.Keyed)
    (htarget : target.Keyed) (hlink : schema.Gives (schema.link source target) link) :
    schema.linkBetween source target = .ok (some link) := by
  obtain ⟨after, hrun, -⟩ := hlink {} (.empty schema)
  exact (link_exact hsource htarget (.empty schema) hrun).1

end Schema

end TreeQuery.Catalog
