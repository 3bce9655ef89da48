import TreeQuery.Proofs.Plan.KeyBlind
import TreeQuery.Proofs.Session.Attachment
import TreeQuery.Proofs.Session.Calls

/-!
# Which reads are rejected

Whether a read is rejected does not depend on the rows that come back, as long as they
do not change which nested buckets are asked for.  A bucket that is read later is
prepared and planned only once a parent has come back with a key; until then nothing in
it is looked at.
-/

namespace TreeQuery.Session

open Catalog (Link Memo Schema)

/-- A connection that answers every statement. -/
def Connection.Answers (connection : Connection) : Prop :=
  ∀ history statement, ∃ outcome, connection.execute history statement = .ok outcome

/-- The reader over another connection. -/
def Reader.over (reader : Reader) (connection : Connection) : Reader :=
  { reader with connection }

/-! ## What is asked for -/

/-- The bucket that reads a deferred bucket for the keys of its parents. -/
def Deferred.bucket? (deferred : Deferred) (keys : List Json) : Option Bucket :=
  match deferred.link with
  | .manyToOne _ _ => none
  | .oneToMany _ target => some (childrenBucket deferred.child target.name keys)
  | .manyToMany _ interimSource interimTarget target =>
      some (junctionBucket deferred.child deferred.field interimSource.path.tableName
        interimSource.name interimTarget.name target.name keys)

/-- For each bucket that is read later, in order: nothing when it is not asked for, and
otherwise what is asked for below it.  The list ends with the first one that fails. -/
inductive Asked where
  | of (children : List (Option Asked))

/-- What is asked for among deferred buckets, given what is asked for by a bucket. -/
def askedAmong (asked : Bucket → State → Asked) (read : Bucket → Run Fetched)
    (records : List Record) : List Deferred → State → List (Option Asked)
  | [], _ => []
  | deferred :: rest, state =>
      let keys := parentKeys records deferred.path deferred.link.source.name
      let child := if keys.isEmpty then none else (deferred.bucket? keys).map (asked · state)
      child :: match Id.run ((Reader.fetchChildren read records deferred).run.run state) with
        | (.ok _, later) => askedAmong asked read records rest later
        | (.error _, _) => []

namespace Reader

/-- The records of a bucket, and what was found when it was prepared. -/
def fetchRecords (reader : Reader) (bucket : Bucket) : Run (Findings × List Record) := do
  let (prepared, findings) ← planning (prepare reader.schema bucket.rootPath [] {} bucket)
  let rows ← reader.fetchRows bucket.name prepared
  return (findings, (reader.takeTotal prepared rows).1.map Record.unflatten)

/-- What a fetch asks for later. -/
def asked (reader : Reader) : Nat → Bucket → State → Asked
  | 0, _, _ => .of []
  | depth + 1, bucket, state =>
      match Id.run ((reader.fetchRecords bucket).run.run state) with
      | (.ok (findings, records), later) =>
          .of (askedAmong (reader.asked depth) (reader.fetch depth) records findings.deferred later)
      | (.error _, _) => .of []

end Reader

/-! ## Preparing -/

/-- Elements prepared up to keys, with the same findings. -/
def PreparedAlike (found twin : List Element × Findings) : Prop :=
  List.Forall₂ Element.UpToKeys found.1 twin.1 ∧ found.2 = twin.2

theorem prepend_alike {lookup other : Catalog.Lookup Failure (List Element × Findings)}
    {memo : Memo} (halike : EndsAlike (· = ·) PreparedAlike lookup other memo memo)
    {front twin : List Element} (hfront : List.Forall₂ Element.UpToKeys front twin) :
    EndsAlike (· = ·) PreparedAlike
      (do let found ← lookup; return (front ++ found.1, found.2))
      (do let found ← other; return (twin ++ found.1, found.2)) memo memo := by
  refine halike.bind ?_
  rintro found foundTwin middle _ - - ⟨hfound, hfindings⟩ rfl
  exact .pure ⟨List.rel_append hfront hfound, hfindings⟩ rfl

theorem prepareElements_alike {schema : Schema} {place : Path} {path requested : List String}
    {elements others : List Element} (helements : List.Forall₂ Element.UpToKeys elements others) :
    ∀ findings memo, EndsAlike (· = ·) PreparedAlike
      (prepareElements schema place path requested findings elements)
      (prepareElements schema place path requested findings others) memo memo := by
  induction helements with
  | nil =>
      intro findings memo
      rw [prepareElements]
      exact .pure ⟨.nil, rfl⟩ rfl
  | @cons element twin rest restTwin helement hrest ih =>
      intro findings memo
      have hkept := prepend_alike (ih findings memo) (.cons helement .nil)
      cases helement with
      | clause hexpression => exact hkept
      | same _ =>
          cases element with
          | bucket child =>
              rw [prepareElements, prepareElements]
              refine .bind_same fun link middle => ?_
              split
              · exact prepend_alike (ih _ middle) (List.forall₂_same.mpr fun key _ => .same key)
              · refine .bind_same fun prepared last => ?_
                exact prepend_alike (ih prepared.2 last) (.cons (.same _) .nil)
          | item item => exact hkept
          | clause expression => exact hkept
          | slice slice => exact hkept
          | total => exact hkept
          | beacon beacon => exact hkept

theorem prepare_alike {schema : Schema} {place : Path} {path : List String} {findings : Findings}
    {bucket twin : Bucket} (htwins : bucket.UpToKeys twin) (memo : Memo) :
    EndsAlike (· = ·) (fun found other => found.1.UpToKeys other.1 ∧ found.2 = other.2)
      (prepare schema place path findings bucket) (prepare schema place path findings twin)
      memo memo := by
  have hcolumns := htwins.columns_eq
  have hstep := htwins.step
  have helements := htwins.elements
  obtain ⟨name, qualifier, label, elements⟩ := bucket
  obtain ⟨name', qualifier', label', others⟩ := twin
  obtain ⟨rfl, rfl, rfl⟩ : name = name' ∧ qualifier = qualifier' ∧ label = label' := by
    simpa [Bucket.step] using hstep
  rw [prepare, prepare, show elements.filterMap ElementOf.column? =
    others.filterMap ElementOf.column? from hcolumns]
  refine (prepareElements_alike helements findings memo).bind ?_
  rintro ⟨prepared, after⟩ ⟨preparedTwin, _⟩ middle _ - - ⟨hprepared, rfl⟩ rfl
  exact .pure ⟨⟨rfl, hprepared⟩, rfl⟩ rfl

/-! ## Fetching -/

/-- Two states that remember the same. -/
def SameMemo (state other : State) : Prop :=
  state.memo = other.memo

theorem planning_alike {α : Type} {related : α → α → Prop} {lookup other : Catalog.Lookup Failure α}
    {start begun : State} (hmemo : SameMemo start begun)
    (halike : ∀ memo, EndsAlike (· = ·) related lookup other memo memo) :
    EndsAlike SameMemo related (planning lookup) (planning other) start begun := by
  have hlookup := halike start.memo
  constructor
  · change SameOutcome related (lookup.run.run start.memo).1 (other.run.run begun.memo).1
    rw [← show start.memo = begun.memo from hmemo]
    exact hlookup.outcome
  · change (lookup.run.run start.memo).2 = (other.run.run begun.memo).2
    rw [← show start.memo = begun.memo from hmemo]
    exact hlookup.state

theorem callExecute_alike {connection other : Connection} (hanswers : connection.Answers)
    (hother : other.Answers) (statement twin : Sql.Statement) {start begun : State}
    (hmemo : SameMemo start begun) :
    EndsAlike SameMemo (fun _ _ => True) (connection.callExecute statement)
      (other.callExecute twin) start begun := by
  obtain ⟨outcome, houtcome⟩ := hanswers start.history statement
  obtain ⟨outcomeTwin, houtcomeTwin⟩ := hother begun.history twin
  have hcall := (Makes.record (.execute statement)
    (fun history => connection.execute history statement) start).run
  have hcallTwin := (Makes.record (.execute twin)
    (fun history => other.execute history twin) begun).run
  rw [houtcome] at hcall
  rw [houtcomeTwin] at hcallTwin
  constructor
  · rw [Connection.callExecute, Connection.callExecute, hcall, hcallTwin]
    exact .ok trivial
  · rw [Connection.callExecute, Connection.callExecute, hcall, hcallTwin]
    exact hmemo

section

variable {reader : Reader} {other : Connection}

theorem fetchRows_alike (hextensions : reader.extensions = []) (hanswers : reader.connection.Answers)
    (hother : other.Answers) {bucket twin : Bucket} (htwins : bucket.UpToKeys twin) (name : String)
    {start begun : State} (hmemo : SameMemo start begun) :
    EndsAlike SameMemo (fun _ _ => True) (reader.fetchRows name bucket)
      ((reader.over other).fetchRows name twin) start begun := by
  have hplanner : (reader.over other).planner = reader.planner := rfl
  rw [Reader.fetchRows, Reader.fetchRows, hplanner]
  have hnone : reader.planner.extensions = [] := hextensions
  refine (planning_alike hmemo fun memo => Plan.Planner.build_alike hnone htwins memo).bind ?_
  rintro statement statementTwin middle paused - - hkind hmemo
  cases statement <;> cases statementTwin <;> try cases hkind
  · refine (callExecute_alike hanswers hother _ _ hmemo).bind ?_
    exact fun _ _ _ _ _ _ _ hmemo => .pure trivial hmemo
  · exact .throw _ hmemo
  · exact .throw _ hmemo
  · exact .throw _ hmemo

theorem Reader.asked_of_fetchRecords {depth : Nat} {bucket : Bucket} {start later : State}
    {findings : Findings} {records : List Record}
    (hrun : Succeeds (reader.fetchRecords bucket) start (findings, records) later) :
    reader.asked (depth + 1) bucket start =
      .of (askedAmong (reader.asked depth) (reader.fetch depth) records findings.deferred
        later) := by
  rw [Reader.asked, hrun]

theorem keyClause_upToKeys (column : String) (keys others : List Json) :
    Element.UpToKeys (keyClause column keys) (keyClause column others) :=
  .clause (.cons (.keys column keys others) .nil)

theorem forall₂_upToKeys_refl (elements : List Element) :
    List.Forall₂ Element.UpToKeys elements elements :=
  List.forall₂_same.mpr fun element _ => .same element

theorem childrenBucket_upToKeys (child : Bucket) (column : String) (keys others : List Json) :
    (childrenBucket child column keys).UpToKeys (childrenBucket child column others) :=
  ⟨rfl, List.rel_append (forall₂_upToKeys_refl _)
    (.cons (keyClause_upToKeys column keys others) .nil)⟩

theorem junctionBucket_upToKeys (child : Bucket)
    (field interim keyColumn targetKey targetColumn : String) (keys others : List Json) :
    (junctionBucket child field interim keyColumn targetKey targetColumn keys).UpToKeys
      (junctionBucket child field interim keyColumn targetKey targetColumn others) :=
  ⟨rfl, .cons (.same _) (.cons (keyClause_upToKeys keyColumn keys others)
    (.cons (.same _) (forall₂_upToKeys_refl _)))⟩

theorem isSome_bucket? (deferred : Deferred) (keys others : List Json) :
    (deferred.bucket? keys).isSome = (deferred.bucket? others).isSome := by
  unfold Deferred.bucket?
  cases deferred.link <;> rfl

/-- Children are fetched alike when they are asked for on both sides or on neither, and the
buckets that read them are fetched alike. -/
theorem fetchChildren_alike {read readTwin : Bucket → Run Fetched}
    {records recordsTwin : List Record} {deferred : Deferred} {keys keysTwin : List Json}
    (hkeys : parentKeys records deferred.path deferred.link.source.name = keys)
    (hkeysTwin : parentKeys recordsTwin deferred.path deferred.link.source.name = keysTwin)
    {start begun : State} (hmemo : SameMemo start begun)
    (hempty : (deferred.bucket? keys).isSome → keys.isEmpty = keysTwin.isEmpty)
    (hread : ∀ child twin, keys.isEmpty = false → keysTwin.isEmpty = false →
      deferred.bucket? keys = some child → deferred.bucket? keysTwin = some twin →
        child.UpToKeys twin →
          EndsAlike SameMemo (fun _ _ => True) (read child) (readTwin twin) start begun) :
    EndsAlike SameMemo (fun _ _ => True) (Reader.fetchChildren read records deferred)
      (Reader.fetchChildren readTwin recordsTwin deferred) start begun := by
  rw [Reader.fetchChildren, Reader.fetchChildren, hkeys, hkeysTwin]
  unfold Deferred.bucket? at hempty hread
  cases hlink : deferred.link with
  | manyToOne source target =>
      cases keys.isEmpty <;> cases keysTwin.isEmpty <;> exact .pure trivial hmemo
  | oneToMany source target =>
      rw [hlink] at hempty hread
      have hsame := hempty rfl
      rw [← hsame] at hread ⊢
      cases hnone : keys.isEmpty with
      | true => exact .pure trivial hmemo
      | false =>
          refine (hread _ _ hnone hnone rfl rfl (childrenBucket_upToKeys ..)).bind ?_
          exact fun _ _ _ _ _ _ _ hmemo => .pure trivial hmemo
  | manyToMany source interimSource interimTarget target =>
      rw [hlink] at hempty hread
      have hsame := hempty rfl
      rw [← hsame] at hread ⊢
      cases hnone : keys.isEmpty with
      | true => exact .pure trivial hmemo
      | false =>
          refine (hread _ _ hnone hnone rfl rfl (junctionBucket_upToKeys ..)).bind ?_
          exact fun _ _ _ _ _ _ _ hmemo => .pure trivial hmemo

/-- Deferred buckets are fetched alike when the same is asked for among them. -/
theorem fetchAll_alike {asked askedTwin : Bucket → State → Asked}
    {read readTwin : Bucket → Run Fetched} {records recordsTwin : List Record}
    (hread : ∀ {child twin : Bucket} {start begun : State}, child.UpToKeys twin →
      SameMemo start begun → asked child start = askedTwin twin begun →
        EndsAlike SameMemo (fun _ _ => True) (read child) (readTwin twin) start begun) :
    ∀ {deferred : List Deferred} {start begun : State}, SameMemo start begun →
      askedAmong asked read records deferred start =
        askedAmong askedTwin readTwin recordsTwin deferred begun →
      EndsAlike SameMemo (fun _ _ => True)
        (deferred.mapM (Reader.fetchChildren read records))
        (deferred.mapM (Reader.fetchChildren readTwin recordsTwin)) start begun
  | [], start, begun, hmemo, _ => by
      rw [List.mapM_nil, List.mapM_nil]
      exact .pure trivial hmemo
  | deferred :: rest, start, begun, hmemo, hasked => by
      rw [askedAmong, askedAmong] at hasked
      obtain ⟨hfirst, hrest⟩ := List.cons.inj hasked
      have hchild : EndsAlike SameMemo (fun _ _ => True)
          (Reader.fetchChildren read records deferred)
          (Reader.fetchChildren readTwin recordsTwin deferred) start begun := by
        refine fetchChildren_alike rfl rfl hmemo (fun hsome => ?_)
          fun child twin hkeys hkeysTwin hbucket hbucketTwin htwins => hread htwins hmemo ?_
        · -- a side without keys asks for nothing, the other side would ask for the bucket
          have hsomeTwin := (isSome_bucket? deferred
            (parentKeys recordsTwin deferred.path deferred.link.source.name) _).trans hsome
          obtain ⟨child, hchild⟩ := Option.isSome_iff_exists.mp hsome
          obtain ⟨twin, htwin⟩ := Option.isSome_iff_exists.mp hsomeTwin
          rw [hchild, htwin] at hfirst
          cases hkeys : (parentKeys records deferred.path deferred.link.source.name).isEmpty <;>
            cases hkeysTwin :
              (parentKeys recordsTwin deferred.path deferred.link.source.name).isEmpty <;>
            simp [hkeys, hkeysTwin] at hfirst ⊢
        · rw [hkeys, hkeysTwin, hbucket, hbucketTwin] at hfirst
          exact Option.some.inj hfirst
      rw [List.mapM_cons, List.mapM_cons]
      refine hchild.bind ?_
      intro children childrenTwin middle paused hrun hrunTwin _ hmemo
      rw [hrun, hrunTwin] at hrest
      refine (fetchAll_alike hread hmemo hrest).bind ?_
      exact fun _ _ _ _ _ _ _ hmemo => .pure trivial hmemo

/-- A bucket is fetched alike over two connections when the same is asked for. -/
theorem fetch_alike (hextensions : reader.extensions = []) (hanswers : reader.connection.Answers)
    (hother : other.Answers) : ∀ {depth : Nat} {bucket twin : Bucket} {start begun : State},
    bucket.UpToKeys twin → SameMemo start begun →
      reader.asked depth bucket start = (reader.over other).asked depth twin begun →
        EndsAlike SameMemo (fun _ _ => True) (reader.fetch depth bucket)
          ((reader.over other).fetch depth twin) start begun
  | 0, bucket, twin, start, begun, _, hmemo, _ => .throw _ hmemo
  | depth + 1, bucket, twin, start, begun, htwins, hmemo, hasked => by
      have hschema : (reader.over other).schema = reader.schema := rfl
      rw [Reader.fetch, Reader.fetch, hschema, ← htwins.rootPath_eq, ← htwins.name_eq]
      refine (planning_alike hmemo fun memo => prepare_alike htwins memo).bind ?_
      rintro ⟨prepared, findings⟩ ⟨preparedTwin, _⟩ first firstTwin hprepare hprepareTwin
        ⟨hprepared, rfl⟩ hmemo
      refine (fetchRows_alike hextensions hanswers hother hprepared bucket.name hmemo).bind ?_
      intro rows rowsTwin second secondTwin hrows hrowsTwin _ hmemo
      have hrecords : Succeeds (reader.fetchRecords bucket) start
          (findings, (reader.takeTotal prepared rows).1.map Record.unflatten) second :=
        Succeeds.bind_iff.mpr ⟨_, _, hprepare, Succeeds.bind_iff.mpr ⟨_, _, hrows, rfl⟩⟩
      have hrecordsTwin : Succeeds ((reader.over other).fetchRecords twin) begun
          (findings, ((reader.over other).takeTotal preparedTwin rowsTwin).1.map
            Record.unflatten) secondTwin := by
        refine Succeeds.bind_iff.mpr ⟨(preparedTwin, findings), firstTwin, ?_,
          Succeeds.bind_iff.mpr ⟨rowsTwin, secondTwin, ?_, rfl⟩⟩
        · rw [hschema, ← htwins.rootPath_eq]
          exact hprepareTwin
        · rw [← htwins.name_eq]
          exact hrowsTwin
      rw [Reader.asked_of_fetchRecords hrecords, Reader.asked_of_fetchRecords hrecordsTwin] at hasked
      refine (fetchAll_alike (fetch_alike hextensions hanswers hother) hmemo
        (Asked.of.inj hasked)).bind ?_
      intro children childrenTwin third thirdTwin _ _ _ hmemo
      have hextensionsTwin : (reader.over other).extensions = [] := hextensions
      rw [report_of_none hextensions, report_of_none hextensionsTwin]
      exact .pure trivial hmemo

end

/-! ## Rejected reads -/

/-- The read fails, and the request itself is at fault. -/
def Reader.Rejects (reader : Reader) (bucket : Bucket) (start : State) : Prop :=
  ∃ failure : Failure, failure.isRequestError = true ∧
    (Id.run ((reader.read bucket).run.run start)).1 = .error failure

/-- Over two connections that answer every statement, a read is rejected on both or on neither,
as long as the same nested buckets are asked for. -/
theorem read_rejects_iff {reader : Reader} {other : Connection} {bucket : Bucket}
    {start begun : State} (hextensions : reader.extensions = [])
    (hanswers : reader.connection.Answers) (hother : other.Answers)
    (hmemo : start.memo = begun.memo)
    (hasked : reader.asked (2 * nestingDepth bucket) bucket start =
      (reader.over other).asked (2 * nestingDepth bucket) bucket begun) :
    reader.Rejects bucket start ↔ (reader.over other).Rejects bucket begun := by
  have hfetch := fetch_alike hextensions hanswers hother (.refl bucket) hmemo hasked
  have hread : EndsAlike SameMemo (fun _ _ => True) (reader.read bucket)
      ((reader.over other).read bucket) start begun :=
    hfetch.bind fun _ _ _ _ _ _ _ hmemo => .pure trivial hmemo
  exact exists_congr fun failure => and_congr_right fun _ => hread.outcome.error_iff failure

/-- The connection that answers every statement with the same rows. -/
def Connection.ofRows (records : List Record) : Connection where
  begin _ := .ok ()
  execute _ _ := .ok (.rows records)
  commit _ := .ok ()
  rollback _ := .ok ()

theorem Connection.answers_ofRows (records : List Record) : (ofRows records).Answers :=
  fun _ _ => ⟨_, rfl⟩

/-- A reader of books for whom every answer has the same rows. -/
def bookReader (records : List Record) : Reader where
  schema := chapteredBooks
  connection := .ofRows records

/-- Books with the stars of their reviews, which have none. -/
def ratedBooks : Bucket where
  name := "book"
  elements := [.item (.column "title"),
    .bucket { name := "review", elements := [.item (.column "stars")] }]

/-- The reviews of either book are asked for. -/
theorem read_rejects_iff_ratedBooks :
    (bookReader [[("id", .int 1)]]).asked (2 * nestingDepth ratedBooks) ratedBooks {} =
        .of [some (.of [])] ∧
      ((bookReader [[("id", .int 1)]]).Rejects ratedBooks {} ↔
        (bookReader [[("id", .int 2)]]).Rejects ratedBooks {}) := by
  have hasked : (bookReader [[("id", .int 1)]]).asked (2 * nestingDepth ratedBooks) ratedBooks {} =
      .of [some (.of [])] := rfl
  have haskedOther : ((bookReader [[("id", .int 1)]]).over (.ofRows [[("id", .int 2)]])).asked
      (2 * nestingDepth ratedBooks) ratedBooks {} = .of [some (.of [])] := rfl
  have hextensions : (bookReader [[("id", .int 1)]]).extensions = [] := rfl
  exact ⟨hasked, read_rejects_iff hextensions (Connection.answers_ofRows _)
    (Connection.answers_ofRows _) rfl (hasked.trans haskedOther.symm)⟩

/-- Without a book no reviews are asked for, and nobody notices that they have no stars. -/
theorem read_accepts_without_parents :
    (bookReader []).connection.Answers ∧ (bookReader [[("id", .int 1)]]).connection.Answers ∧
      ¬ (bookReader []).Rejects ratedBooks {} ∧
      (bookReader [[("id", .int 1)]]).Rejects ratedBooks {} := by
  refine ⟨Connection.answers_ofRows _, Connection.answers_ofRows _, ?_,
    .schema (.unknownColumn "review" "stars"), rfl, rfl⟩
  rintro ⟨failure, -, hfailure⟩
  obtain ⟨view, finish, hrun, -⟩ := Succeeds.of_toOption
    (show (Id.run (((bookReader []).read ratedBooks).run.run {})).1.toOption.map
      (fun view => view.data.length) = some 0 by decide +kernel)
  rw [hrun] at hfailure
  cases hfailure

end TreeQuery.Session
