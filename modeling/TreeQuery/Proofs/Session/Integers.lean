import TreeQuery.Proofs.Plan.Integers
import TreeQuery.Proofs.Session.JunctionQuery
import TreeQuery.Proofs.Session.Validity

/-!
# Integers in requests and in the keys of parents

A deferred bucket is read by the keys that its parents came back with.  They are members of one
set in a clause of the bucket itself, which preparation keeps.  So an integer among them is in the
query that is sent, written like the integers of a request.
-/

namespace TreeQuery.Session

open Catalog (Lookup Memo Schema)
open Plan (Gathered KeepIntegers Planner gather)
open Plan.Planner (Omits ShowIntegers)
open Sql (Place)

variable {ι : Type} {number : ι → Int} {schema : Schema} {place : Path}

/-! ## Preparing one clause -/

section Preparing

variable {path requested : List String}

/-- Elements are prepared one after another. -/
theorem prepareElements_append (behind : List Element) : ∀ (before : List Element)
    (findings : Findings), prepareElements schema place path requested findings (before ++ behind) =
      (do
        let (front, found) ← prepareElements schema place path requested findings before
        let (rest, found) ← prepareElements schema place path requested found behind
        return (front ++ rest, found)) := by
  intro before
  induction before with
  | nil => simp [prepareElements]
  | cons element rest ih =>
      intro findings
      cases element with
      | bucket child =>
          simp only [List.cons_append, prepareElements, ih, bind_assoc]
          apply bind_congr
          intro link
          split
          · simp
          · simp
      | item | clause | slice | total | beacon => simp [prepareElements, ih]

theorem prepare_clause (name : String) (qualifier label : Option String)
    (before behind : List Element) (expression : Expression) (findings : Findings) :
    prepare schema place path findings
        ⟨name, qualifier, label, before ++ .clause expression :: behind⟩ =
      (do
        let requested := (before ++ behind).filterMap ElementOf.column?
        let (front, found) ← prepareElements schema place path requested findings before
        let (rest, found) ← prepareElements schema place path requested found behind
        return (⟨name, qualifier, label, front ++ .clause expression :: rest⟩, found)) := by
  have hrequested : (before ++ .clause expression :: behind).filterMap ElementOf.column? =
      (before ++ behind).filterMap ElementOf.column? := by
    rw [List.filterMap_append, List.filterMap_cons_none rfl, List.filterMap_append]
  simp [prepare, prepareElements_append, prepareElements, hrequested]

end Preparing

/-! ## Planning one clause -/

namespace Reader

/-- The statement that is planned for a bucket that is read. -/
def plan (reader : Reader) (bucket : Bucket) : Lookup Failure Sql.Statement := do
  let (prepared, _) ← prepare reader.schema bucket.rootPath [] {} bucket
  reader.planner.build prepared

variable {reader : Reader}

theorem plans_iff {bucket : Bucket} {memo : Memo} {query : Sql.Query} :
    Plans reader bucket memo query ↔
      ∃ after, Succeeds (reader.plan bucket) memo (.select query) after := by
  constructor
  · rintro ⟨prepared, found, middle, after, hprepare, hbuild⟩
    exact ⟨after, Succeeds.bind_iff.mpr ⟨_, middle, hprepare, hbuild⟩⟩
  · rintro ⟨after, hplan⟩
    obtain ⟨⟨prepared, found⟩, middle, hprepare, hbuild⟩ := Succeeds.bind_iff.mp hplan
    exact ⟨prepared, found, middle, after, hprepare, hbuild⟩

/-- An integer in a clause of the bucket itself is in the statement. -/
theorem plan_shows_clause (hkeep : KeepIntegers number reader.extensions)
    (hnumber : ∀ i, -(2 ^ 63) ≤ number i ∧ number i < 2 ^ 64) {expressions : ι → Expression}
    (hexpressions : Expression.Carries number expressions) (name : String)
    (before behind : List Element) (memo : Memo) :
    Uniform (ShowIntegers number)
      (fun i => reader.plan ⟨name, none, none, before ++ .clause (expressions i) :: behind⟩)
      memo := by
  have hreads (i : ι) : Bucket.readsData (.clause (expressions i)) = false := rfl
  obtain ⟨root, hroot⟩ := Planner.rootPath_eq name none none hreads before behind
  simp only [plan, hroot, prepare_clause, bind_assoc, pure_bind]
  apply Uniform.bind_same
  rintro ⟨front, first⟩ middle -
  apply Uniform.bind_same
  rintro ⟨rest, second⟩ after -
  obtain ⟨root, hroot⟩ := Planner.rootPath_eq name none none hreads front rest
  have hgather : Uniform (Gathered.Carries number False .value) (fun i => gather reader.schema root
      ⟨name, none, none, front ++ .clause (expressions i) :: rest⟩) after := by
    apply Plan.gather_uniform root name none none front rest after
    intro found middle _
    rw [← Place.foldl_after_value rest]
    exact Plan.gatherElements_uniform_of_clause hexpressions found rest middle
  have hname (i : ι) :
      Bucket.name ⟨name, none, none, front ++ .clause (expressions i) :: rest⟩ = name := rfl
  apply (Planner.build_uniform_of_gather hkeep hname hroot hgather).mono
  rintro statements (hcarries | homits)
  · exact .of_carries hnumber hcarries
  · cases homits with
    | dropped statement hdropped => simp at hdropped
    | change statement hplace => exact absurd rfl hplace

end Reader

/-! ## Keys -/

/-- The keys of the parents are in one clause of the bucket that reads their children. -/
theorem Deferred.bucket?_eq {deferred : Deferred} (hdeferred : deferred.link.isDeferred = true) :
    ∃ name before behind column, ∀ keys, deferred.bucket? keys =
      some ⟨name, none, none, before ++ keyClause column keys :: behind⟩ := by
  unfold bucket?
  cases hlink : deferred.link with
  | manyToOne source target =>
      rw [hlink] at hdeferred
      cases hdeferred
  | oneToMany source target =>
      exact ⟨_, _, [], _, fun keys => rfl⟩
  | manyToMany source interimSource interimTarget target =>
      exact ⟨_, [.item (.column interimSource.name)], _, _, fun keys => rfl⟩

/-- Children of parents that have keys are what that bucket reads. -/
theorem fetchChildren_eq {deferred : Deferred} {keys : List Json} {bucket : Bucket}
    (hbucket : deferred.bucket? keys = some bucket) {records : List Record}
    (hkeys : parentKeys records deferred.path deferred.link.source.name = keys)
    (hsome : keys ≠ []) (read : Bucket → Run Fetched) :
    ∃ collect : Fetched → Children, Reader.fetchChildren read records deferred = (do
      let fetched ← read bucket
      return collect fetched) := by
  unfold Deferred.bucket? at hbucket
  cases hlink : deferred.link with
  | manyToOne source target =>
      rw [hlink] at hbucket
      cases hbucket
  | oneToMany source target =>
      rw [hlink] at hbucket
      obtain rfl := Option.some.inj hbucket
      rw [Reader.fetchChildren, hkeys, hlink]
      exact ⟨_, if_neg (by rwa [List.isEmpty_iff])⟩
  | manyToMany source interimSource interimTarget target =>
      rw [hlink] at hbucket
      obtain rfl := Option.some.inj hbucket
      exact ⟨_, fetchChildren_eq_junction hlink hkeys hsome⟩

/-- Run from a state, either all steps fail before they call anything, or the first calls of all
of them are queries that show their integers. -/
def SendIntegers {α : Type} (number : ι → Int) (steps : ι → Run α) (start : State) : Prop :=
  (∀ i, ∃ failure finish, Makes (steps i) start (.error failure) [] finish) ∨
    ∃ queries : ι → Sql.Query, ShowIntegers number (fun i => .select (queries i)) ∧
      ∀ i, ∃ outcome later finish,
        Makes (steps i) start outcome (.execute (.select (queries i)) :: later) finish

section Sending

variable {reader : Reader} {α : Type} {buckets : ι → Bucket} {steps : ι → Run α} {start : State}

theorem Reader.SendsPlanned.fails {bucket : Bucket} {step : Run α}
    (hsends : reader.SendsPlanned bucket step start)
    (hnone : ∀ query, ¬ Plans reader bucket start.memo query) :
    ∃ failure finish, Makes step start (.error failure) [] finish := by
  obtain ⟨outcome, calls, finish, hmakes, hsilent, hcall⟩ := hsends
  cases calls with
  | nil =>
      obtain ⟨⟨failure, rfl⟩, -⟩ := hsilent rfl
      exact ⟨failure, finish, hmakes⟩
  | cons call later =>
      obtain ⟨query, -, hplans⟩ := hcall call rfl
      exact absurd hplans (hnone query)

theorem Reader.SendsPlanned.sends {bucket : Bucket} {step : Run α}
    (hsends : reader.SendsPlanned bucket step start) {query : Sql.Query} {after : Memo}
    (hplan : Succeeds (reader.plan bucket) start.memo (.select query) after) :
    ∃ outcome later finish,
      Makes step start outcome (.execute (.select query) :: later) finish := by
  obtain ⟨outcome, calls, finish, hmakes, hsilent, hcall⟩ := hsends
  cases calls with
  | nil => exact absurd (Reader.plans_iff.mpr ⟨after, hplan⟩) ((hsilent rfl).2 query)
  | cons call later =>
      obtain ⟨other, rfl, hplans⟩ := hcall call rfl
      obtain ⟨last, hother⟩ := Reader.plans_iff.mp hplans
      obtain rfl := Sql.Statement.select.inj (hplan.value_eq hother)
      exact ⟨outcome, later, finish, hmakes⟩

/-- What is planned for the buckets is sent. -/
theorem SendIntegers.of_plan (hplan : Uniform (ShowIntegers number)
      (fun i => reader.plan (buckets i)) start.memo)
    (hsends : ∀ i, reader.SendsPlanned (buckets i) (steps i) start) :
    SendIntegers number steps start := by
  cases hplan with
  | fails failure finish hrun =>
      refine .inl fun i => (hsends i).fails fun query hplans => ?_
      obtain ⟨after, hquery⟩ := Reader.plans_iff.mp hplans
      cases (hrun i).symm.trans hquery
  | gives statements finish hshow hrun =>
      obtain ⟨kind, hkind⟩ := hshow.kind
      by_cases hselect : kind = .select
      · have hqueries (i : ι) : ∃ query, statements i = .select query := by
          have hi := (hkind i).trans hselect
          cases hstatement : statements i with
          | select query => exact ⟨query, rfl⟩
          | insert | update | delete =>
              rw [hstatement] at hi
              cases hi
        choose queries hqueries using hqueries
        obtain rfl : statements = fun i => .select (queries i) := funext hqueries
        exact .inr ⟨queries, hshow, fun i => (hsends i).sends (hrun i)⟩
      · refine .inl fun i => (hsends i).fails fun query hplans => ?_
        obtain ⟨after, hquery⟩ := Reader.plans_iff.mp hplans
        have hstatement := (hrun i).value_eq hquery
        exact hselect ((hkind i).symm.trans (hstatement ▸ rfl))

/-- An integer that is the key of a parent is in the query for the children. -/
theorem fetchChildren_sends_key (hkeep : KeepIntegers number reader.extensions)
    (hnumber : ∀ i, -(2 ^ 63) ≤ number i ∧ number i < 2 ^ 64) {deferred : Deferred}
    (hdeferred : deferred.link.isDeferred = true) {records : ι → List Record}
    {before behind : List Json}
    (hkeys : ∀ i, parentKeys (records i) deferred.path deferred.link.source.name =
      before ++ .int (number i) :: behind) (depth : Nat) (start : State) :
    SendIntegers number
      (fun i => Reader.fetchChildren (reader.fetch (depth + 1)) (records i) deferred) start := by
  obtain ⟨name, front, rest, column, hbucket⟩ := Deferred.bucket?_eq hdeferred
  have hclause : Expression.Carries number
      fun i => [.clause ⟨column, .set (before ++ .int (number i) :: behind)⟩] :=
    ⟨column, _, .set before behind, .intro [] []⟩
  apply SendIntegers.of_plan
    (Reader.plan_shows_clause hkeep hnumber hclause name front rest start.memo)
  intro i
  obtain ⟨collect, hread⟩ := fetchChildren_eq (hbucket _) (hkeys i) (by simp)
    (reader.fetch (depth + 1))
  rw [hread]
  exact (fetch_sendsPlanned depth _ start).bind fun fetched => .pure (collect fetched)

/-- Requests that are the same but for one integer of 64 bits, signed or not, are planned alike, and
so are the fetches of children whose parents came back with such keys.  The integer stands at one
place of the texts, with its digits exactly if it is below `2^63`.  The planned statements are
without it only where it is left to the statement of a nested bucket, or is a count that has no
effect. -/
theorem Reader.shows_integers (hkeep : KeepIntegers number reader.extensions)
    (hnumber : ∀ i, -(2 ^ 63) ≤ number i ∧ number i < 2 ^ 64) :
    (∀ (place : Place) (requests : ι → Bucket), Bucket.Carries number place requests → ∀ memo,
      Uniform (fun statements => ShowIntegers number statements ∨
          Omits (reader.planner.LeavesIntegerOf memo number requests) place statements)
        (fun i => reader.planner.build (requests i)) memo) ∧
    ∀ (deferred : Deferred) (records : ι → List Record) (before behind : List Json),
      deferred.link.isDeferred = true →
        (∀ i, parentKeys (records i) deferred.path deferred.link.source.name =
          before ++ .int (number i) :: behind) → ∀ depth start,
            SendIntegers number
              (fun i => Reader.fetchChildren (reader.fetch (depth + 1)) (records i) deferred)
              start := by
  constructor
  · intro place requests hrequests memo
    exact Planner.build_shows_integers hkeep hnumber hrequests memo
  · intro deferred records before behind hdeferred hkeys depth start
    exact fetchChildren_sends_key hkeep hnumber hdeferred hkeys depth start

end Sending

/-- The integers that fit into 64 bits, signed or not. -/
abbrev WordInteger := { number : Int // -(2 ^ 63) ≤ number ∧ number < 2 ^ 64 }

/-- The books from an integer on. -/
def booksFrom (number : WordInteger) : Bucket where
  name := "book"
  elements := [.item (.column "title"),
    .clause [.clause ⟨"id", .compare .ge (.int number.val)⟩]]

/-- The reviews of a book. -/
def reviewsOfBook : Deferred where
  path := []
  field := "review"
  link := .oneToMany ⟨"id", [{ name := "book" }]⟩
    ⟨"book_id", [{ name := "book" }, { name := "review" }]⟩
  child := bookReviews

/-- A book that came back with its key. -/
def keyedBook (number : WordInteger) : List Record :=
  [[("id", .int number.val)]]

theorem shows_integers_books :
    (∀ number, ∃ statement after,
      Succeeds (chapterReader.planner.build (booksFrom number)) {} statement after) ∧
    (∀ number : WordInteger, ∃ query after, Succeeds
      (chapterReader.plan (childrenBucket bookReviews "book_id" [.int number.val])) {}
        (.select query) after) ∧
    Uniform (fun statements => ShowIntegers (fun number => number.val) statements ∨
        Omits (chapterReader.planner.LeavesIntegerOf {} (fun number => number.val) booksFrom)
          .value statements)
      (fun number : WordInteger => chapterReader.planner.build (booksFrom number)) {} ∧
    SendIntegers (fun number => number.val)
      (fun number : WordInteger =>
        Reader.fetchChildren (chapterReader.fetch 1) (keyedBook number) reviewsOfBook) {} := by
  have hclause : Element.Carries (fun number : WordInteger => number.val) .value
      fun number => .clause [.clause ⟨"id", .compare .ge (.int number.val)⟩] :=
    .clause ⟨"id", _, .compare .ge, .intro [] []⟩
  have hrequests : Bucket.Carries (fun number : WordInteger => number.val) .value booksFrom :=
    .element hclause "book" none none [.item (.column "title")] []
  have hkeep : KeepIntegers (fun number : WordInteger => number.val) chapterReader.extensions :=
    nofun
  have hkeys (number : WordInteger) : parentKeys (keyedBook number) reviewsOfBook.path
      reviewsOfBook.link.source.name = [] ++ .int number.val :: [] := rfl
  obtain ⟨hplanned, hsent⟩ := Reader.shows_integers hkeep fun number => number.property
  refine ⟨fun number => ⟨_, _, rfl⟩, fun number => ⟨_, _, rfl⟩, ?_, ?_⟩
  · exact hplanned .value booksFrom hrequests {}
  · exact hsent reviewsOfBook keyedBook [] [] rfl hkeys 0 {}

end TreeQuery.Session
