import TreeQuery.Proofs.Plan.Failures
import TreeQuery.Proofs.Session.Calls
import TreeQuery.Proofs.Session.Depth
import TreeQuery.Proofs.Session.Attachment

/-!
# How many statements a read sends

A read sends one statement for its bucket and at most one for every nested bucket that is
related to its parent one-to-many or many-to-many.  What is read later is resolved anew
from a root of its own.  Its links keep their kinds there, since these depend on a path only
through the table that it ends in.
-/

namespace TreeQuery

open Catalog (Link Memo Schema)

namespace Catalog.Schema

variable {schema : Schema}

theorem junctionKeys?_congr {source other : Step} (hname : source.name = other.name)
    (interim : String) (target : Step) :
    schema.junctionKeys? interim source target = schema.junctionKeys? interim other target := by
  have hbare : source.bare = other.bare := by rw [Step.bare, Step.bare, hname]
  rw [junctionKeys?, junctionKeys?, hbare]

theorem manyToMany?_kind {source other : Step} (hname : source.name = other.name)
    (first second firstTarget secondTarget : Path) (target : Step) :
    (schema.manyToMany? first firstTarget source target).map (Option.map Link.kind) =
      (schema.manyToMany? second secondTarget other target).map (Option.map Link.kind) := by
  have hcandidates : schema.junctionCandidates source target =
      schema.junctionCandidates other target := by
    rw [junctionCandidates, junctionCandidates, hname]
    simp only [junctionKeys?_congr hname]
  rw [manyToMany?, manyToMany?, hcandidates, hname]
  cases schema.chosenJunction? other.name target.name with
  | some interim =>
      simp only [junctionKeys?_congr hname]
      cases schema.junctionKeys? interim other target <;> rfl
  | none =>
      rcases schema.junctionCandidates other target with _ | ⟨candidate, _ | _⟩ <;> rfl

/-- The kind of the link to a child depends on the parent's path only through its table. -/
theorem linkBetween_kind {first second : Path}
    (htable : first.getLast?.map Step.name = second.getLast?.map Step.name) (target : Step) :
    (schema.linkBetween first (first.child target)).map (Option.map Link.kind) =
      (schema.linkBetween second (second.child target)).map (Option.map Link.kind) := by
  rw [linkBetween, linkBetween, Path.child, Path.child, List.getLast?_concat,
    List.getLast?_concat]
  cases hfirst : first.getLast? with
  | none =>
      rw [hfirst] at htable
      rw [Option.map_eq_none_iff.mp htable.symm]
  | some source =>
      cases hsecond : second.getLast? with
      | none =>
          rw [hfirst, hsecond] at htable
          cases htable
      | some other =>
          rw [hfirst, hsecond] at htable
          have hname : source.name = other.name := Option.some.inj htable
          have hsource : first.tableName = other.name := by
            rw [Path.tableName, hfirst]
            exact hname
          have hother : second.tableName = other.name := by
            rw [Path.tableName, hsecond]
          dsimp only
          rw [manyToOne?, manyToOne?, oneToMany?, oneToMany?, hsource, hother, hname]
          cases (schema.graph.outgoing other.name).find? fun key => key.leadsTo target with
          | some key => rfl
          | none =>
              cases (schema.graph.outgoing target.name).find? fun key =>
                  key.leadsTo { name := other.name, qualifier := target.qualifier } with
              | some key => rfl
              | none => exact manyToMany?_kind hname _ _ _ _ target

end Catalog.Schema

namespace Session

/-! ## Nested buckets that are read later -/

/-- Whether a nested bucket is related to its parent one-to-many or many-to-many. -/
def readsLater (schema : Schema) (place : Path) (child : Bucket) : Bool :=
  match schema.linkBetween place (place.child child.step) with
  | .ok (some link) => link.isDeferred
  | _ => false

mutual

/-- How many buckets nested in a bucket, at any depth, are related to their parents
one-to-many or many-to-many. -/
def laterCount (schema : Schema) (place : Path) : Bucket → Nat
  | ⟨_, _, _, elements⟩ => laterCountOfElements schema place elements

/-- How many buckets nested in elements, at any depth, are so related to their parents. -/
def laterCountOfElements (schema : Schema) (place : Path) : List Element → Nat
  | [] => 0
  | .bucket nested :: rest =>
      (readsLater schema place nested).toNat +
        laterCount schema (place.child nested.step) nested +
          laterCountOfElements schema place rest
  | .item _ :: rest => laterCountOfElements schema place rest
  | .clause _ :: rest => laterCountOfElements schema place rest
  | .slice _ :: rest => laterCountOfElements schema place rest
  | .total :: rest => laterCountOfElements schema place rest
  | .beacon _ :: rest => laterCountOfElements schema place rest

end

variable {schema : Schema} {bucket child : Bucket} {place first second : Path}

theorem laterCount_eq (schema : Schema) (place : Path) (bucket : Bucket) :
    laterCount schema place bucket = laterCountOfElements schema place bucket.elements := by
  cases bucket
  rfl

/-- The nested buckets of the elements count one by one. -/
theorem laterCountOfElements_eq_sum (schema : Schema) (place : Path) (elements : List Element) :
    laterCountOfElements schema place elements =
      ((elements.filterMap ElementOf.bucket?).map fun nested =>
        (readsLater schema place nested).toNat +
          laterCount schema (place.child nested.step) nested).sum := by
  induction elements with
  | nil => rfl
  | cons element rest ih =>
      cases element with
      | bucket nested =>
          rw [laterCountOfElements, ih]
          rfl
      | _ => exact ih

/-- Whether a bucket is read later depends on the kind of its link only. -/
theorem readsLater_eq (schema : Schema) (place : Path) (child : Bucket) :
    readsLater schema place child =
      match (schema.linkBetween place (place.child child.step)).map (Option.map Link.kind) with
      | .ok (some kind) => kind != "m2o"
      | _ => false := by
  rw [readsLater]
  rcases schema.linkBetween place (place.child child.step) with _ | _ | link
  · rfl
  · rfl
  · cases link <;> rfl

theorem readsLater_congr (htable : first.getLast?.map Step.name = second.getLast?.map Step.name)
    (child : Bucket) : readsLater schema first child = readsLater schema second child := by
  rw [readsLater_eq, readsLater_eq, Schema.linkBetween_kind htable]

mutual

/-- The count of a bucket is the same at every place that ends in the same table. -/
theorem laterCount_congr : ∀ (bucket : Bucket) {first second : Path},
    first.getLast?.map Step.name = second.getLast?.map Step.name →
      laterCount schema first bucket = laterCount schema second bucket
  | ⟨_, _, _, elements⟩, _, _, htable => by
      rw [laterCount, laterCount]
      exact laterCountOfElements_congr elements htable

theorem laterCountOfElements_congr : ∀ (elements : List Element) {first second : Path},
    first.getLast?.map Step.name = second.getLast?.map Step.name →
      laterCountOfElements schema first elements = laterCountOfElements schema second elements
  | [], _, _, _ => rfl
  | .bucket nested :: rest, first, second, htable => by
      have hchild : (first.child nested.step).getLast?.map Step.name =
          (second.child nested.step).getLast?.map Step.name := by
        rw [Path.child, Path.child, List.getLast?_concat, List.getLast?_concat]
      rw [laterCountOfElements, laterCountOfElements, readsLater_congr htable,
        laterCount_congr nested hchild, laterCountOfElements_congr rest htable]
  | .item _ :: rest, _, _, htable => laterCountOfElements_congr rest htable
  | .clause _ :: rest, _, _, htable => laterCountOfElements_congr rest htable
  | .slice _ :: rest, _, _, htable => laterCountOfElements_congr rest htable
  | .total :: rest, _, _, htable => laterCountOfElements_congr rest htable
  | .beacon _ :: rest, _, _, htable => laterCountOfElements_congr rest htable

end

/-! ## The buckets that read what is read later -/

theorem Bucket.getLast?_rootPath (bucket : Bucket) :
    bucket.rootPath.getLast?.map Step.name = some bucket.name := by
  rw [Bucket.rootPath]
  split <;> rfl

theorem Path.getLast?_child (place : Path) (step : Step) :
    (place.child step).getLast?.map Step.name = some step.name := by
  rw [Path.child, List.getLast?_concat]
  rfl

/-- A child counts the same when it is read from a root of its own. -/
theorem laterCount_childrenBucket (schema : Schema) (child : Bucket) (keyColumn : String)
    (keys : List Json) :
    laterCount schema (childrenBucket child keyColumn keys).rootPath
        (childrenBucket child keyColumn keys) = laterCount schema [child.step] child := by
  have htable : (childrenBucket child keyColumn keys).rootPath.getLast?.map Step.name =
      [child.step].getLast?.map Step.name := Bucket.getLast?_rootPath _
  calc laterCount schema (childrenBucket child keyColumn keys).rootPath
        (childrenBucket child keyColumn keys)
      = laterCount schema [child.step] (childrenBucket child keyColumn keys) :=
        laterCount_congr _ htable
    _ = laterCount schema [child.step] child := by
        rw [laterCount_eq, laterCount_eq, laterCountOfElements_eq_sum, childrenBucket_buckets,
          ← laterCountOfElements_eq_sum]

/-- The target of a junction is joined to it, so that reading through a junction counts no
more than reading the child. -/
theorem laterCount_junctionBucket {interimSource interimTarget target : Address}
    (hjunction : ThroughJunction schema child interimSource interimTarget target)
    (field : String) (keys : List Json) :
    laterCount schema (junctionBucket child field interimSource.path.tableName
          interimSource.name interimTarget.name target.name keys).rootPath
        (junctionBucket child field interimSource.path.tableName interimSource.name
          interimTarget.name target.name keys) = laterCount schema [child.step] child := by
  have htable : (junctionBucket child field interimSource.path.tableName interimSource.name
        interimTarget.name target.name keys).rootPath.getLast?.map Step.name =
      Option.map Step.name
        (List.getLast? [({ name := interimSource.path.tableName } : Step)]) :=
    Bucket.getLast?_rootPath _
  have hjoined : readsLater schema [{ name := interimSource.path.tableName }]
      (junctionTarget child field interimTarget.name target.name) = false := by
    rw [readsLater, hjunction.joined field]
    rfl
  rw [laterCount_congr _ htable, laterCount_eq, laterCountOfElements_eq_sum,
    junctionBucket_buckets, List.map_singleton, List.sum_singleton, hjoined, Bool.toNat_false,
    Nat.zero_add, laterCount_eq, laterCountOfElements_eq_sum, junctionTarget_buckets,
    ← laterCountOfElements_eq_sum, laterCount_eq]
  apply laterCountOfElements_congr
  rw [Path.getLast?_child]
  rfl

/-- How many statements are sent for what is read later, at most. -/
def Deferred.statements (schema : Schema) (deferred : Deferred) : Nat :=
  1 + laterCount schema [deferred.child.step] deferred.child

/-- What preparing finds to be read later is counted one by one: each with what is counted
in it. -/
theorem Prepares.statements {path requested : List String} {findings found : Findings}
    {elements others : List Element}
    (hprepares : Prepares schema place path requested findings elements others found) :
    ∃ later, found.deferred = findings.deferred ++ later ∧
      (later.map (Deferred.statements schema)).sum =
        laterCountOfElements schema place elements := by
  induction hprepares with
  | nil => exact ⟨[], (List.append_nil _).symm, rfl⟩
  | @deferred place path requested findings after child link rest others hlink hdeferred hrest
      ih =>
      obtain ⟨later, hlater, hsum⟩ := ih
      refine ⟨⟨path, child.outputName, link, child⟩ :: later, ?_, ?_⟩
      · rw [hlater, needKey_deferred, List.append_assoc]
        rfl
      · have hread : readsLater schema place child = true := by
          rw [readsLater, hlink]
          exact hdeferred
        have hcount : laterCount schema [child.step] child =
            laterCount schema (place.child child.step) child :=
          laterCount_congr child (Path.getLast?_child place child.step).symm
        rw [List.map_cons, List.sum_cons, hsum, Deferred.statements, hcount,
          laterCountOfElements, hread]
        rfl
  | @joined place path requested findings middle after child link elements rest others hlink
      hjoined hchild hrest ihchild ihrest =>
      obtain ⟨inner, hinner, hinnerSum⟩ := ihchild
      obtain ⟨later, hlater, hlaterSum⟩ := ihrest
      have hread : readsLater schema place child = false := by
        rw [readsLater, hlink]
        exact hjoined
      refine ⟨inner ++ later, ?_, ?_⟩
      · rw [hlater, hinner, List.append_assoc]
      · rw [List.map_append, List.sum_append, hinnerSum, hlaterSum, laterCountOfElements, hread,
          laterCount_eq, Bool.toNat_false, Nat.zero_add]
  | @other place path requested findings after element rest others hother hrest ih =>
      obtain ⟨later, hlater, hsum⟩ := ih
      refine ⟨later, hlater, hsum.trans ?_⟩
      cases element with
      | bucket child => cases hother
      | _ => rfl

/-! ## Runs that end within a number of calls -/

/-- Run from a state, a step ends, and not because a bound on nesting was met, after at most
so many calls. -/
def EndsWithin {α : Type} (step : Run α) (start : State) (bound : Nat) : Prop :=
  ∃ outcome calls finish, Makes step start outcome calls finish ∧
    (∀ failure, outcome = .error failure → failure ≠ .tooDeep) ∧ calls.length ≤ bound

namespace EndsWithin

variable {α β : Type} {step first : Run α} {next : α → Run β} {start : State}
  {bound more : Nat}

theorem mono (hends : EndsWithin step start bound) (hbound : bound ≤ more) :
    EndsWithin step start more := by
  obtain ⟨outcome, calls, finish, hmakes, hdepth, hcalls⟩ := hends
  exact ⟨outcome, calls, finish, hmakes, hdepth, hcalls.trans hbound⟩

theorem pure (value : α) (start : State) : EndsWithin (pure value) start 0 :=
  ⟨_, [], start, .pure value start, nofun, le_refl 0⟩

theorem throw {failure : Failure} (hfailure : failure ≠ .tooDeep) (start : State) :
    EndsWithin (throw failure : Run α) start 0 := by
  refine ⟨_, [], start, .throw failure start, ?_, le_refl 0⟩
  intro other hother
  exact Except.error.inj hother ▸ hfailure

theorem liftExcept {outcome : Except Failure α}
    (hdepth : ∀ failure, outcome = .error failure → failure ≠ .tooDeep) (start : State) :
    EndsWithin (liftExcept outcome) start 0 :=
  ⟨outcome, [], start, .liftExcept outcome start, hdepth, le_refl 0⟩

theorem planning {lookup : Catalog.Lookup Failure α} (hfails : FailsOnly (· ≠ .tooDeep) lookup)
    (start : State) : EndsWithin (planning lookup) start 0 :=
  ⟨_, [], _, .planning rfl, hfails start.memo, le_refl 0⟩

theorem record (call : Call) (answer : History → Except ConnectionError α) (start : State) :
    EndsWithin (record call answer) start 1 := by
  refine ⟨_, [call], _, .record call answer start, ?_, le_refl 1⟩
  intro failure hfailure
  cases hanswer : answer start.history with
  | error problem =>
      rw [hanswer] at hfailure
      obtain rfl := Except.error.inj hfailure
      exact nofun
  | ok value =>
      rw [hanswer] at hfailure
      cases hfailure

/-- The calls of composed steps add up. -/
theorem bind (hfirst : EndsWithin first start bound)
    (hnext : ∀ value middle, Succeeds first start value middle →
      EndsWithin (next value) middle more) :
    EndsWithin (first >>= next) start (bound + more) := by
  obtain ⟨outcome, calls, middle, hmakes, hdepth, hcalls⟩ := hfirst
  cases outcome with
  | error failure =>
      refine ⟨_, calls, middle, hmakes.bind_error, ?_, hcalls.trans (Nat.le_add_right _ _)⟩
      intro other hother
      exact Except.error.inj hother ▸ hdepth failure rfl
  | ok value =>
      obtain ⟨result, later, finish, hlater, hresult, hmore⟩ := hnext value middle hmakes.run
      refine ⟨result, calls ++ later, finish, hmakes.bind hlater, hresult, ?_⟩
      rw [List.length_append]
      exact Nat.add_le_add hcalls hmore

/-- What is made of a value needs no call. -/
theorem then_pure (hfirst : EndsWithin first start bound) {change : α → β} :
    EndsWithin (first >>= fun value => Pure.pure (change value)) start bound :=
  (hfirst.bind fun value middle _ => pure (change value) middle).mono (le_refl bound)

/-- Planning first needs no call. -/
theorem planning_bind {lookup : Catalog.Lookup Failure α}
    (hfails : FailsOnly (· ≠ .tooDeep) lookup)
    (hnext : ∀ value middle, Succeeds (Session.planning lookup) start value middle →
      EndsWithin (next value) middle bound) :
    EndsWithin (Session.planning lookup >>= next) start bound := by
  have hboth := (planning hfails start).bind hnext
  rwa [Nat.zero_add] at hboth

/-- A traversal makes at most the calls of its steps, each taken from a state that those
before may lead to. -/
theorem mapM {follows : State → State → Prop} (hrefl : ∀ state, follows state state)
    (htrans : ∀ {first second third}, follows first second → follows second third →
      follows first third)
    {step : α → Run β} {bound : α → Nat} {entries : List α} {start : State}
    (hkeeps : ∀ entry ∈ entries, ∀ middle value later, follows start middle →
      Succeeds (step entry) middle value later → follows middle later)
    (hends : ∀ entry ∈ entries, ∀ middle, follows start middle →
      EndsWithin (step entry) middle (bound entry)) :
    EndsWithin (entries.mapM step) start (entries.map bound).sum := by
  induction entries generalizing start with
  | nil => exact pure [] start
  | cons entry rest ih =>
      rw [List.mapM_cons, List.map_cons, List.sum_cons]
      apply bind (hends entry List.mem_cons_self start (hrefl start))
      intro value middle hentry
      have hfirst := hkeeps entry List.mem_cons_self start value middle (hrefl start) hentry
      have hrest : EndsWithin (rest.mapM step) middle (rest.map bound).sum := by
        apply ih
        · intro other hother state found later hfollows
          exact hkeeps other (List.mem_cons_of_mem _ hother) state found later
            (htrans hfirst hfollows)
        · intro other hother state hfollows
          exact hends other (List.mem_cons_of_mem _ hother) state (htrans hfirst hfollows)
      exact hrest.bind fun _ _ _ => pure _ _

end EndsWithin

/-! ## Preparing and reporting -/

mutual

/-- Where a bucket cannot be prepared, the request is at fault. -/
theorem prepare_fails (schema : Schema) :
    ∀ (bucket : Bucket) (place : Path) (path : List String) (findings : Findings),
      FailsOnly (·.isRequestError = true) (prepare schema place path findings bucket)
  | ⟨_, _, _, elements⟩, place, path, findings => by
      rw [prepare]
      exact (prepareElements_fails schema elements place path _ findings).bind fun _ => .pure _

theorem prepareElements_fails (schema : Schema) :
    ∀ (elements : List Element) (place : Path) (path requested : List String)
      (findings : Findings), FailsOnly (·.isRequestError = true)
        (prepareElements schema place path requested findings elements)
  | [], _, _, _, _ => .pure _
  | .bucket child :: rest, _, _, _, _ => by
      rw [prepareElements]
      refine (ofSchema_fails _).bind fun link => ?_
      split
      · exact (prepareElements_fails schema rest _ _ _ _).bind fun _ => .pure _
      · exact (prepare_fails schema child _ _ _).bind fun _ =>
          (prepareElements_fails schema rest _ _ _ _).bind fun _ => .pure _
  | .item _ :: rest, _, _, _, _ | .clause _ :: rest, _, _, _, _ | .slice _ :: rest, _, _, _, _
  | .total :: rest, _, _, _, _ | .beacon _ :: rest, _, _, _, _ => by
      rw [prepareElements]
      exact (prepareElements_fails schema rest _ _ _ _).bind fun _ => .pure _

end

variable {reader : Reader} {depth : Nat}

theorem report_fails {kind : Failure → Prop} (hextensions : ExtensionsFail reader.extensions kind) :
    ∀ (beacons : List Beacon) (fetched : Fetched) (failure : Failure),
      reader.report beacons fetched = .error failure → kind failure
  | [], _, _, hreport => by cases hreport
  | beacon :: rest, fetched, failure, hreport => by
      rw [Reader.report] at hreport
      split at hreport
      · exact report_fails hextensions rest fetched failure hreport
      · next extension hfound =>
          rcases bind_error_iff.mp hreport with hfailed | ⟨reported, -, hrest⟩
          · exact (hextensions _ (mem_of_lookup hfound)).2 beacon fetched.records failure hfailed
          · exact report_fails hextensions rest _ failure hrest

/-! ## Reading -/

theorem ne_tooDeep_of_isRequestError (failure : Failure)
    (hrequest : failure.isRequestError = true) : failure ≠ .tooDeep := by
  rintro rfl
  cases hrequest

/-- The rows of a bucket are asked for once. -/
theorem fetchRows_ends (hextensions : ExtensionsFail reader.extensions (· ≠ .tooDeep))
    (name : String) (prepared : Bucket) (start : State) :
    EndsWithin (reader.fetchRows name prepared) start 1 := by
  have hbuild := reader.planner.build_fails ne_tooDeep_of_isRequestError hextensions prepared
  have hrefused (kind : Sql.StatementKind) :
      Failure.ambiguous name (.readBecomes kind) ≠ .tooDeep := nofun
  rw [Reader.fetchRows]
  refine .planning_bind hbuild fun statement middle _ => ?_
  cases statement with
  | select query => exact (EndsWithin.record _ _ middle).then_pure
  | insert | update | delete => exact .mono (.throw (hrefused _) middle) (Nat.zero_le 1)

/-- Children without a key among their parents are not asked for. -/
theorem fetchChildren_silent {read : Bucket → Run Fetched} {records : List Record}
    {deferred : Deferred}
    (hkeys : ∀ record ∈ records, ∀ value,
      (Json.object record).at? (deferred.path ++ [deferred.link.source.name]) = some value →
        value.isNull = true) (start : State) :
    Makes (Reader.fetchChildren read records deferred) start (.ok []) [] start := by
  have hnone : parentKeys records deferred.path deferred.link.source.name = [] := by
    apply List.eq_nil_iff_forall_not_mem.mpr
    intro key hkey
    obtain ⟨record, hrecord, hvalue, hnull⟩ := at?_of_mem_parentKeys hkey
    rw [hkeys record hrecord key hvalue] at hnull
    cases hnull
  rw [Reader.fetchChildren, hnone]
  exact .pure [] start

/-- Children are asked for as the bucket that reads them is. -/
theorem fetchChildren_ends {read : Bucket → Run Fetched} {records : List Record}
    {deferred : Deferred} {start : State} {bound : Nat}
    (hchildren : ∀ source target, deferred.link = .oneToMany source target → ∀ keys,
      EndsWithin (read (childrenBucket deferred.child target.name keys)) start bound)
    (hjunction : ∀ first second third fourth,
      deferred.link = .manyToMany first second third fourth → ∀ keys,
        EndsWithin (read (junctionBucket deferred.child deferred.field second.path.tableName
          second.name third.name fourth.name keys)) start bound) :
    EndsWithin (Reader.fetchChildren read records deferred) start bound := by
  rw [Reader.fetchChildren]
  generalize parentKeys records deferred.path deferred.link.source.name = keys
  cases keys.isEmpty with
  | true => exact (EndsWithin.pure [] start).mono (Nat.zero_le bound)
  | false =>
      cases hlink : deferred.link with
      | manyToOne source target => exact (EndsWithin.pure [] start).mono (Nat.zero_le bound)
      | oneToMany source target =>
          exact (hchildren source target hlink keys).then_pure
      | manyToMany first second third fourth =>
          exact (hjunction first second third fourth hlink keys).then_pure

/-- From every state with a faithful memory, a bucket is fetched by one statement and those
for what is read later. -/
def FetchedByCount (reader : Reader) (depth : Nat) (bucket : Bucket) : Prop :=
  ∀ start, Memo.Faithful reader.schema start.memo →
    EndsWithin (reader.fetch depth bucket) start
      (1 + laterCount reader.schema bucket.rootPath bucket)

theorem FetchedByCount.succ (hextensions : ExtensionsFail reader.extensions (· ≠ .tooDeep))
    (hschema : reader.schema.Plain) (hplain : bucket.Plain)
    (hlater : LaterHolds reader.schema (FetchedByCount reader depth) bucket) :
    FetchedByCount reader (depth + 1) bucket := by
  intro start hfaithful
  rw [Reader.fetch]
  refine .planning_bind ((prepare_fails _ _ _ _ _).mono ne_tooDeep_of_isRequestError) ?_
  rintro ⟨prepared, found⟩ first hprepare
  refine .bind (fetchRows_ends hextensions _ _ first) fun rows second hrows => ?_
  obtain ⟨hprepare, -⟩ := planning_succeeds hprepare
  obtain ⟨query, outcome, hbuild, -⟩ := fetchRows_succeeds hrows
  obtain ⟨hsecond, -, hprepares, -⟩ := plan_succeeds hschema hplain hfaithful hprepare hbuild
  obtain ⟨root, hroot, -⟩ := hplain.exists_root
  obtain ⟨later, hfound, hmem⟩ := hprepares.deferred_eq
  have hdefers : ∀ deferred ∈ found.deferred,
      Defers reader.schema bucket.rootPath [] bucket.elements deferred := by
    intro deferred hdeferred
    rw [hfound] at hdeferred
    exact (hmem deferred).mp hdeferred
  have hcount : (found.deferred.map (Deferred.statements reader.schema)).sum =
      laterCount reader.schema bucket.rootPath bucket := by
    obtain ⟨counted, hcounted, hsum⟩ := hprepares.statements
    rw [hcounted, laterCount_eq]
    exact hsum
  rw [hroot] at hprepares
  rw [← hcount]
  have hrefl : ∀ state, Follows reader.schema state state := .refl
  have hchildren : EndsWithin (found.deferred.mapM (Reader.fetchChildren (reader.fetch depth)
      ((reader.takeTotal prepared rows).1.map Record.unflatten))) second
        (found.deferred.map (Deferred.statements reader.schema)).sum := by
    apply EndsWithin.mapM hrefl .trans
    · intro deferred hdeferred middle value last hfollows hrun
      obtain ⟨hchild, hkind, hfield, place, hlink⟩ := hprepares.nested_plain hplain hdeferred
      exact fetchChildren_follows hschema
        (fun _ _ _ _ hother hmemo hread => fetch_follows hschema hother hmemo hread)
        hchild hlink hkind hfield (hfollows.faithful hsecond) hrun
    · intro deferred hdeferred middle hfollows
      obtain ⟨hchild, -, -, place, hlink⟩ := hprepares.nested_plain hplain hdeferred
      have hmiddle := hfollows.faithful hsecond
      apply fetchChildren_ends
      · intro source target hkind keys
        have hread := hlater.children deferred (hdefers deferred hdeferred) source target hkind
          keys middle hmiddle
        rwa [laterCount_childrenBucket] at hread
      · intro first second third fourth hkind keys
        rw [hkind] at hlink
        have hread := hlater.junction deferred (hdefers deferred hdeferred) first second third
          fourth hkind keys middle hmiddle
        rwa [laterCount_junctionBucket (throughJunction_of_link hschema hlink)] at hread
  have hreport := report_fails hextensions bucket.beacons
  exact (hchildren.bind fun _ _ _ => .liftExcept (hreport _) _).mono (le_refl _)

/-- Every read ends, and not because a bound on nesting was met.  However the connection
answers, it sends at most one statement for the bucket and one for every nested bucket, at
any depth, that is related to its parent one-to-many or many-to-many.  Children whose parents
have no key but null are not asked for. -/
theorem read_sends_within_count (hextensions : ExtensionsFail reader.extensions (· ≠ .tooDeep))
    (hschema : reader.schema.Plain) (hplain : bucket.Plain) {start : State}
    (hfaithful : Memo.Faithful reader.schema start.memo) :
    (∃ outcome calls finish, Makes (reader.read bucket) start outcome calls finish ∧
      (∀ failure, outcome = .error failure → failure ≠ .tooDeep) ∧
      calls.length ≤ 1 + laterCount reader.schema bucket.rootPath bucket) ∧
    ∀ (records : List Record) (deferred : Deferred) (middle : State),
      (∀ record ∈ records, ∀ value,
        (Json.object record).at? (deferred.path ++ [deferred.link.source.name]) = some value →
          value.isNull = true) →
      Makes (Reader.fetchChildren (reader.fetch depth) records deferred) middle (.ok []) []
        middle := by
  constructor
  · have hfetch : FetchedByCount reader (2 * nestingDepth bucket) bucket :=
      (holdsWithin_of_later hschema
        (fun _ _ hother hlater => FetchedByCount.succ hextensions hschema hother hlater) _).bucket
          bucket hplain (by omega)
    exact (hfetch start hfaithful).then_pure
  · intro records deferred middle hkeys
    exact fetchChildren_silent hkeys middle

/-- Chapters are read with their books and, later, the reviews of these: by two statements at
most.  For a chapter without a book no reviews are asked for. -/
theorem read_sends_within_count_reviewedChapters :
    laterCount chapterReader.schema reviewedChapters.rootPath reviewedChapters = 1 ∧
      (∃ outcome calls finish, Makes (chapterReader.read reviewedChapters) {} outcome calls finish ∧
        (∀ failure, outcome = .error failure → failure ≠ .tooDeep) ∧
        calls.length ≤
          1 + laterCount chapterReader.schema reviewedChapters.rootPath reviewedChapters) ∧
      Makes (Reader.fetchChildren (chapterReader.fetch 1)
        [[("book", .object [("id", .null)]), ("title", .string "Fragment")]]
        ⟨["book"], "review", .oneToMany ⟨"id", [{ name := "book" }]⟩
          ⟨"book_id", [{ name := "book" }, { name := "review" }]⟩, bookReviews⟩)
        {} (.ok []) [] {} := by
  have hextensions : ExtensionsFail chapterReader.extensions (· ≠ .tooDeep) :=
    fun _ hentry => absurd hentry List.not_mem_nil
  have hfaithful : Memo.Faithful chapterReader.schema (State.memo {}) := .empty chapteredBooks
  obtain ⟨hread, hsilent⟩ := read_sends_within_count hextensions readable_reviewedChapters.schema
    readable_reviewedChapters.plain hfaithful
  refine ⟨by decide, hread, hsilent _ _ {} fun record hrecord value hvalue => ?_⟩
  obtain rfl := List.mem_singleton.mp hrecord
  obtain rfl := Option.some.inj hvalue
  rfl

end Session

end TreeQuery
