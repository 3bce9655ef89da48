import TreeQuery.Proofs.Session.Fetching

/-!
# How deep reading goes

Fetching is given a bound on how many statements may follow one another.  What is read later
is nested less deep than the bucket it is read for, also through a junction, so the nesting
of a bucket is bound enough and no larger bound changes anything.
-/

namespace TreeQuery.Session

open Catalog (Link Memo Schema)

variable {schema : Schema} {reader : Reader} {bucket child : Bucket} {depth : Nat}

/-! ## Nesting -/

theorem nestingDepthOfElements_le_iff {elements : List Element} :
    nestingDepthOfElements elements ≤ depth ↔
      ∀ child, .bucket child ∈ elements → nestingDepth child ≤ depth := by
  induction elements with
  | nil => simp [nestingDepthOfElements]
  | cons element rest ih =>
      cases element with
      | bucket nested =>
          rw [nestingDepthOfElements, max_le_iff, ih]
          simp
      | _ =>
          rw [nestingDepthOfElements, ih]
          simp

theorem nestingDepth_le_succ_iff :
    nestingDepth bucket ≤ depth + 1 ↔
      ∀ child, .bucket child ∈ bucket.elements → nestingDepth child ≤ depth := by
  cases bucket
  rw [nestingDepth, Nat.add_le_add_iff_right, nestingDepthOfElements_le_iff]

theorem nestingDepth_pos (bucket : Bucket) : 0 < nestingDepth bucket := by
  cases bucket
  exact Nat.succ_pos _

theorem nestingDepth_childrenBucket (child : Bucket) (keyColumn : String) (keys : List Json)
    (hdepth : nestingDepth child ≤ depth) :
    nestingDepth (childrenBucket child keyColumn keys) ≤ depth := by
  obtain ⟨smaller, rfl⟩ : ∃ smaller, depth = smaller + 1 :=
    Nat.exists_eq_add_one.mpr ((nestingDepth_pos child).trans_le hdepth)
  rw [nestingDepth_le_succ_iff] at hdepth ⊢
  intro nested hnested
  rw [← mem_filterMap_bucket?, childrenBucket_buckets, mem_filterMap_bucket?] at hnested
  exact hdepth nested hnested

/-- What is read later is nested less deep than the elements it is read for. -/
theorem Defers.nestingDepth_le {place : Path} {path : List String} {elements : List Element}
    {deferred : Deferred} (hdefers : Defers schema place path elements deferred)
    (hdepth : ∀ child, .bucket child ∈ elements → nestingDepth child ≤ depth) :
    nestingDepth deferred.child ≤ depth := by
  induction hdefers with
  | own hchild => exact hdepth _ hchild
  | through hchild _ _ _ ih =>
      refine ih fun inner hinner => ?_
      have hnested := nestingDepth_le_succ_iff.mp
        ((hdepth _ hchild).trans (Nat.le_succ depth))
      exact hnested inner hinner

/-- Below a junction, only what the child itself defers is read later. -/
theorem Defers.nestingDepth_le_of_junction (hschema : schema.Plain) {source path : Path}
    {first second third fourth : Address}
    (hlink : schema.linkBetween source (path.child child.step) =
      .ok (some (.manyToMany first second third fourth))) {field : String} {keys : List Json}
    {deferred : Deferred} (hdepth : nestingDepth child ≤ depth + 1)
    (hdefers : Defers schema
      (junctionBucket child field second.path.tableName second.name third.name fourth.name
        keys).rootPath []
      (junctionBucket child field second.path.tableName second.name third.name fourth.name
        keys).elements deferred) :
    nestingDepth deferred.child ≤ depth := by
  have hjunction := throughJunction_of_link hschema hlink
  have htarget : ∀ nested, .bucket nested ∈ (junctionBucket child field
      second.path.tableName second.name third.name fourth.name keys).elements →
        nested = junctionTarget child field third.name fourth.name := by
    intro nested hnested
    rw [← mem_filterMap_bucket?, junctionBucket_buckets] at hnested
    exact List.mem_singleton.mp hnested
  cases hdefers with
  | own hnested hnestedLink hdeferred =>
      -- the target is joined to the junction, so it is not read later itself
      obtain rfl := htarget _ hnested
      obtain rfl := Option.some.inj
        (Except.ok.inj (hnestedLink.symm.trans (hjunction.joined field)))
      cases hdeferred
  | through hnested _ _ hdefers =>
      obtain rfl := htarget _ hnested
      refine hdefers.nestingDepth_le fun inner hinner => ?_
      rw [← mem_filterMap_bucket?, junctionTarget_buckets, mem_filterMap_bucket?] at hinner
      exact nestingDepth_le_succ_iff.mp hdepth inner hinner

/-! ## Induction on the nesting -/

/-- A property holds of every bucket that is read for what is read later. -/
structure LaterHolds (schema : Schema) (holds : Bucket → Prop) (bucket : Bucket) : Prop where
  children : ∀ deferred, Defers schema bucket.rootPath [] bucket.elements deferred →
    ∀ source target, deferred.link = .oneToMany source target → ∀ keys,
      holds (childrenBucket deferred.child target.name keys)
  junction : ∀ deferred, Defers schema bucket.rootPath [] bucket.elements deferred →
    ∀ first second third fourth, deferred.link = .manyToMany first second third fourth →
      ∀ keys, holds (junctionBucket deferred.child deferred.field second.path.tableName
        second.name third.name fourth.name keys)

/-- A property holds of every bucket that is nested no deeper than a bound, and of the
junction of every child that is. -/
structure HoldsWithin (schema : Schema) (holds : Bucket → Prop) (depth : Nat) : Prop where
  bucket : ∀ bucket : Bucket, bucket.Plain → nestingDepth bucket ≤ depth → holds bucket
  junction : ∀ (source path : Path) (child : Bucket) (first second third fourth : Address),
    schema.linkBetween source (path.child child.step) =
      .ok (some (.manyToMany first second third fourth)) →
    child.Plain → nestingDepth child ≤ depth → ∀ keys,
      holds (junctionBucket child child.outputName second.path.tableName second.name third.name
        fourth.name keys)

theorem HoldsWithin.laterHolds {holds : Bucket → Prop} (hholds : HoldsWithin schema holds depth)
    (hschema : schema.Plain) (hplain : bucket.Plain)
    (hdepth : ∀ deferred, Defers schema bucket.rootPath [] bucket.elements deferred →
      nestingDepth deferred.child ≤ depth) : LaterHolds schema holds bucket := by
  refine ⟨fun deferred hdefers => ?_, fun deferred hdefers => ?_⟩
  all_goals
    obtain ⟨rest, place, elements, -, hreached, hchild, hlink, -, hfield⟩ := hdefers.reached
    obtain ⟨-, -, -, -, hdeep⟩ := hreached.exists_steps (.of_bucket hplain)
    have hchildPlain := hdeep.children _ hchild
    have hchildDepth := hdepth deferred hdefers
  · intro source target hkind keys
    rw [hkind] at hlink
    have hcolumn := ((Schema.linkBetween_ok hlink).plainNames hschema).2
    exact hholds.bucket _ (childrenBucket_plain hchildPlain hcolumn keys)
      (nestingDepth_childrenBucket _ _ _ hchildDepth)
  · intro first second third fourth hkind keys
    rw [hkind] at hlink
    rw [hfield]
    exact hholds.junction _ _ _ _ _ _ _ hlink hchildPlain hchildDepth keys

/-- What holds of a bucket with the next bound, if it holds of what is read later with the
bound, holds with every bound of all that is nested no deeper.  The induction is on the
bound, for buckets and for the junctions of children at once. -/
theorem holdsWithin_of_later {holds : Nat → Bucket → Prop} (hschema : schema.Plain)
    (hlater : ∀ depth bucket, bucket.Plain → LaterHolds schema (holds depth) bucket →
      holds (depth + 1) bucket) : ∀ depth, HoldsWithin schema (holds depth) depth
  | 0 =>
      ⟨fun bucket _ hdepth => absurd hdepth (nestingDepth_pos bucket).not_ge,
        fun _ _ child _ _ _ _ _ _ hdepth => absurd hdepth (nestingDepth_pos child).not_ge⟩
  | depth + 1 => by
      have ih := holdsWithin_of_later hschema hlater depth
      constructor
      · intro bucket hplain hdepth
        refine hlater depth bucket hplain (ih.laterHolds hschema hplain fun deferred hdefers => ?_)
        exact hdefers.nestingDepth_le (nestingDepth_le_succ_iff.mp hdepth)
      · intro source path child first second third fourth hlink hplain hdepth keys
        have hjunction := (throughJunction_of_link hschema hlink).plain hplain keys
        refine hlater depth _ hjunction (ih.laterHolds hschema hjunction
          fun deferred hdefers => ?_)
        exact hdefers.nestingDepth_le_of_junction hschema hlink hdepth

/-! ## Bounds -/

/-- From every state with a faithful memory, a larger bound changes nothing about how the
bucket is fetched. -/
def DeepEnough (reader : Reader) (depth : Nat) (bucket : Bucket) : Prop :=
  ∀ larger, depth ≤ larger → ∀ start, Memo.Faithful reader.schema start.memo →
    RunsLike (reader.fetch larger bucket) (reader.fetch depth bucket) start

/-- Children are fetched alike when the buckets that read them are. -/
theorem fetchChildren_runsLike {read other : Bucket → Run Fetched} {records : List Record}
    {deferred : Deferred} {start : State}
    (hchildren : ∀ source target, deferred.link = .oneToMany source target → ∀ keys,
      RunsLike (read (childrenBucket deferred.child target.name keys))
        (other (childrenBucket deferred.child target.name keys)) start)
    (hjunction : ∀ first second third fourth,
      deferred.link = .manyToMany first second third fourth → ∀ keys,
        RunsLike (read (junctionBucket deferred.child deferred.field second.path.tableName
            second.name third.name fourth.name keys))
          (other (junctionBucket deferred.child deferred.field second.path.tableName
            second.name third.name fourth.name keys)) start) :
    RunsLike (Reader.fetchChildren read records deferred)
      (Reader.fetchChildren other records deferred) start := by
  rw [Reader.fetchChildren, Reader.fetchChildren]
  generalize parentKeys records deferred.path deferred.link.source.name = keys
  cases keys.isEmpty with
  | true => exact .refl _ start
  | false =>
      cases hlink : deferred.link with
      | manyToOne source target => exact .refl _ start
      | oneToMany source target =>
          exact .bind (hchildren source target hlink keys) fun _ _ _ => .refl _ _
      | manyToMany first second third fourth =>
          exact .bind (hjunction first second third fourth hlink keys) fun _ _ _ => .refl _ _

/-- A bucket needs one statement more than what is read later. -/
theorem DeepEnough.succ (hschema : reader.schema.Plain) (hplain : bucket.Plain)
    (hlater : LaterHolds reader.schema (DeepEnough reader depth) bucket) :
    DeepEnough reader (depth + 1) bucket := by
  intro larger hlarger start hfaithful
  obtain ⟨more, rfl⟩ : ∃ more, larger = more + 1 := ⟨larger - 1, by omega⟩
  have hmore : depth ≤ more := Nat.le_of_succ_le_succ hlarger
  rw [Reader.fetch, Reader.fetch]
  refine .bind (.refl _ start) ?_
  rintro ⟨prepared, found⟩ first hprepare
  refine .bind (.refl _ first) fun rows second hrows => ?_
  obtain ⟨hprepare, -⟩ := planning_succeeds hprepare
  obtain ⟨query, outcome, hbuild, -⟩ := fetchRows_succeeds hrows
  obtain ⟨hsecond, -, hprepares, -⟩ := plan_succeeds hschema hplain hfaithful hprepare hbuild
  obtain ⟨root, hroot, -⟩ := hplain.exists_root
  have hdefers : ∀ deferred ∈ found.deferred,
      Defers reader.schema bucket.rootPath [] bucket.elements deferred := by
    obtain ⟨later, hfound, hmem⟩ := hprepares.deferred_eq
    intro deferred hdeferred
    rw [hfound] at hdeferred
    exact (hmem deferred).mp hdeferred
  rw [hroot] at hprepares
  have hrefl : ∀ state, Follows reader.schema state state := .refl
  refine .bind (.mapM hrefl .trans
    (fun deferred hdeferred middle value later hfollows hrun => ?_)
    fun deferred hdeferred middle hfollows => ?_) fun _ _ _ => .refl _ _
  · obtain ⟨hchild, hkind, hfield, place, hlink⟩ := hprepares.nested_plain hplain hdeferred
    exact fetchChildren_follows hschema
      (fun _ _ _ _ hother hmemo hread => fetch_follows hschema hother hmemo hread)
      hchild hlink hkind hfield (hfollows.faithful hsecond) hrun
  · have hmiddle := hfollows.faithful hsecond
    exact fetchChildren_runsLike
      (fun source target hlink keys => hlater.children deferred (hdefers deferred hdeferred)
        source target hlink keys more hmore middle hmiddle)
      fun first second third fourth hlink keys => hlater.junction deferred
        (hdefers deferred hdeferred) first second third fourth hlink keys more hmore middle
          hmiddle

/-- The bound on what is read in a row is never met: any other that covers the nesting of the
bucket gives the same outcome, the same calls and the same memory. -/
theorem fetch_of_nestingDepth_le (hschema : reader.schema.Plain) (hplain : bucket.Plain)
    {start : State} (hfaithful : Memo.Faithful reader.schema start.memo)
    (hdepth : nestingDepth bucket ≤ depth) :
    RunsLike (reader.fetch depth bucket) (reader.fetch (2 * nestingDepth bucket) bucket)
      start := by
  have henough := (holdsWithin_of_later hschema
    (fun _ _ hother hlater => DeepEnough.succ hschema hother hlater) _).bucket bucket hplain
      (le_refl (nestingDepth bucket))
  have hbound : nestingDepth bucket ≤ 2 * nestingDepth bucket := by omega
  exact (henough depth hdepth start hfaithful).trans
    (henough _ hbound start hfaithful).symm

end TreeQuery.Session
