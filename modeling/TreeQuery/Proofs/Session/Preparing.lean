import TreeQuery.Proofs.Session.Sites

/-!
# Preparing a bucket

Preparation takes every nested bucket that is read later out of its parent, and adds
the key column it needs to the parent unless the parent asks for it already.  What
preparation does is said once, by `Prepares`; what is known of a prepared bucket
follows by induction on it.
-/

namespace TreeQuery.Session

open Catalog (DescendAll Descends Link Memo Schema)

/-- Elements with their key columns added and the buckets that are read later taken
out, and the findings before and after. -/
inductive Prepares (schema : Schema) :
    Path → List String → List String → Findings → List Element → List Element → Findings → Prop
  | nil {place : Path} {path requested : List String} {findings : Findings} :
      Prepares schema place path requested findings [] [] findings
  | deferred {place : Path} {path requested : List String} {findings after : Findings}
      {child : Bucket} {link : Link} {rest others : List Element}
      (hlink : schema.linkBetween place (place.child child.step) = .ok (some link))
      (hdeferred : link.isDeferred = true)
      (hrest : Prepares schema place path requested
        { (findings.needKey requested ⟨path, link.source.name⟩).2 with
          deferred := (findings.needKey requested ⟨path, link.source.name⟩).2.deferred ++
            [⟨path, child.outputName, link, child⟩] } rest others after) :
      Prepares schema place path requested findings (.bucket child :: rest)
        ((findings.needKey requested ⟨path, link.source.name⟩).1 ++ others) after
  | joined {place : Path} {path requested : List String} {findings middle after : Findings}
      {child : Bucket} {link : Link} {elements rest others : List Element}
      (hlink : schema.linkBetween place (place.child child.step) = .ok (some link))
      (hjoined : link.isDeferred = false)
      (hchild : Prepares schema (place.child child.step) (path ++ [child.outputName])
        child.columns findings child.elements elements middle)
      (hrest : Prepares schema place path requested middle rest others after) :
      Prepares schema place path requested findings (.bucket child :: rest)
        (.bucket { child with elements } :: others) after
  | other {place : Path} {path requested : List String} {findings after : Findings}
      {element : Element} {rest others : List Element} (hother : element.bucket? = none)
      (hrest : Prepares schema place path requested findings rest others after) :
      Prepares schema place path requested findings (element :: rest) (element :: others) after

variable {schema : Schema} {memo after : Memo}

/-- An element that is kept goes in front of what the rest is prepared to. -/
theorem kept_succeeds {element : Element} {result : List Element} {found : Findings}
    {step : Catalog.Lookup Failure (List Element × Findings)}
    (hrun : Succeeds (do let (others, found) ← step; return (element :: others, found)) memo
      (result, found) after) :
    ∃ others, result = element :: others ∧ Succeeds step memo (others, found) after := by
  obtain ⟨⟨others, findings⟩, middle, hstep, hpure⟩ := Succeeds.bind_iff.mp hrun
  obtain ⟨hsame, rfl⟩ := Succeeds.pure_iff.mp hpure
  obtain ⟨rfl, rfl⟩ := Prod.mk.inj hsame
  exact ⟨others, rfl, hstep⟩

mutual

/-- Preparing asks for the links of plain paths and does what `Prepares` says. -/
theorem prepare_succeeds (hschema : schema.Plain) : ∀ {bucket prepared : Bucket} {place : Path}
    {path : List String} {findings found : Findings} {memo after : Memo},
      Memo.Faithful schema memo → Path.Plain place → DescendAll Path.Plain bucket.elements →
        Succeeds (prepare schema place path findings bucket) memo (prepared, found) after →
          Memo.Grows schema Path.Plain memo after ∧
            prepared = { bucket with elements := prepared.elements } ∧
              Prepares schema place path bucket.columns findings bucket.elements
                prepared.elements found
  | ⟨name, qualifier, label, elements⟩, _, place, _, _, _, _, _, hfaithful, hplace, hdescend,
      hrun => by
      rw [prepare] at hrun
      obtain ⟨⟨others, result⟩, middle, helements, hpure⟩ := Succeeds.bind_iff.mp hrun
      obtain ⟨hsame, rfl⟩ := Succeeds.pure_iff.mp hpure
      obtain ⟨rfl, rfl⟩ := Prod.mk.inj hsame
      obtain ⟨hgrows, hprepares⟩ :=
        prepareElements_succeeds hschema hfaithful hplace hdescend helements
      exact ⟨hgrows, rfl, hprepares⟩

theorem prepareElements_succeeds (hschema : schema.Plain) : ∀ {elements others : List Element}
    {place : Path} {path requested : List String} {findings found : Findings}
    {memo after : Memo}, Memo.Faithful schema memo → Path.Plain place →
      DescendAll Path.Plain elements →
        Succeeds (prepareElements schema place path requested findings elements) memo
          (others, found) after →
          Memo.Grows schema Path.Plain memo after ∧
            Prepares schema place path requested findings elements others found
  | [], _, _, _, _, _, _, _, _, _, _, _, hrun => by
      rw [prepareElements] at hrun
      obtain ⟨hsame, rfl⟩ := Succeeds.pure_iff.mp hrun
      obtain ⟨rfl, rfl⟩ := Prod.mk.inj hsame
      exact ⟨.refl, .nil⟩
  | .bucket child :: rest, _, place, path, requested, findings, _, memo, _, hfaithful, hplace,
      hdescend, hrun => by
      rw [prepareElements] at hrun
      have hchild : Descends Path.Plain child := hdescend child List.mem_cons_self
      have hchildPlace : Path.Plain (place.child child.step) := hchild child .self place hplace
      obtain ⟨link, linked, hlinked, hrest⟩ := Succeeds.bind_iff.mp hrun
      obtain ⟨hanswer, hgrows, -⟩ :=
        Schema.link_succeeds hplace hchildPlace (Succeeds.adapt_iff.mp hlinked)
      have hlink := hfaithful.linkAnswer? hplace hchildPlace hanswer
      have hlater := hfaithful.grows hschema hgrows
      split at hrest
      · next hdeferred =>
          obtain ⟨⟨others, result⟩, middle, helements, hpure⟩ := Succeeds.bind_iff.mp hrest
          obtain ⟨hsame, rfl⟩ := Succeeds.pure_iff.mp hpure
          obtain ⟨rfl, rfl⟩ := Prod.mk.inj hsame
          obtain ⟨hmore, hprepares⟩ :=
            prepareElements_succeeds hschema hlater hplace hdescend.tail helements
          exact ⟨hgrows.trans hmore, .deferred hlink hdeferred hprepares⟩
      · next hjoined =>
          obtain ⟨⟨prepared, found⟩, middle, hprepare, hrest⟩ := Succeeds.bind_iff.mp hrest
          obtain ⟨⟨others, result⟩, last, helements, hpure⟩ := Succeeds.bind_iff.mp hrest
          obtain ⟨hsame, rfl⟩ := Succeeds.pure_iff.mp hpure
          obtain ⟨rfl, rfl⟩ := Prod.mk.inj hsame
          obtain ⟨hinner, hprepared, hchildPrepares⟩ :=
            prepare_succeeds hschema hlater hchildPlace hchild.elements hprepare
          obtain ⟨hmore, hprepares⟩ := prepareElements_succeeds hschema
            (hlater.grows hschema hinner) hplace hdescend.tail helements
          refine ⟨(hgrows.trans hinner).trans hmore, ?_⟩
          rw [hprepared]
          exact .joined hlink (Bool.eq_false_of_not_eq_true hjoined) hchildPrepares hprepares
  | .item _ :: rest, _, _, _, _, _, _, _, _, hfaithful, hplace, hdescend, hrun
  | .clause _ :: rest, _, _, _, _, _, _, _, _, hfaithful, hplace, hdescend, hrun
  | .slice _ :: rest, _, _, _, _, _, _, _, _, hfaithful, hplace, hdescend, hrun
  | .total :: rest, _, _, _, _, _, _, _, _, hfaithful, hplace, hdescend, hrun
  | .beacon _ :: rest, _, _, _, _, _, _, _, _, hfaithful, hplace, hdescend, hrun => by
      rw [prepareElements] at hrun
      obtain ⟨others, rfl, hrest⟩ := kept_succeeds hrun
      obtain ⟨hgrows, hprepares⟩ :=
        prepareElements_succeeds hschema hfaithful hplace hdescend.tail hrest
      exact ⟨hgrows, .other rfl hprepares⟩

end

/-! ## What is read later -/

/-- A nested bucket is read later, below the elements at a place. -/
inductive Defers (schema : Schema) : Path → List String → List Element → Deferred → Prop
  | own {place : Path} {path : List String} {elements : List Element} {child : Bucket}
      {link : Link} (hchild : .bucket child ∈ elements)
      (hlink : schema.linkBetween place (place.child child.step) = .ok (some link))
      (hdeferred : link.isDeferred = true) :
      Defers schema place path elements ⟨path, child.outputName, link, child⟩
  | through {place : Path} {path : List String} {elements : List Element} {child : Bucket}
      {link : Link} {deferred : Deferred} (hchild : .bucket child ∈ elements)
      (hlink : schema.linkBetween place (place.child child.step) = .ok (some link))
      (hjoined : link.isDeferred = false)
      (hdefers : Defers schema (place.child child.step) (path ++ [child.outputName])
        child.elements deferred) :
      Defers schema place path elements deferred

namespace Defers

variable {place : Path} {path : List String} {elements : List Element} {deferred : Deferred}

theorem cons {element : Element} (hdefers : Defers schema place path elements deferred) :
    Defers schema place path (element :: elements) deferred := by
  cases hdefers with
  | own hchild hlink hdeferred => exact .own (List.mem_cons_of_mem _ hchild) hlink hdeferred
  | through hchild hlink hjoined hdefers =>
      exact .through (List.mem_cons_of_mem _ hchild) hlink hjoined hdefers

/-- What is read later stands beside other elements that are reached. -/
theorem reached (hdefers : Defers schema place path elements deferred) :
    ∃ rest deepPlace deepElements, deferred.path = path ++ rest ∧
      Reached schema place elements rest deepPlace deepElements ∧
      .bucket deferred.child ∈ deepElements ∧
      schema.linkBetween deepPlace (deepPlace.child deferred.child.step) =
        .ok (some deferred.link) ∧
      deferred.link.isDeferred = true ∧ deferred.field = deferred.child.outputName := by
  induction hdefers with
  | own hchild hlink hdeferred =>
      exact ⟨[], _, _, (List.append_nil _).symm, .here, hchild, hlink, hdeferred, rfl⟩
  | through hchild hlink hjoined _ ih =>
      obtain ⟨rest, deepPlace, deepElements, hpath, hreached, hdeep⟩ := ih
      rw [List.append_assoc] at hpath
      exact ⟨_, deepPlace, deepElements, hpath, .through hchild hlink hjoined hreached, hdeep⟩

theorem of_reached {rest : List String} {deepPlace : Path} {deepElements : List Element}
    (hreached : Reached schema place elements rest deepPlace deepElements) {child : Bucket}
    {link : Link} (hchild : .bucket child ∈ deepElements)
    (hlink : schema.linkBetween deepPlace (deepPlace.child child.step) = .ok (some link))
    (hdeferred : link.isDeferred = true) :
    Defers schema place path elements ⟨path ++ rest, child.outputName, link, child⟩ := by
  induction hreached generalizing path with
  | here =>
      rw [List.append_nil]
      exact .own hchild hlink hdeferred
  | @through place _ elements _ nested _ rest hnested hnestedLink hjoined _ ih =>
      have hdeep : Defers schema (place.child nested.step) (path ++ [nested.outputName])
          nested.elements ⟨path ++ [nested.outputName] ++ rest, child.outputName, link, child⟩ :=
        ih hchild hlink
      rw [List.append_assoc] at hdeep
      exact .through hnested hnestedLink hjoined hdeep

/-- What is read later for a list of elements is read for the first one or for the
others. -/
theorem of_cons {element : Element}
    (hdefers : Defers schema place path (element :: elements) deferred) :
    (∃ child link, element = .bucket child ∧
      schema.linkBetween place (place.child child.step) = .ok (some link) ∧
        (link.isDeferred = true ∧ deferred = ⟨path, child.outputName, link, child⟩ ∨
          link.isDeferred = false ∧ Defers schema (place.child child.step)
            (path ++ [child.outputName]) child.elements deferred)) ∨
      Defers schema place path elements deferred := by
  cases hdefers with
  | own hchild hlink hdeferred =>
      rcases List.mem_cons.mp hchild with rfl | hchild
      · exact .inl ⟨_, _, rfl, hlink, .inl ⟨hdeferred, rfl⟩⟩
      · exact .inr (.own hchild hlink hdeferred)
  | through hchild hlink hjoined hdefers =>
      rcases List.mem_cons.mp hchild with rfl | hchild
      · exact .inl ⟨_, _, rfl, hlink, .inr ⟨hjoined, hdefers⟩⟩
      · exact .inr (.through hchild hlink hjoined hdefers)

theorem not_nil : ¬ Defers schema place path [] deferred := by
  rintro (⟨hchild, -, -⟩ | ⟨hchild, -, -, -⟩) <;> cases hchild

/-- A bucket that is read later by itself hides what is nested in it. -/
theorem cons_deferred_iff {child : Bucket} {link : Link}
    (hlink : schema.linkBetween place (place.child child.step) = .ok (some link))
    (hdeferred : link.isDeferred = true) :
    Defers schema place path (.bucket child :: elements) deferred ↔
      deferred = ⟨path, child.outputName, link, child⟩ ∨
        Defers schema place path elements deferred := by
  constructor
  · intro hdefers
    rcases hdefers.of_cons with ⟨nested, other, hsame, hother, hcase⟩ | hdefers
    · obtain rfl := ElementOf.bucket.inj hsame
      obtain rfl := Schema.linkBetween_unique hlink hother
      rcases hcase with ⟨-, hown⟩ | ⟨hjoined, -⟩
      · exact .inl hown
      · rw [hdeferred] at hjoined
        cases hjoined
    · exact .inr hdefers
  · rintro (rfl | hdefers)
    · exact .own List.mem_cons_self hlink hdeferred
    · exact hdefers.cons

theorem cons_joined_iff {child : Bucket} {link : Link}
    (hlink : schema.linkBetween place (place.child child.step) = .ok (some link))
    (hjoined : link.isDeferred = false) :
    Defers schema place path (.bucket child :: elements) deferred ↔
      Defers schema (place.child child.step) (path ++ [child.outputName]) child.elements
          deferred ∨
        Defers schema place path elements deferred := by
  constructor
  · intro hdefers
    rcases hdefers.of_cons with ⟨nested, other, hsame, hother, hcase⟩ | hdefers
    · obtain rfl := ElementOf.bucket.inj hsame
      obtain rfl := Schema.linkBetween_unique hlink hother
      rcases hcase with ⟨hdeferred, -⟩ | ⟨-, hbelow⟩
      · rw [hdeferred] at hjoined
        cases hjoined
      · exact .inl hbelow
    · exact .inr hdefers
  · rintro (hdefers | hdefers)
    · exact .through List.mem_cons_self hlink hjoined hdefers
    · exact hdefers.cons

theorem cons_other_iff {element : Element} (hother : element.bucket? = none) :
    Defers schema place path (element :: elements) deferred ↔
      Defers schema place path elements deferred := by
  constructor
  · intro hdefers
    rcases hdefers.of_cons with ⟨nested, link, rfl, -⟩ | hdefers
    · cases hother
    · exact hdefers
  · exact cons

end Defers

theorem needKey_deferred (findings : Findings) (requested : List String) (key : AddedKey) :
    (findings.needKey requested key).2.deferred = findings.deferred := by
  rw [Findings.needKey]
  split <;> rfl

/-- A key column that is needed was asked for, was added before, or is added now. -/
theorem needKey_cases (findings : Findings) (requested : List String) (key : AddedKey) :
    (key.column ∈ requested ∨ key ∈ findings.added) ∧
        findings.needKey requested key = ([], findings) ∨
      key.column ∉ requested ∧ findings.needKey requested key =
        ([.item (.column key.column)], { findings with added := findings.added ++ [key] }) := by
  rw [Findings.needKey]
  by_cases hrequested : key.column ∈ requested
  · have hknown : requested.contains key.column = true := List.contains_iff_mem.mpr hrequested
    rw [hknown]
    exact .inl ⟨.inl hrequested, rfl⟩
  · by_cases hadded : key ∈ findings.added
    · have hknown : findings.added.contains key = true := List.contains_iff_mem.mpr hadded
      rw [hknown, Bool.or_true]
      exact .inl ⟨.inr hadded, rfl⟩
    · right
      refine ⟨hrequested, if_neg ?_⟩
      rw [Bool.or_eq_true, List.contains_iff_mem, List.contains_iff_mem]
      exact not_or.mpr ⟨hrequested, hadded⟩

/-- Of a key that is needed it is known where its column comes from. -/
theorem needKey_known (findings : Findings) (requested : List String) (key : AddedKey) :
    key.column ∈ requested ∨ key ∈ findings.added ∨
      .item (.column key.column) ∈ (findings.needKey requested key).1 := by
  rcases needKey_cases findings requested key with ⟨hrequested | hadded, -⟩ | ⟨-, hsame⟩
  · exact .inl hrequested
  · exact .inr (.inl hadded)
  · rw [hsame]
    exact .inr (.inr List.mem_cons_self)

theorem mem_added_needKey_iff {findings : Findings} {requested : List String}
    {key other : AddedKey} :
    other ∈ (findings.needKey requested key).2.added ↔
      other ∈ findings.added ∨ other = key ∧ key.column ∉ requested := by
  rcases needKey_cases findings requested key with ⟨hknown, hsame⟩ | ⟨hunasked, hsame⟩
  · rw [hsame]
    constructor
    · exact .inl
    · rintro (hadded | ⟨rfl, hunasked⟩)
      · exact hadded
      · exact hknown.resolve_left hunasked
  · rw [hsame, List.mem_append, List.mem_singleton]
    exact or_congr_right (and_iff_left hunasked).symm

/-- Nothing but a column is added. -/
theorem eq_of_mem_needKey {findings : Findings} {requested : List String} {key : AddedKey}
    {element : Element} (helement : element ∈ (findings.needKey requested key).1) :
    element = .item (.column key.column) := by
  rcases needKey_cases findings requested key with ⟨-, hsame⟩ | ⟨-, hsame⟩
  · rw [hsame] at helement
    cases helement
  · rw [hsame] at helement
    exact List.mem_singleton.mp helement

/-- A key column is added below the elements at a place: a bucket that is read later
needs it, and it was not asked for beside that bucket. -/
inductive Adds (schema : Schema) :
    Path → List String → List String → List Element → AddedKey → Prop
  | own {place : Path} {path requested : List String} {elements : List Element} {child : Bucket}
      {link : Link} (hchild : .bucket child ∈ elements)
      (hlink : schema.linkBetween place (place.child child.step) = .ok (some link))
      (hdeferred : link.isDeferred = true) (hunasked : link.source.name ∉ requested) :
      Adds schema place path requested elements ⟨path, link.source.name⟩
  | through {place : Path} {path requested : List String} {elements : List Element}
      {child : Bucket} {link : Link} {key : AddedKey} (hchild : .bucket child ∈ elements)
      (hlink : schema.linkBetween place (place.child child.step) = .ok (some link))
      (hjoined : link.isDeferred = false)
      (hadds : Adds schema (place.child child.step) (path ++ [child.outputName]) child.columns
        child.elements key) :
      Adds schema place path requested elements key

theorem mem_columns {bucket : Bucket} {name : String} :
    name ∈ bucket.columns ↔ .item (.column name) ∈ bucket.elements := by
  rw [Bucket.columns, List.mem_filterMap]
  constructor
  · rintro ⟨element, helement, hcolumn⟩
    cases element with
    | item item =>
        cases item with
        | column other =>
            obtain rfl := Option.some.inj hcolumn
            exact helement
        | row row => cases hcolumn
    | _ => cases hcolumn
  · exact fun hcolumn => ⟨_, hcolumn, rfl⟩

section Prefixes

variable {path whole : List String} {name other : String}

theorem not_concat_prefix : ¬ path ++ [name] <+: path := by
  intro habove
  have hlength := habove.length_le
  simp at hlength

theorem concat_prefix_inj (hname : path ++ [name] <+: whole) (hother : path ++ [other] <+: whole) :
    name = other := by
  have hsame : path ++ [name] = path ++ [other] :=
    (List.prefix_of_prefix_length_le hname hother (by simp)).eq_of_length (by simp)
  exact List.singleton_inj.mp (List.append_cancel_left hsame)

end Prefixes

namespace Adds

variable {place : Path} {path requested : List String} {elements : List Element} {key : AddedKey}

theorem cons {element : Element} (hadds : Adds schema place path requested elements key) :
    Adds schema place path requested (element :: elements) key := by
  cases hadds with
  | own hchild hlink hdeferred hunasked =>
      exact .own (List.mem_cons_of_mem _ hchild) hlink hdeferred hunasked
  | through hchild hlink hjoined hadds =>
      exact .through (List.mem_cons_of_mem _ hchild) hlink hjoined hadds

/-- A key is added at the path or below it. -/
theorem above (hadds : Adds schema place path requested elements key) : path <+: key.path := by
  induction hadds with
  | own => exact List.prefix_rfl
  | through _ _ _ _ ih => exact (List.prefix_append _ _).trans ih

/-- A key is added at the path itself, or below a bucket that is nested there. -/
theorem own_or_below (hadds : Adds schema place path requested elements key) :
    key.path = path ∨
      ∃ child, .bucket child ∈ elements ∧ path ++ [child.outputName] <+: key.path := by
  cases hadds with
  | own => exact .inl rfl
  | through hchild _ _ hbelow => exact .inr ⟨_, hchild, hbelow.above⟩

/-- An added key belongs to a level at which it was not asked for, and a bucket there is
read later by it. -/
theorem reached (hrequested : ∀ name, .item (.column name) ∈ elements → name ∈ requested)
    (hadds : Adds schema place path requested elements key) :
    ∃ rest deepPlace deepElements child link, key.path = path ++ rest ∧
      Reached schema place elements rest deepPlace deepElements ∧ .bucket child ∈ deepElements ∧
      schema.linkBetween deepPlace (deepPlace.child child.step) = .ok (some link) ∧
      link.isDeferred = true ∧ key.column = link.source.name ∧
      .item (.column key.column) ∉ deepElements := by
  induction hadds with
  | own hchild hlink hdeferred hunasked =>
      exact ⟨[], _, _, _, _, (List.append_nil _).symm, .here, hchild, hlink, hdeferred, rfl,
        fun hcolumn => hunasked (hrequested _ hcolumn)⟩
  | through hchild hlink hjoined _ ih =>
      obtain ⟨rest, deepPlace, deepElements, nested, other, hpath, hreached, hdeep⟩ :=
        ih fun name => mem_columns.mpr
      rw [List.append_assoc] at hpath
      exact ⟨_, deepPlace, deepElements, nested, other, hpath,
        .through hchild hlink hjoined hreached, hdeep⟩

end Adds

namespace Prepares

variable {place : Path} {path requested : List String} {findings found : Findings}
  {elements others : List Element}

/-! ### The first element and the others -/

theorem of_deferred {child : Bucket} {link : Link}
    (hlink : schema.linkBetween place (place.child child.step) = .ok (some link))
    (hdeferred : link.isDeferred = true)
    (hprepares : Prepares schema place path requested findings (.bucket child :: elements) others
      found) :
    ∃ behind, others = (findings.needKey requested ⟨path, link.source.name⟩).1 ++ behind ∧
      Prepares schema place path requested
        { (findings.needKey requested ⟨path, link.source.name⟩).2 with
          deferred := (findings.needKey requested ⟨path, link.source.name⟩).2.deferred ++
            [⟨path, child.outputName, link, child⟩] } elements behind found := by
  cases hprepares with
  | other hother => cases hother
  | deferred hother hkind hrest =>
      obtain rfl := Schema.linkBetween_unique hlink hother
      exact ⟨_, rfl, hrest⟩
  | joined hother hjoined =>
      rw [← Schema.linkBetween_unique hlink hother, hdeferred] at hjoined
      cases hjoined

theorem of_joined {child : Bucket} {link : Link}
    (hlink : schema.linkBetween place (place.child child.step) = .ok (some link))
    (hjoined : link.isDeferred = false)
    (hprepares : Prepares schema place path requested findings (.bucket child :: elements) others
      found) :
    ∃ inner middle behind, others = .bucket { child with elements := inner } :: behind ∧
      Prepares schema (place.child child.step) (path ++ [child.outputName]) child.columns findings
        child.elements inner middle ∧
      Prepares schema place path requested middle elements behind found := by
  cases hprepares with
  | other hother => cases hother
  | deferred hother hdeferred =>
      rw [← Schema.linkBetween_unique hlink hother, hjoined] at hdeferred
      cases hdeferred
  | joined hother hkind hchild hrest => exact ⟨_, _, _, rfl, hchild, hrest⟩

theorem of_other {element : Element} (hother : element.bucket? = none)
    (hprepares : Prepares schema place path requested findings (element :: elements) others
      found) :
    ∃ behind, others = element :: behind ∧
      Prepares schema place path requested findings elements behind found := by
  cases hprepares with
  | deferred => cases hother
  | joined => cases hother
  | other _ hrest => exact ⟨_, rfl, hrest⟩

/-- Elements are prepared one after the other. -/
theorem of_append {first second : List Element}
    (hprepares : Prepares schema place path requested findings (first ++ second) others found) :
    ∃ middle front behind, others = front ++ behind ∧
      Prepares schema place path requested findings first front middle ∧
      Prepares schema place path requested middle second behind found := by
  induction first generalizing findings others with
  | nil => exact ⟨findings, [], others, rfl, .nil, hprepares⟩
  | cons element first ih =>
      cases hprepares with
      | deferred hlink hdeferred hrest =>
          obtain ⟨middle, front, behind, rfl, hfirst, hsecond⟩ := ih hrest
          exact ⟨middle, _, behind, (List.append_assoc _ front behind).symm,
            .deferred hlink hdeferred hfirst, hsecond⟩
      | joined hlink hjoined hchild hrest =>
          obtain ⟨middle, front, behind, rfl, hfirst, hsecond⟩ := ih hrest
          exact ⟨middle, _, behind, rfl, .joined hlink hjoined hchild hfirst, hsecond⟩
      | other hother hrest =>
          obtain ⟨middle, front, behind, rfl, hfirst, hsecond⟩ := ih hrest
          exact ⟨middle, _, behind, rfl, .other hother hfirst, hsecond⟩

/-! ### What is found -/

/-- Exactly what is read later is found. -/
theorem deferred_eq (hprepares : Prepares schema place path requested findings elements others
    found) :
    ∃ later, found.deferred = findings.deferred ++ later ∧
      ∀ deferred, deferred ∈ later ↔ Defers schema place path elements deferred := by
  induction hprepares with
  | nil => exact ⟨[], (List.append_nil _).symm, fun _ => iff_of_false nofun Defers.not_nil⟩
  | @deferred place path requested findings after child link rest others hlink hdeferred hrest
      ih =>
      obtain ⟨later, hlater, hmem⟩ := ih
      refine ⟨⟨path, child.outputName, link, child⟩ :: later, ?_, fun deferred => ?_⟩
      · rw [hlater, needKey_deferred, List.append_assoc, List.singleton_append]
      · rw [List.mem_cons, hmem, Defers.cons_deferred_iff hlink hdeferred]
  | @joined place path requested findings middle after child link elements rest others hlink
      hjoined hchild hrest ihchild ihrest =>
      obtain ⟨below, hbelow, hmemBelow⟩ := ihchild
      obtain ⟨later, hlater, hmem⟩ := ihrest
      refine ⟨below ++ later, ?_, fun deferred => ?_⟩
      · rw [hlater, hbelow, List.append_assoc]
      · rw [List.mem_append, hmemBelow, hmem, Defers.cons_joined_iff hlink hjoined]
  | other hother hrest ih =>
      obtain ⟨later, hlater, hmem⟩ := ih
      refine ⟨later, hlater, fun deferred => ?_⟩
      rw [hmem, Defers.cons_other_iff hother]

/-- Only keys that are needed and were not asked for are added. -/
theorem added_eq (hprepares : Prepares schema place path requested findings elements others
    found) :
    ∃ more, found.added = findings.added ++ more ∧
      ∀ key ∈ more, Adds schema place path requested elements key := by
  induction hprepares with
  | nil => exact ⟨[], (List.append_nil _).symm, nofun⟩
  | @deferred place path requested findings after child link rest others hlink hdeferred hrest
      ih =>
      obtain ⟨more, hmore, hadds⟩ := ih
      rcases needKey_cases findings requested ⟨path, link.source.name⟩ with
        ⟨-, hsame⟩ | ⟨hunasked, hsame⟩
      · rw [hsame] at hmore
        exact ⟨more, hmore, fun key hkey => (hadds key hkey).cons⟩
      · rw [hsame] at hmore
        refine ⟨⟨path, link.source.name⟩ :: more, ?_, ?_⟩
        · rw [hmore, List.append_assoc, List.singleton_append]
        · intro key hkey
          rcases List.mem_cons.mp hkey with rfl | hkey
          · exact .own List.mem_cons_self hlink hdeferred hunasked
          · exact (hadds key hkey).cons
  | @joined place path requested findings middle after child link elements rest others hlink
      hjoined hchild hrest ihchild ihrest =>
      obtain ⟨below, hbelow, haddsBelow⟩ := ihchild
      obtain ⟨more, hmore, hadds⟩ := ihrest
      refine ⟨below ++ more, ?_, ?_⟩
      · rw [hmore, hbelow, List.append_assoc]
      · intro key hkey
        rcases List.mem_append.mp hkey with hkey | hkey
        · exact .through List.mem_cons_self hlink hjoined (haddsBelow key hkey)
        · exact (hadds key hkey).cons
  | other hother hrest ih =>
      obtain ⟨more, hmore, hadds⟩ := ih
      exact ⟨more, hmore, fun key hkey => (hadds key hkey).cons⟩

/-! ## What is left to one statement -/

/-- Everything but nested buckets is kept. -/
theorem kept (hprepares : Prepares schema place path requested findings elements others found)
    {element : Element} (helement : element ∈ elements) (hother : element.bucket? = none) :
    element ∈ others := by
  induction hprepares with
  | nil => cases helement
  | deferred hlink hdeferred hrest ih =>
      rcases List.mem_cons.mp helement with rfl | helement
      · cases hother
      · exact List.mem_append_right _ (ih helement)
  | joined hlink hjoined hchild hrest ihchild ihrest =>
      rcases List.mem_cons.mp helement with rfl | helement
      · cases hother
      · exact List.mem_cons_of_mem _ (ihrest helement)
  | other hkind hrest ih =>
      rcases List.mem_cons.mp helement with rfl | helement
      · exact List.mem_cons_self
      · exact List.mem_cons_of_mem _ (ih helement)

/-- The key of a bucket that is read later was asked for, was added before, or is added
beside it. -/
theorem key_mem (hprepares : Prepares schema place path requested findings elements others found)
    {child : Bucket} {link : Link} (hchild : .bucket child ∈ elements)
    (hlink : schema.linkBetween place (place.child child.step) = .ok (some link))
    (hdeferred : link.isDeferred = true) :
    link.source.name ∈ requested ∨ ⟨path, link.source.name⟩ ∈ findings.added ∨
      .item (.column link.source.name) ∈ others := by
  induction hprepares with
  | nil => cases hchild
  | @deferred place path requested findings after nested other rest others hother _ hrest ih =>
      have hfirst : other.source.name ∈ requested ∨ ⟨path, other.source.name⟩ ∈ findings.added ∨
          .item (.column other.source.name) ∈
            (findings.needKey requested ⟨path, other.source.name⟩).1 ++ others :=
        (needKey_known findings requested ⟨path, other.source.name⟩).imp_right
          (Or.imp_right (List.mem_append_left others))
      rcases List.mem_cons.mp hchild with hhead | hchild
      · obtain rfl := ElementOf.bucket.inj hhead
        obtain rfl := Schema.linkBetween_unique hlink hother
        exact hfirst
      · rcases ih hchild hlink with hrequested | hadded | hmem
        · exact .inl hrequested
        · rcases mem_added_needKey_iff.mp hadded with hadded | ⟨hsame, -⟩
          · exact .inr (.inl hadded)
          · rw [(AddedKey.mk.inj hsame).2]
            exact hfirst
        · exact .inr (.inr (List.mem_append_right _ hmem))
  | @joined place path requested findings middle after nested other elements rest others hother
      hjoined hnested hrest ihchild ihrest =>
      rcases List.mem_cons.mp hchild with hhead | hchild
      · obtain rfl := ElementOf.bucket.inj hhead
        rw [← Schema.linkBetween_unique hlink hother, hdeferred] at hjoined
        cases hjoined
      · rcases ihrest hchild hlink with hrequested | hadded | hmem
        · exact .inl hrequested
        · -- keys added below the joined bucket have longer paths
          obtain ⟨below, hbelow, hadds⟩ := hnested.added_eq
          rw [hbelow] at hadded
          rcases List.mem_append.mp hadded with hadded | hadded
          · exact .inr (.inl hadded)
          · exact absurd (hadds _ hadded).above not_concat_prefix
        · exact .inr (.inr (List.mem_cons_of_mem _ hmem))
  | other hkind hrest ih =>
      rcases List.mem_cons.mp hchild with rfl | hchild
      · cases hkind
      · rcases ih hchild hlink with hrequested | hadded | hmem
        · exact .inl hrequested
        · exact .inr (.inl hadded)
        · exact .inr (.inr (List.mem_cons_of_mem _ hmem))

/-- A bucket that is joined is prepared by itself, however often it is nested, after the
elements in front of it. -/
theorem joined_of_mem (hprepares : Prepares schema place path requested findings elements others
      found) {child : Bucket} {link : Link} (hchild : .bucket child ∈ elements)
    (hlink : schema.linkBetween place (place.child child.step) = .ok (some link))
    (hjoined : link.isDeferred = false) :
    ∃ before behind front start finish inner, elements = before ++ .bucket child :: behind ∧
      Prepares schema place path requested findings before front start ∧
      Prepares schema (place.child child.step) (path ++ [child.outputName]) child.columns start
        child.elements inner finish ∧
      .bucket { child with elements := inner } ∈ others := by
  obtain ⟨before, behind, rfl⟩ := List.append_of_mem hchild
  obtain ⟨start, front, later, rfl, hbefore, hbehind⟩ := hprepares.of_append
  obtain ⟨inner, finish, last, rfl, hinner, -⟩ := hbehind.of_joined hlink hjoined
  exact ⟨before, behind, front, start, finish, inner, rfl, hbefore, hinner,
    List.mem_append_right _ List.mem_cons_self⟩

/-- Where no two buckets have a name in common, a bucket that is joined is prepared before any
key is added below it. -/
theorem fresh_joined_of_mem
    (hprepares : Prepares schema place path requested findings elements others found)
    {child : Bucket} {link : Link} (hchild : .bucket child ∈ elements)
    (hlink : schema.linkBetween place (place.child child.step) = .ok (some link))
    (hjoined : link.isDeferred = false)
    (hsiblings : ((elements.filterMap ElementOf.bucket?).map Bucket.outputName).Nodup)
    (hfresh : ∀ key ∈ findings.added, ¬ path ++ [child.outputName] <+: key.path) :
    ∃ inner start finish, Prepares schema (place.child child.step) (path ++ [child.outputName])
      child.columns start child.elements inner finish ∧
      .bucket { child with elements := inner } ∈ others ∧
      ∀ key ∈ start.added, ¬ path ++ [child.outputName] <+: key.path := by
  obtain ⟨before, behind, front, start, finish, inner, rfl, hbefore, hinner, hmem⟩ :=
    hprepares.joined_of_mem hchild hlink hjoined
  refine ⟨inner, start, finish, hinner, hmem, fun key hkey habove => ?_⟩
  obtain ⟨more, hmore, hadds⟩ := hbefore.added_eq
  rw [hmore] at hkey
  rcases List.mem_append.mp hkey with hkey | hkey
  · exact hfresh key hkey habove
  · rcases (hadds key hkey).own_or_below with hown | ⟨sibling, hsibling, hbelow⟩
    · rw [hown] at habove
      exact not_concat_prefix habove
    · -- the key stands below a sibling, which has another name
      have hname : sibling.outputName = child.outputName := concat_prefix_inj hbelow habove
      rw [List.filterMap_append, List.map_append, List.nodup_append] at hsiblings
      obtain ⟨-, -, hapart⟩ := hsiblings
      have hfirst : sibling.outputName ∈
          (before.filterMap ElementOf.bucket?).map Bucket.outputName :=
        List.mem_map_of_mem (mem_filterMap_bucket?.mpr hsibling)
      have hsecond : child.outputName ∈
          ((.bucket child :: behind).filterMap ElementOf.bucket?).map Bucket.outputName :=
        List.mem_map_of_mem (mem_filterMap_bucket?.mpr List.mem_cons_self)
      exact hapart _ hfirst _ hsecond hname

/-- Every nested bucket that is left was there before, prepared by itself. -/
theorem joined_of_mem_others (hprepares : Prepares schema place path requested findings elements
      others found) {prepared : Bucket} (hprepared : .bucket prepared ∈ others) :
    ∃ child link inner start finish, .bucket child ∈ elements ∧
      schema.linkBetween place (place.child child.step) = .ok (some link) ∧
      link.isDeferred = false ∧ prepared = { child with elements := inner } ∧
      Prepares schema (place.child child.step) (path ++ [child.outputName]) child.columns start
        child.elements inner finish := by
  induction hprepares with
  | nil => cases hprepared
  | @deferred place path requested findings after nested other rest others hother hdeferred hrest
      ih =>
      have hlater : .bucket prepared ∈ others :=
        (List.mem_append.mp hprepared).resolve_left fun hkey => nomatch eq_of_mem_needKey hkey
      obtain ⟨child, link, inner, start, finish, hchild, hrest⟩ := ih hlater
      exact ⟨child, link, inner, start, finish, List.mem_cons_of_mem _ hchild, hrest⟩
  | @joined place path requested findings middle after nested other elements rest others hother
      hjoined hnested hrest ihchild ihrest =>
      rcases List.mem_cons.mp hprepared with hhead | hprepared
      · exact ⟨nested, other, elements, findings, middle, List.mem_cons_self, hother, hjoined,
          ElementOf.bucket.inj hhead, hnested⟩
      · obtain ⟨child, link, inner, start, finish, hchild, hrest⟩ := ihrest hprepared
        exact ⟨child, link, inner, start, finish, List.mem_cons_of_mem _ hchild, hrest⟩
  | @other place path requested findings after element rest others hkind hrest ih =>
      have hlater : .bucket prepared ∈ others := by
        rcases List.mem_cons.mp hprepared with rfl | hprepared
        · cases hkind
        · exact hprepared
      obtain ⟨child, link, inner, start, finish, hchild, hrest⟩ := ih hlater
      exact ⟨child, link, inner, start, finish, List.mem_cons_of_mem _ hchild, hrest⟩

/-- What is reached in a prepared bucket was reached before. -/
theorem reached_before (hprepares : Prepares schema place path requested findings elements others
      found) {rest : List String} {deepPlace : Path} {deepOthers : List Element}
    (hreached : Reached schema place others rest deepPlace deepOthers) :
    ∃ deepElements, Reached schema place elements rest deepPlace deepElements := by
  induction hreached generalizing path requested findings elements found with
  | here => exact ⟨elements, .here⟩
  | @through place deepPlace others deepOthers _ _ rest hprepared hlink hjoined hreached ih =>
      obtain ⟨child, link, inner, start, finish, hchild, hchildLink, hchildJoined, rfl, hinner⟩ :=
        hprepares.joined_of_mem_others hprepared
      obtain ⟨deepElements, hdeep⟩ := ih hinner
      have houter : Reached schema place elements (child.outputName :: rest) deepPlace
          deepElements := .through hchild hchildLink hchildJoined hdeep
      exact ⟨deepElements, houter⟩

/-- What is reached in a bucket is reached when it is prepared.  There it asks for the same
columns, and for the keys of what is read later. -/
theorem reached_prepared {bucket : Bucket}
    (hprepares : Prepares schema place path bucket.columns findings bucket.elements others found)
    (hseparate : Separate schema bucket) (hfresh : ∀ key ∈ findings.added, ¬ path <+: key.path)
    {rest : List String} {deepPlace : Path} {deepElements : List Element}
    (hreached : Reached schema place bucket.elements rest deepPlace deepElements) :
    ∃ deepOthers, Reached schema place others rest deepPlace deepOthers ∧
      (∀ name, .item (.column name) ∈ deepElements → .item (.column name) ∈ deepOthers) ∧
      ∀ child link, .bucket child ∈ deepElements →
        schema.linkBetween deepPlace (deepPlace.child child.step) = .ok (some link) →
          link.isDeferred = true → .item (.column link.source.name) ∈ deepOthers := by
  generalize helements : bucket.elements = elements at hreached
  induction hreached generalizing bucket path findings others found with
  | here =>
      subst helements
      refine ⟨others, .here, fun name hcolumn => hprepares.kept hcolumn rfl, ?_⟩
      intro child link hchild hlink hdeferred
      rcases hprepares.key_mem hchild hlink hdeferred with hrequested | hadded | hmem
      · exact hprepares.kept (mem_columns.mp hrequested) rfl
      · exact absurd List.prefix_rfl (hfresh _ hadded)
      · exact hmem
  | @through place deepPlace elements deepElements child link rest hchild hlink hjoined _ ih =>
      subst helements
      have hbelow : ∀ key ∈ findings.added, ¬ path ++ [child.outputName] <+: key.path :=
        fun key hkey habove => hfresh key hkey ((List.prefix_append _ _).trans habove)
      obtain ⟨inner, start, finish, hinner, hmem, hstart⟩ := hprepares.fresh_joined_of_mem hchild
        hlink hjoined (hseparate bucket .self).siblings hbelow
      obtain ⟨deepOthers, hdeep, hcolumns⟩ := ih hinner (hseparate.child hchild) hstart rfl
      exact ⟨deepOthers, @Reached.through schema place deepPlace others deepOthers
        { child with elements := inner } link rest hmem hlink hjoined hdeep, hcolumns⟩

theorem hasTotal (hprepares : Prepares schema place path requested findings elements others
    found) : others.any ElementOf.isTotal = elements.any ElementOf.isTotal := by
  induction hprepares with
  | nil => rfl
  | @deferred place path requested findings after child link rest others hlink hdeferred hrest
      ih =>
      rw [List.any_append, ih, List.any_cons]
      rcases needKey_cases findings requested ⟨path, link.source.name⟩ with
        ⟨-, hsame⟩ | ⟨-, hsame⟩
      · rw [hsame]
        rfl
      · rw [hsame]
        rfl
  | joined hlink hjoined hchild hrest ihchild ihrest =>
      rw [List.any_cons, List.any_cons, ihrest]
      rfl
  | other hkind hrest ih => rw [List.any_cons, List.any_cons, ih]

/-- A prepared bucket asks for data only if the bucket did. -/
theorem readsData (hprepares : Prepares schema place path requested findings elements others
    found) (hreads : others.any Bucket.readsData = true) :
    elements.any Bucket.readsData = true := by
  induction hprepares with
  | nil => exact hreads
  | deferred hlink hdeferred hrest ih => rfl
  | joined hlink hjoined hchild hrest ihchild ihrest => rfl
  | other hkind hrest ih =>
      rw [List.any_cons, Bool.or_eq_true] at hreads ⊢
      rcases hreads with hhead | hreads
      · exact .inl hhead
      · exact .inr (ih hreads)

end Prepares

end TreeQuery.Session
