import TreeQuery.Proofs.Catalog.LinkColumns

/-!
# Answers about links

What is answered for a link depends on the keys of each table and on the chosen junctions, and on
nothing else that a schema is built from.  Where no link is determined this holds of the reason
as well; only the order in which several junctions are listed is that of the declared tables.
-/

namespace TreeQuery.Catalog

/-- There is one first entry of a kind. -/
theorem First.unique {α : Type} {kind : α → Prop} {entries : List α} {entry other : α}
    (hfirst : First kind entries entry) (hother : First kind entries other) : entry = other := by
  classical
  have htest (entry : α) : decide (kind entry) = true ↔ kind entry := decide_eq_true_iff
  have hfound := (find?_eq_some_iff_first htest).mpr hfirst
  exact Option.some.inj (hfound.symm.trans ((find?_eq_some_iff_first htest).mpr hother))

/-- Two answers about a link that differ at most in the order of the junctions they list. -/
inductive AlikeLinks : Except SchemaError (Option Link) → Except SchemaError (Option Link) → Prop
  | same (answer : Except SchemaError (Option Link)) : AlikeLinks answer answer
  | ambiguous {source target : String} {candidates others : List String}
      (hcandidates : candidates.Perm others) :
      AlikeLinks (.error (.ambiguousJunction source target candidates))
        (.error (.ambiguousJunction source target others))

namespace Declarations

/-- The same keys for each table, in the same order, and the same choices of junctions. -/
structure LinkAlike (declarations other : Declarations) : Prop where
  keysOf : ∀ table, declarations.keysOf table = other.keysOf table
  junctions : declarations.junctions = other.junctions

variable {declarations other : Declarations} {source target : Path} {interim : String}
  {toSource toTarget key : ForeignKey} {answer otherAnswer : Except SchemaError (Option Link)}

theorem LinkAlike.refl (declarations : Declarations) : LinkAlike declarations declarations :=
  ⟨fun _ => rfl, rfl⟩

theorem LinkAlike.symm (halike : LinkAlike declarations other) : LinkAlike other declarations :=
  ⟨fun table => (halike.keysOf table).symm, halike.junctions.symm⟩

namespace LinkAlike

variable (halike : LinkAlike declarations other)
include halike

theorem leadsTo_iff :
    declarations.LeadsTo source target key ↔ other.LeadsTo source target key := by
  rw [LeadsTo, LeadsTo, halike.keysOf]

theorem leadsBack_iff :
    declarations.LeadsBack source target key ↔ other.LeadsBack source target key := by
  rw [LeadsBack, LeadsBack, halike.keysOf]

theorem chosen_iff :
    declarations.Chosen source target interim ↔ other.Chosen source target interim := by
  rw [Chosen, Chosen, halike.junctions]

theorem bridges (hbridges : declarations.Bridges source target interim toSource toTarget) :
    other.Bridges source target interim toSource toTarget := by
  obtain ⟨htarget, hsource⟩ := hbridges
  rw [halike.keysOf] at htarget hsource
  exact ⟨htarget, hsource⟩

theorem candidate (hcandidate : declarations.Candidate source target interim) :
    other.Candidate source target interim := by
  obtain ⟨hfirst, hsecond, toSource, toTarget, hbridges⟩ := hcandidate
  exact ⟨hfirst, hsecond, toSource, toTarget, halike.bridges hbridges⟩

theorem candidate_iff :
    declarations.Candidate source target interim ↔ other.Candidate source target interim :=
  ⟨halike.candidate, halike.symm.candidate⟩

theorem apart (hapart : declarations.Apart source target) : other.Apart source target :=
  ⟨fun key hkey => hapart.there key (halike.leadsTo_iff.mpr hkey),
    fun key hkey => hapart.back key (halike.leadsBack_iff.mpr hkey)⟩

/-- The same links are determined. -/
theorem determines {link : Link} (hlink : declarations.Determines source target link) :
    other.Determines source target link := by
  cases hlink with
  | manyToOne hkey => exact .manyToOne (halike.leadsTo_iff.mp hkey)
  | oneToMany hthere hkey =>
      refine .oneToMany (fun key hother => ?_) (halike.leadsBack_iff.mp hkey)
      exact hthere key (halike.leadsTo_iff.mpr hother)
  | chosen hapart hchosen hbridges =>
      exact .chosen (halike.apart hapart) (halike.chosen_iff.mp hchosen) (halike.bridges hbridges)
  | only hapart hchosen hcandidate honly hbridges =>
      refine .only (halike.apart hapart) (fun junction hjunction => ?_)
        (halike.candidate hcandidate) (fun table htable => ?_) (halike.bridges hbridges)
      · exact hchosen junction (halike.chosen_iff.mpr hjunction)
      · exact honly table (halike.candidate_iff.mpr htable)

/-- Where no link is determined the reason is the same, but for the order of the candidates. -/
theorem undetermined (hnames : declarations.tableNames.Nodup) (hothers : other.tableNames.Nodup)
    (hanswer : declarations.Undetermined source target answer)
    (hother : other.Undetermined source target otherAnswer) : AlikeLinks answer otherAnswer := by
  cases hanswer with
  | unrelated hapart hchosen hcandidate =>
      cases hother with
      | unrelated => exact .same _
      | invalid _ hjunction => exact absurd (halike.chosen_iff.mpr hjunction) (hchosen _)
      | @ambiguous others _ _ horder hcandidates hseveral =>
          obtain ⟨table, htable⟩ := List.exists_mem_of_length_pos (by omega : 0 < others.length)
          exact absurd (halike.candidate_iff.mpr ((hcandidates table).mp htable))
            (hcandidate table)
  | invalid hapart hjunction hbridges =>
      cases hother with
      | unrelated _ hchosen => exact absurd (halike.chosen_iff.mp hjunction) (hchosen _)
      | invalid _ hchosen =>
          obtain ⟨junction, hfirst, rfl⟩ := halike.chosen_iff.mp hjunction
          obtain ⟨second, hsecond, rfl⟩ := hchosen
          rw [hfirst.unique hsecond]
          exact .same _
      | ambiguous _ hchosen => exact absurd (halike.chosen_iff.mp hjunction) (hchosen _)
  | @ambiguous candidates hapart hchosen horder hcandidates hseveral =>
      cases hother with
      | unrelated _ _ hcandidate =>
          obtain ⟨table, htable⟩ :=
            List.exists_mem_of_length_pos (by omega : 0 < candidates.length)
          exact absurd (halike.candidate_iff.mp ((hcandidates table).mp htable))
            (hcandidate table)
      | invalid _ hjunction => exact absurd (halike.chosen_iff.mpr hjunction) (hchosen _)
      | ambiguous _ _ hotherOrder hotherCandidates =>
          apply AlikeLinks.ambiguous
          apply (List.perm_ext_iff_of_nodup (horder.nodup hnames) (hotherOrder.nodup hothers)).mpr
          intro table
          rw [hcandidates, hotherCandidates, halike.candidate_iff]

end LinkAlike

/-- The reason why no link is determined is one. -/
theorem Undetermined.unique (hnames : declarations.tableNames.Nodup)
    (hanswer : declarations.Undetermined source target answer)
    (hother : declarations.Undetermined source target otherAnswer) : answer = otherAnswer := by
  cases (LinkAlike.refl declarations).undetermined hnames hnames hanswer hother with
  | same => rfl
  | ambiguous hcandidates =>
      cases hanswer with
      | ambiguous _ _ horder =>
          cases hother with
          | ambiguous _ _ hotherOrder =>
              rw [(hnames.perm_iff_eq_of_sublist horder hotherOrder).mp hcandidates]

end Declarations

namespace Schema

variable {declarations : Declarations} {schema : Schema} {source target : Path}

/-- A path that leads nowhere has no links. -/
theorem linkBetween_of_empty (hempty : source = [] ∨ target = []) :
    schema.linkBetween source target = .ok none := by
  rcases hempty with rfl | rfl
  · rfl
  · cases hsource : source.getLast? <;> simp [linkBetween, hsource]

end Schema

end TreeQuery.Catalog
