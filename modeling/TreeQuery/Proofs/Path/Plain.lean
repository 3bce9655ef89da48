import Mathlib
import TreeQuery.Path.Address

/-!
# Plain names

A plain name holds no colon, no double underscore, and no underscore at either end.
Names of letters, digits and single underscores between them are plain.  The names along
a path of plain names can be read back from the name of a column in the result.  Paths
and addresses can be told apart by their keys under a weaker condition: a name may then
begin with an underscore.
-/

namespace TreeQuery

namespace Segments

/-- A text that ends where the next separator begins: it holds no separator and does not
end in half of one. -/
structure Separable (text : List Char) : Prop where
  no_separator : ¬ ['_', '_'] <:+: text
  last : text.getLast? ≠ some '_'

theorem Separable.nil : Separable [] :=
  ⟨by simp, by simp⟩

theorem Separable.tail {character : Char} {rest : List Char}
    (hseparable : Separable (character :: rest)) : Separable rest := by
  constructor
  · exact fun hinfix => hseparable.no_separator (List.infix_cons_iff.mpr (.inr hinfix))
  · intro hlast
    refine hseparable.last ?_
    rw [List.getLast?_cons, hlast]
    rfl

/-- An underscore is followed by another character. -/
theorem Separable.underscore {rest : List Char} (hseparable : Separable ('_' :: rest)) :
    ∃ character others, rest = character :: others ∧ character ≠ '_' := by
  cases rest with
  | nil => exact absurd rfl hseparable.last
  | cons character others =>
      refine ⟨character, others, rfl, ?_⟩
      rintro rfl
      exact hseparable.no_separator ⟨[], others, rfl⟩

/-- A separator behind a separable text ends its segment. -/
theorem split_append_separator {text : List Char} (hseparable : Separable text)
    (rest : List Char) : split (text ++ '_' :: '_' :: rest) = text :: split rest := by
  induction text with
  | nil => rw [List.nil_append, split]
  | cons character text ih =>
      rw [List.cons_append, split, ih hseparable.tail]
      rintro others rfl hothers
      obtain ⟨next, behind, rfl, hnext⟩ := hseparable.underscore
      exact hnext (List.cons.inj hothers).1

/-- A text without separator is its own only segment. -/
theorem split_of_no_separator {text : List Char} (hnone : ¬ ['_', '_'] <:+: text) :
    split text = [text] := by
  induction text with
  | nil => rw [split]
  | cons character text ih =>
      rw [split, ih fun hinfix => hnone (List.infix_cons_iff.mpr (.inr hinfix))]
      rintro others rfl rfl
      exact hnone ⟨[], others, rfl⟩

/-- Segments are read back.  No separator stands behind the last one, which may therefore
end in half of one. -/
theorem split_intercalate_concat {segments : List (List Char)} {last : List Char}
    (hseparable : ∀ segment ∈ segments, Separable segment) (hlast : ¬ ['_', '_'] <:+: last) :
    split (['_', '_'].intercalate (segments ++ [last])) = segments ++ [last] := by
  induction segments with
  | nil => rw [List.nil_append, List.intercalate_singleton, split_of_no_separator hlast]
  | cons first rest ih =>
      obtain ⟨hfirst, hrest⟩ := List.forall_mem_cons.mp hseparable
      have hne : rest ++ [last] ≠ [] := List.append_ne_nil_of_right_ne_nil _ (by simp)
      obtain ⟨second, others, hbehind⟩ := List.exists_cons_of_ne_nil hne
      rw [List.cons_append, hbehind, List.intercalate_cons_cons, List.append_assoc,
        List.cons_append, List.cons_append, List.nil_append, split_append_separator hfirst,
        ← hbehind, ih hrest]

theorem toList_join (segments : List String) :
    (join segments).toList = ['_', '_'].intercalate (segments.map String.toList) :=
  String.toList_intercalate

/-- One more segment is joined behind a separator. -/
theorem join_concat {segments : List String} (hne : segments ≠ []) (name : String) :
    join (segments ++ [name]) = join segments ++ separator ++ name := by
  have hchars : ∀ {parts : List (List Char)}, parts ≠ [] → ∀ part : List Char,
      ['_', '_'].intercalate (parts ++ [part]) =
        ['_', '_'].intercalate parts ++ ['_', '_'] ++ part := by
    intro parts hparts part
    induction parts with
    | nil => exact absurd rfl hparts
    | cons first rest ih =>
        cases rest with
        | nil => simp
        | cons second rest =>
            rw [List.cons_append, List.cons_append, List.intercalate_cons_cons,
              ← List.cons_append, ih (List.cons_ne_nil _ _), List.intercalate_cons_cons]
            simp
  apply String.toList_inj.mp
  rw [toList_join, List.map_append, List.map_singleton, hchars (by simpa using hne),
    String.toList_append, String.toList_append, toList_join]
  rfl

/-- Joined names are read back. -/
theorem ofString_join_concat {segments : List String} {last : String}
    (hseparable : ∀ segment ∈ segments, Separable segment.toList)
    (hlast : ¬ ['_', '_'] <:+: last.toList) :
    ofString (join (segments ++ [last])) = segments ++ [last] := by
  have hsplit := split_intercalate_concat (List.forall_mem_map.mpr hseparable) hlast
  rw [ofString, toList_join, List.map_append, List.map_singleton, hsplit, ← List.map_singleton,
    ← List.map_append, List.map_map]
  exact (List.map_congr_left fun _ _ => String.ofList_toList).trans (List.map_id _)

/-- The segments of joined names are these names. -/
theorem ofString_join {segments : List String} (hne : segments ≠ [])
    (hseparable : ∀ segment ∈ segments, Separable segment.toList) :
    ofString (join segments) = segments := by
  rw [← List.dropLast_append_getLast hne] at hseparable ⊢
  obtain ⟨hfront, hlast⟩ := List.forall_mem_append.mp hseparable
  exact ofString_join_concat hfront (hlast _ (List.mem_singleton_self _)).no_separator

theorem Separable.cons {character : Char} {rest : List Char} (hrest : Separable rest)
    (hunderscore : character = '_' → ∃ next behind, rest = next :: behind ∧ next ≠ '_') :
    Separable (character :: rest) := by
  constructor
  · intro hinfix
    rcases List.infix_cons_iff.mp hinfix with habove | hinfix
    · obtain ⟨hfirst, hsecond⟩ := List.cons_prefix_cons.mp habove
      obtain ⟨next, behind, rfl, hnext⟩ := hunderscore hfirst.symm
      exact hnext (List.cons_prefix_cons.mp hsecond).1.symm
    · exact hrest.no_separator hinfix
  · cases rest with
    | nil =>
        intro hlast
        obtain ⟨next, behind, hnil, -⟩ := hunderscore (Option.some.inj hlast)
        cases hnil
    | cons next behind =>
        rw [List.getLast?_cons_cons]
        exact hrest.last

theorem Separable.append_colon {front back : List Char} (hfront : Separable front)
    (hback : Separable back) : Separable (front ++ ':' :: back) := by
  induction front with
  | nil => exact hback.cons nofun
  | cons character front ih =>
      apply (ih hfront.tail).cons
      rintro rfl
      obtain ⟨next, behind, rfl, hnext⟩ := hfront.underscore
      exact ⟨next, behind ++ ':' :: back, rfl, hnext⟩

end Segments

open Segments (Separable)

instance (text : List Char) : Decidable (Separable text) :=
  decidable_of_iff (¬ ['_', '_'] <:+: text ∧ text.getLast? ≠ some '_')
    ⟨fun hparts => ⟨hparts.1, hparts.2⟩,
      fun hseparable => ⟨hseparable.no_separator, hseparable.last⟩⟩

/-- A name that can be read back from the keys it is joined into. -/
structure KeyName (name : String) : Prop where
  ne_empty : name.toList ≠ []
  no_colon : ':' ∉ name.toList
  separable : Separable name.toList

instance (name : String) : Decidable (KeyName name) :=
  decidable_of_iff (name.toList ≠ [] ∧ ':' ∉ name.toList ∧ Separable name.toList)
    ⟨fun ⟨hne, hcolon, hseparable⟩ => ⟨hne, hcolon, hseparable⟩,
      fun hname => ⟨hname.ne_empty, hname.no_colon, hname.separable⟩⟩

/-- A name that can stand between separators and between colons. -/
structure PlainName (name : String) : Prop where
  ne_empty : name.toList ≠ []
  no_colon : ':' ∉ name.toList
  separable : Separable name.toList
  first : name.toList.head? ≠ some '_'

instance (name : String) : Decidable (PlainName name) :=
  decidable_of_iff (name.toList ≠ [] ∧ ':' ∉ name.toList ∧ Separable name.toList ∧
      name.toList.head? ≠ some '_')
    ⟨fun ⟨hne, hcolon, hseparable, hfirst⟩ => ⟨hne, hcolon, hseparable, hfirst⟩,
      fun hplain => ⟨hplain.ne_empty, hplain.no_colon, hplain.separable, hplain.first⟩⟩

theorem PlainName.keyName {name : String} (hplain : PlainName name) : KeyName name :=
  ⟨hplain.ne_empty, hplain.no_colon, hplain.separable⟩

namespace Step

/-- All names of a step are of a kind. -/
structure Named (kind : String → Prop) (step : Step) : Prop where
  name : kind step.name
  qualifier : ∀ qualifier ∈ step.qualifier, kind qualifier
  label : ∀ label ∈ step.label, kind label

instance (kind : String → Prop) [DecidablePred kind] (step : Step) :
    Decidable (step.Named kind) :=
  decidable_of_iff (kind step.name ∧ (∀ qualifier ∈ step.qualifier, kind qualifier) ∧
      ∀ label ∈ step.label, kind label)
    ⟨fun ⟨hname, hqualifier, hlabel⟩ => ⟨hname, hqualifier, hlabel⟩,
      fun hnamed => ⟨hnamed.name, hnamed.qualifier, hnamed.label⟩⟩

/-- A step that can be read back from its key. -/
abbrev Keyed (step : Step) : Prop :=
  step.Named KeyName

/-- A step of plain names. -/
structure Plain (step : Step) : Prop where
  name : PlainName step.name
  qualifier : ∀ qualifier ∈ step.qualifier, PlainName qualifier
  label : ∀ label ∈ step.label, PlainName label

instance (step : Step) : Decidable step.Plain :=
  decidable_of_iff (PlainName step.name ∧ (∀ qualifier ∈ step.qualifier, PlainName qualifier) ∧
      ∀ label ∈ step.label, PlainName label)
    ⟨fun ⟨hname, hqualifier, hlabel⟩ => ⟨hname, hqualifier, hlabel⟩,
      fun hplain => ⟨hplain.name, hplain.qualifier, hplain.label⟩⟩

theorem Plain.keyed {step : Step} (hplain : step.Plain) : step.Keyed where
  name := hplain.name.keyName
  qualifier qualifier hmem := (hplain.qualifier qualifier hmem).keyName
  label label hmem := (hplain.label label hmem).keyName

/-- Without qualifier and label a plain step is plain. -/
theorem Plain.bare {step : Step} (hplain : step.Plain) : step.bare.Plain where
  name := hplain.name
  qualifier _ hmem := absurd hmem (Option.not_mem_none _)
  label _ hmem := absurd hmem (Option.not_mem_none _)

theorem Plain.outputName {step : Step} (hplain : step.Plain) : PlainName step.outputName := by
  obtain ⟨name, qualifier, label⟩ := step
  cases label with
  | some label => exact hplain.label label rfl
  | none =>
      cases qualifier with
      | some qualifier => exact hplain.qualifier qualifier rfl
      | none => exact hplain.name

theorem cutAtColon_append {front : List Char} (hfront : ':' ∉ front) (back : List Char) :
    cutAtColon (front ++ ':' :: back) = (front, some back) := by
  induction front with
  | nil => rw [List.nil_append, cutAtColon]
  | cons character front ih =>
      rw [List.mem_cons, not_or] at hfront
      obtain ⟨hcharacter, hfront⟩ := hfront
      rw [List.cons_append, cutAtColon, ih hfront]
      exact Ne.symm hcharacter

theorem cutAtColon_of_notMem {text : List Char} (htext : ':' ∉ text) :
    cutAtColon text = (text, none) := by
  induction text with
  | nil => rw [cutAtColon]
  | cons character text ih =>
      rw [List.mem_cons, not_or] at htext
      obtain ⟨hcharacter, htext⟩ := htext
      rw [cutAtColon, ih htext]
      exact Ne.symm hcharacter

theorem part?_nil : part? [] = none := rfl

theorem part?_toList {name : String} (hkeyed : KeyName name) :
    part? name.toList = some name := by
  obtain ⟨character, rest, hname⟩ := List.exists_cons_of_ne_nil hkeyed.ne_empty
  rw [hname, part?, ← hname, String.ofList_toList]

/-- A step is read back from its key. -/
theorem Keyed.parse_key {step : Step} (hkeyed : step.Keyed) :
    parse step.key.toList = step := by
  obtain ⟨name, qualifier, label⟩ := step
  have hname := hkeyed.name.no_colon
  cases qualifier with
  | none =>
      cases label with
      | none =>
          simp [key, parse, cutAtColon_of_notMem hname, part?_nil]
      | some label =>
          have hlabel := hkeyed.label label rfl
          simp [key, parse, cutAtColon_append hname, cutAtColon, part?_nil, part?_toList hlabel]
  | some qualifier =>
      have hqualifier := hkeyed.qualifier qualifier rfl
      cases label with
      | none =>
          simp [key, parse, cutAtColon_append hname, cutAtColon_of_notMem hqualifier.no_colon,
            part?_toList hqualifier]
      | some label =>
          have hlabel := hkeyed.label label rfl
          simp [key, parse, cutAtColon_append hname, cutAtColon_append hqualifier.no_colon,
            part?_toList hqualifier, part?_toList hlabel]

theorem Keyed.key_ne_empty {step : Step} (hkeyed : step.Keyed) : step.key ≠ "" := by
  intro hempty
  have hparse := hkeyed.parse_key
  rw [hempty] at hparse
  apply hkeyed.name.ne_empty
  rw [← hparse]
  rfl

theorem Keyed.separable_key {step : Step} (hkeyed : step.Keyed) :
    Separable step.key.toList := by
  obtain ⟨name, qualifier, label⟩ := step
  have hname := hkeyed.name.separable
  cases qualifier with
  | none =>
      cases label with
      | none => exact hname
      | some label =>
          have hlabel := (hkeyed.label label rfl).separable
          simpa [key] using hname.append_colon (Separable.nil.append_colon hlabel)
  | some qualifier =>
      have hqualifier := (hkeyed.qualifier qualifier rfl).separable
      cases label with
      | none => simpa [key] using hname.append_colon hqualifier
      | some label =>
          have hlabel := (hkeyed.label label rfl).separable
          simpa [key] using hname.append_colon (hqualifier.append_colon hlabel)

end Step

namespace Path

/-- A path of plain steps that leads somewhere. -/
structure Plain (path : Path) : Prop where
  ne_nil : path ≠ []
  steps : ∀ step ∈ path, Step.Plain step

theorem Plain.child {path : Path} (hplain : Plain path) {step : Step} (hstep : step.Plain) :
    Plain (path.child step) := by
  refine ⟨List.append_ne_nil_of_left_ne_nil hplain.ne_nil _, fun other hother => ?_⟩
  rcases List.mem_append.mp hother with hother | hother
  · exact hplain.steps other hother
  · exact List.mem_singleton.mp hother ▸ hstep

/-- All names along a path are of a kind; it may be empty. -/
def Named (kind : String → Prop) (path : Path) : Prop :=
  ∀ step ∈ path, Step.Named kind step

instance (kind : String → Prop) [DecidablePred kind] (path : Path) :
    Decidable (Named kind path) :=
  inferInstanceAs (Decidable (∀ step ∈ path, Step.Named kind step))

/-- A path that can be read back from its key. -/
abbrev Keyed (path : Path) : Prop :=
  Named KeyName path

theorem Plain.keyed {path : Path} (hplain : Plain path) : Keyed path :=
  fun step hstep => (hplain.steps step hstep).keyed

theorem Keyed.separable_keys {path : Path} (hkeyed : Keyed path) :
    ∀ segment ∈ path.map Step.key, Separable segment.toList := by
  intro segment hsegment
  obtain ⟨step, hstep, rfl⟩ := List.mem_map.mp hsegment
  exact Step.Keyed.separable_key (hkeyed step hstep)

theorem Keyed.map_parse {path : Path} (hkeyed : Keyed path) :
    (path.map Step.key).map (fun key => Step.parse key.toList) = path := by
  rw [List.map_map]
  refine (List.map_congr_left fun step hstep => ?_).trans (List.map_id path)
  exact Step.Keyed.parse_key (hkeyed step hstep)

/-- A path is read back from its key. -/
theorem Keyed.parse_key {path : Path} (hkeyed : Keyed path) : parse path.key = path := by
  cases path with
  | nil => rfl
  | cons step rest =>
      have hsegments : Segments.ofString (key (step :: rest)) = (step :: rest).map Step.key :=
        Segments.ofString_join (by simp) hkeyed.separable_keys
      have hne : key (step :: rest) ≠ "" := by
        intro hempty
        rw [hempty] at hsegments
        exact Step.Keyed.key_ne_empty (hkeyed step List.mem_cons_self)
          (List.cons.inj hsegments).1.symm
      rw [parse, if_neg (by simpa using hne)]
      calc (Segments.split (key (step :: rest)).toList).map Step.parse
          = (Segments.ofString (key (step :: rest))).map fun key => Step.parse key.toList := by
            simp [Segments.ofString]
        _ = step :: rest := by rw [hsegments, hkeyed.map_parse]

/-- Paths are told apart by their keys. -/
theorem Keyed.key_inj {first second : Path} (hfirst : Keyed first) (hsecond : Keyed second)
    (hkey : first.key = second.key) : first = second := by
  rw [← hfirst.parse_key, hkey, hsecond.parse_key]

/-- Plain paths are told apart by their keys. -/
theorem Plain.key_inj {first second : Path} (hfirst : Plain first) (hsecond : Plain second)
    (hkey : first.key = second.key) : first = second :=
  hfirst.keyed.key_inj hsecond.keyed hkey

end Path

namespace Address

/-- An address that can be read back from its key. -/
structure Keyed (address : Address) : Prop where
  path : address.path.Keyed
  name : KeyName address.name

instance (address : Address) : Decidable address.Keyed :=
  decidable_of_iff (address.path.Keyed ∧ KeyName address.name)
    ⟨fun ⟨hpath, hname⟩ => ⟨hpath, hname⟩, fun hkeyed => ⟨hkeyed.path, hkeyed.name⟩⟩

theorem key_eq_join (address : Address) :
    address.key = Segments.join (address.path.map Step.key ++ [address.name]) := by
  obtain ⟨name, path⟩ := address
  cases path with
  | nil => rfl
  | cons step rest =>
      rw [Segments.join_concat (by simp)]
      rfl

theorem Keyed.ofString_key {address : Address} (hkeyed : address.Keyed) :
    Segments.ofString address.key = address.path.map Step.key ++ [address.name] := by
  rw [key_eq_join]
  apply Segments.ofString_join (List.append_ne_nil_of_right_ne_nil _ (by simp))
  intro segment hsegment
  rcases List.mem_append.mp hsegment with hsegment | hsegment
  · exact hkeyed.path.separable_keys segment hsegment
  · exact List.mem_singleton.mp hsegment ▸ hkeyed.name.separable

/-- Addresses are told apart by their keys. -/
theorem Keyed.key_inj {first second : Address} (hfirst : first.Keyed) (hsecond : second.Keyed)
    (hkey : first.key = second.key) : first = second := by
  have hsegments : first.path.map Step.key ++ [first.name] =
      second.path.map Step.key ++ [second.name] := by
    rw [← hfirst.ofString_key, hkey, hsecond.ofString_key]
  obtain ⟨hsteps, hnames⟩ := List.append_inj' hsegments rfl
  have hpaths : first.path = second.path := by
    apply hfirst.path.key_inj hsecond.path
    rw [Path.key, Path.key, hsteps]
  obtain ⟨firstName, firstPath⟩ := first
  obtain ⟨secondName, secondPath⟩ := second
  rw [Address.mk.injEq]
  exact ⟨List.singleton_inj.mp hnames, hpaths⟩

/-- Columns of plain paths are told apart by their keys. -/
theorem key_inj_of_plain {first second : Address} (hfirst : Path.Plain first.path)
    (hsecond : Path.Plain second.path) (hname : PlainName first.name)
    (hother : PlainName second.name) (hkey : first.key = second.key) : first = second :=
  Keyed.key_inj ⟨hfirst.keyed, hname.keyName⟩ ⟨hsecond.keyed, hother.keyName⟩ hkey

/-- A column in the result is named by the output names below the root. -/
theorem resultName_eq_join (root : Step) (rest : List Step) (name : String) :
    Address.resultName ⟨name, root :: rest⟩ =
      Segments.join (rest.map Step.outputName ++ [name]) := by
  cases rest with
  | nil => rfl
  | cons step rest =>
      rw [Segments.join_concat (by simp)]
      rfl

/-- A column below plain steps is read back from the names it is joined of. -/
theorem ofString_join_outputNames {steps : List Step} {name : String}
    (hsteps : ∀ step ∈ steps, step.Plain) (hname : PlainName name) :
    Segments.ofString (Segments.join (steps.map Step.outputName ++ [name])) =
      steps.map Step.outputName ++ [name] := by
  apply Segments.ofString_join_concat _ hname.separable.no_separator
  exact List.forall_mem_map.mpr fun step hstep => (hsteps step hstep).outputName.separable

end Address

end TreeQuery
