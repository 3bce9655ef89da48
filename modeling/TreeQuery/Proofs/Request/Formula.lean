import Mathlib
import TreeQuery.Request.Expression

/-!
# Formulas and their listings

A formula joins clauses by `AND` and `OR`.  Its listing has the two sides of a
connective in front of the marker.  An expression is read with a stack of
formulas, and the formulas left on it are exactly those whose listings, one
behind another, make up the expression.  So an expression lists at most one
formula, and it does when one formula is left.
-/

namespace TreeQuery

/-- What joins the two sides of a formula. -/
inductive Connective where
  | and
  | or

/-- The marker of a connective. -/
def Connective.marker : Connective → Term
  | and => .and
  | or => .or

/-- Parts joined by connectives. -/
inductive Formula (α : Type) where
  | part (part : α)
  | join (connective : Connective) (left right : Formula α)

namespace Formula

variable {α β : Type}

/-- The formula of what its parts become.  A part that becomes nothing is removed, and the
other side takes the place of the connective. -/
def filterMap (change : α → Option β) : Formula α → Option (Formula β)
  | part value => (change value).map part
  | join connective left right =>
      Option.merge (join connective) (left.filterMap change) (right.filterMap change)

/-- The clauses and markers of a formula in postfix order. -/
def listing : Formula Clause → Expression
  | part clause => [.clause clause]
  | join connective left right => left.listing ++ right.listing ++ [connective.marker]

/-- The listings of formulas one behind another.  The formula listed last comes first. -/
def listings : List (Formula Clause) → Expression
  | [] => []
  | last :: before => listings before ++ last.listing

theorem listings_append (later earlier : List (Formula Clause)) :
    listings (later ++ earlier) = listings earlier ++ listings later := by
  induction later with
  | nil => exact (List.append_nil _).symm
  | cons last before ih =>
      calc listings (before ++ earlier) ++ last.listing
          = listings earlier ++ listings before ++ last.listing := by rw [ih]
        _ = listings earlier ++ listings (last :: before) := List.append_assoc _ _ _

/-- Replaces the two most recent formulas by their combination. -/
def joined? (connective : Connective) : List (Formula Clause) → Option (List (Formula Clause))
  | right :: left :: before => some (join connective left right :: before)
  | _ => none

theorem listings_of_joined? {connective : Connective} {formulas after : List (Formula Clause)}
    (hjoined : joined? connective formulas = some after) :
    listings after = listings formulas ++ [connective.marker] := by
  unfold joined? at hjoined
  split at hjoined
  · next right left before =>
      obtain rfl := Option.some.inj hjoined
      simp only [listings, listing, List.append_assoc]
  · cases hjoined

theorem length_of_joined? {connective : Connective} {formulas after : List (Formula Clause)}
    (hjoined : joined? connective formulas = some after) :
    after.length + 1 = formulas.length := by
  unfold joined? at hjoined
  split at hjoined
  · obtain rfl := Option.some.inj hjoined
    rfl
  · cases hjoined

theorem exists_joined? (connective : Connective) {formulas : List (Formula Clause)}
    (hlength : 2 ≤ formulas.length) : ∃ after, joined? connective formulas = some after := by
  match formulas, hlength with
  | right :: left :: before, _ => exact ⟨join connective left right :: before, rfl⟩

/-- A formula has a clause. -/
theorem clauses_listing_ne_nil (formula : Formula Clause) :
    Expression.clauses formula.listing ≠ [] := by
  induction formula with
  | part clause => exact List.cons_ne_nil _ _
  | join connective left right ihleft _ =>
      intro hnone
      apply ihleft
      simp only [Expression.clauses, listing, List.filterMap_append, List.append_eq_nil_iff]
        at hnone
      exact hnone.1.1

end Formula

namespace Expression

open Formula (listings joined? listings_of_joined?)

/-- The formulas an expression leaves on a stack, the most recent first.  There are none to
tell when a marker lacks an operand. -/
def formulas? (formulas : List (Formula Clause)) : Expression → Option (List (Formula Clause))
  | [] => some formulas
  | .clause clause :: rest => formulas? (.part clause :: formulas) rest
  | .and :: rest => (joined? .and formulas).bind fun formulas => formulas? formulas rest
  | .or :: rest => (joined? .or formulas).bind fun formulas => formulas? formulas rest

theorem formulas?_marker (formulas : List (Formula Clause)) (connective : Connective)
    (rest : Expression) :
    formulas? formulas (connective.marker :: rest) =
      (joined? connective formulas).bind fun formulas => formulas? formulas rest := by
  cases connective <;> rfl

/-- Every expression is built from clauses and the markers of connectives. -/
@[elab_as_elim]
theorem markerInduction {motive : Expression → Prop} (nil : motive [])
    (clause : ∀ clause rest, motive rest → motive (.clause clause :: rest))
    (marker : ∀ (connective : Connective) rest, motive rest → motive (connective.marker :: rest))
    (expression : Expression) : motive expression := by
  induction expression with
  | nil => exact nil
  | cons term rest ih =>
      cases term with
      | clause first => exact clause first rest ih
      | and => exact marker .and rest ih
      | or => exact marker .or rest ih

/-- Whatever was on the stack, a listing puts its formula there. -/
theorem formulas?_listing (formula : Formula Clause) (formulas : List (Formula Clause))
    (rest : Expression) :
    formulas? formulas (formula.listing ++ rest) = formulas? (formula :: formulas) rest := by
  induction formula generalizing formulas rest with
  | part clause => rfl
  | join connective left right ihleft ihright =>
      rw [Formula.listing, List.append_assoc, List.append_assoc, ihleft, ihright,
        List.singleton_append, formulas?_marker]
      rfl

theorem formulas?_listings (formulas before : List (Formula Clause)) (rest : Expression) :
    formulas? before (listings formulas ++ rest) = formulas? (formulas ++ before) rest := by
  induction formulas generalizing rest with
  | nil => rfl
  | cons last earlier ih => rw [listings, List.append_assoc, ih, formulas?_listing]; rfl

/-- The formulas left on the stack list what was there and what was read. -/
theorem listings_of_formulas? {expression : Expression} :
    ∀ {formulas left : List (Formula Clause)}, formulas? formulas expression = some left →
      listings left = listings formulas ++ expression := by
  induction expression using markerInduction with
  | nil =>
      intro formulas left hleft
      obtain rfl := Option.some.inj hleft
      exact (List.append_nil _).symm
  | clause clause rest ih =>
      intro formulas left hleft
      calc listings left = listings (.part clause :: formulas) ++ rest := ih hleft
        _ = listings formulas ++ .clause clause :: rest := List.append_assoc _ _ _
  | marker connective rest ih =>
      intro formulas left hleft
      rw [formulas?_marker] at hleft
      obtain ⟨after, hjoined, hafter⟩ := Option.bind_eq_some_iff.mp hleft
      calc listings left = listings after ++ rest := ih hafter
        _ = listings formulas ++ [connective.marker] ++ rest := by
          rw [listings_of_joined? hjoined]
        _ = listings formulas ++ connective.marker :: rest := List.append_assoc _ _ _

/-- An expression leaves the formulas whose listings it consists of. -/
theorem formulas?_eq_some_iff {expression : Expression} {formulas : List (Formula Clause)} :
    formulas? [] expression = some formulas ↔ listings formulas = expression := by
  constructor
  · exact listings_of_formulas?
  · rintro rfl
    have hread := formulas?_listings formulas [] []
    rwa [List.append_nil, List.append_nil] at hread

theorem formulas?_eq_singleton_iff {expression : Expression} {formula : Formula Clause} :
    formulas? [] expression = some [formula] ↔ formula.listing = expression :=
  formulas?_eq_some_iff

/-- Only the same formulas have the same listings. -/
theorem listings_injective : Function.Injective listings := by
  intro formulas others hsame
  apply Option.some.inj
  calc some formulas = formulas? [] (listings formulas) := (formulas?_eq_some_iff.mpr rfl).symm
    _ = formulas? [] (listings others) := by rw [hsame]
    _ = some others := formulas?_eq_some_iff.mpr rfl

end Expression

end TreeQuery
