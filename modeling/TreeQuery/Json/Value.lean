import TreeQuery.Decimal.Double

/-!
# JSON values

Integers and doubles are different numbers here, as they are in the documents
this library reads.  The fields of an object are an association list; every
operation below keeps them sorted by key, and a later field of the same key
replaces the earlier one.
-/

namespace TreeQuery

/-- A JSON value. -/
inductive Json where
  | null
  | bool (value : Bool)
  | int (value : Int)
  | float (value : Double)
  | string (value : String)
  | array (items : List Json)
  | object (fields : List (String × Json))

/-- A record: the fields of a JSON object. -/
abbrev Record := List (String × Json)

namespace Record

/-- The value under a key. -/
def get? (record : Record) (key : String) : Option Json :=
  List.lookup key record

/-- Puts a value under a key, in key order, in place of an earlier one. -/
def insert (key : String) (value : Json) : Record → Record
  | [] => [(key, value)]
  | (other, stored) :: rest =>
      if key < other then (key, value) :: (other, stored) :: rest
      else if key = other then (key, value) :: rest
      else (other, stored) :: insert key value rest

/-- Removes a key. -/
def erase (key : String) : Record → Record
  | [] => []
  | (other, stored) :: rest =>
      if key = other then erase key rest else (other, stored) :: erase key rest

/-- The record of a list of fields; of several fields with one key the last
stays. -/
def ofList (fields : List (String × Json)) : Record :=
  fields.foldl (fun record field => insert field.1 field.2 record) []

/-- Adds every field of another record, which replaces fields of the same
key. -/
def merge (record additions : Record) : Record :=
  additions.foldl (fun merged field => insert field.1 field.2 merged) record

/-- Reading back the key just written gives the value written. -/
theorem get?_insert_self (key : String) (value : Json) (record : Record) :
    (insert key value record).get? key = some value := by
  induction record with
  | nil => simp [insert, get?]
  | cons field rest ih =>
      obtain ⟨other, stored⟩ := field
      simp only [get?] at ih
      simp only [insert, get?]
      split
      · simp
      · split
        · simp
        · rename_i hne
          simp only [List.lookup_cons, beq_eq_false_iff_ne.mpr hne]
          exact ih

/-- Writing one key leaves every other key alone. -/
theorem get?_insert_of_ne {key sought : String} (hne : sought ≠ key) (value : Json)
    (record : Record) : (insert key value record).get? sought = record.get? sought := by
  induction record with
  | nil => simp [insert, get?, List.lookup_cons, beq_eq_false_iff_ne.mpr hne]
  | cons field rest ih =>
      obtain ⟨other, stored⟩ := field
      simp only [get?] at ih
      simp only [insert, get?]
      split
      · simp [List.lookup_cons, beq_eq_false_iff_ne.mpr hne]
      · split
        · rename_i heq
          subst heq
          simp [List.lookup_cons, beq_eq_false_iff_ne.mpr hne]
        · simp only [List.lookup_cons]
          split
          · rfl
          · exact ih

end Record

namespace Json

/-- Whether a value is the null value. -/
def isNull : Json → Bool
  | .null => true
  | _ => false

/-- The fields of an object. -/
def fields? : Json → Option Record
  | .object fields => some fields
  | _ => none

/-- The text of a string value. -/
def text? : Json → Option String
  | .string value => some value
  | _ => none

/-- A number without a sign that fits in 64 bits. -/
def word? : Json → Option Nat
  | .int (.ofNat value) => if value < Nat.pow 2 64 then some value else none
  | _ => none

mutual

/-- Sorts the fields of every object, keeping the last of repeated keys. -/
def normalize : Json → Json
  | .array items => .array (normalizeItems items)
  | .object fields => .object (Record.ofList (normalizeFields fields))
  | other => other

/-- Normalizes every item. -/
def normalizeItems : List Json → List Json
  | [] => []
  | item :: rest => item.normalize :: normalizeItems rest

/-- Normalizes the value of every field. -/
def normalizeFields : List (String × Json) → List (String × Json)
  | [] => []
  | (key, value) :: rest => (key, value.normalize) :: normalizeFields rest

end

end Json

end TreeQuery
