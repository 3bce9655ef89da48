import TreeQuery.Path.Segments
import TreeQuery.Json.Value

/-!
# Flat rows and nested records

The columns of a row are named by paths.  Unflattening puts every value at its
path; collapsing replaces nested objects in which everything is null, as an
unmatched join leaves them, by null.
-/

namespace TreeQuery.Record

/-- Puts a value at a path of segments.  Whatever stands in the way and is no
object is replaced by one. -/
def insertAt : List String → Json → Record → Record
  | [], _, record => record
  | [key], value, record => record.insert key value
  | head :: rest, value, record =>
      let inner := ((record.get? head).bind Json.fields?).getD []
      record.insert head (.object (insertAt rest value inner))

/-- The nested record of a flat row, whose keys are taken in order. -/
def unflatten (row : Record) : Record :=
  row.foldl (fun record field => insertAt (Segments.ofString field.1) field.2 record) []

mutual

/-- A value in which nested objects without content are null. -/
def collapseValue : Json → Json
  | .object fields =>
      let collapsed := collapseFields fields
      if collapsed.all fun field => field.2.isNull then .null else .object collapsed
  | .array items => .array (collapseItems items)
  | other => other

/-- The items of a list.  Objects among them are kept, whatever they hold. -/
def collapseItems : List Json → List Json
  | [] => []
  | .object fields :: rest => .object (collapseFields fields) :: collapseItems rest
  | other :: rest => other :: collapseItems rest

/-- The values of all fields. -/
def collapseFields : List (String × Json) → List (String × Json)
  | [] => []
  | (key, value) :: rest => (key, collapseValue value) :: collapseFields rest

end

/-- The record with its nested objects collapsed; the record itself is kept. -/
def collapse (record : Record) : Record :=
  collapseFields record

/-- The record at a path of nested objects. -/
def objectAt? : List String → Record → Option Record
  | [], record => some record
  | head :: rest, record => do
      let fields ← (← record.get? head).fields?
      objectAt? rest fields

/-- Changes the record at a path of nested objects, if there is one. -/
def updateAt (change : Record → Record) : List String → Record → Record
  | [], record => change record
  | head :: rest, record =>
      match record.get? head with
      | some (.object fields) => record.insert head (.object (updateAt change rest fields))
      | _ => record

end TreeQuery.Record
