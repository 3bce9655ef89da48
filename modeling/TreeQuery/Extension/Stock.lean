import TreeQuery.Extension.Registry
import TreeQuery.Request.Document

/-!
# Stock extensions

Small extensions to register under any key: they page, number or refuse reads,
and insert into or redirect writes.  What they need to know is the payload of
their beacon.
-/

namespace TreeQuery.Extension.Stock

/-- Changes nothing. -/
def readNothing : ReadExtension := {}

/-- Takes the limit from the payload, none when it is no count, and reports how
many records were read. -/
def limit : ReadExtension where
  adjust beacon parts := .ok { parts with limit := beacon.payload.word? }
  report beacon records := .ok (records, some [(beacon.key, .int records.length)])

/-- Reverses the records, numbers them, and reports the payload when it is an
object. -/
def stamp : ReadExtension where
  report beacon records :=
    let stamped := records.reverse.zipIdx.map fun (record, index) =>
      Record.insert "stamp" (.int index) record
    .ok (stamped, beacon.payload.fields?)

/-- Refuses to change a query. -/
def refuseAdjusting : ReadExtension where
  adjust beacon _ := .error (.extension beacon.key "rewrite refused")
  report beacon _ := .error (.extension beacon.key "meta refused")

/-- Refuses to report. -/
def refuseReport : ReadExtension where
  report beacon _ := .error (.extension beacon.key "meta refused")

/-- Writes the bucket as it is. -/
def writeNothing : WriteExtension where
  apply _ bucket _ := return bucket

/-- Refuses to write. -/
def refuseWrite : WriteExtension where
  apply beacon _ _ := throw (.extension beacon.key "apply refused")

/-- A field of an object. -/
def field? (name : String) (value : Json) : Option Json := do
  (← value.fields?).get? name

/-- The rows of a payload. -/
def rows? (payload : Json) : Option (List Record) := do
  match ← field? "rows" payload with
  | .array items => items.mapM Json.fields?
  | _ => none

/-- Inserts the rows of the payload into its table before the bucket is
written. -/
def insert : WriteExtension where
  apply beacon bucket writer := do
    match rows? beacon.payload with
    | none => throw .document
    | some rows =>
        let table := ((field? "table" beacon.payload).bind Json.text?).getD ""
        let _ ← writer.insert table rows
        return bucket

/-- Writes the bucket to the table that the payload names. -/
def retarget : WriteExtension where
  apply beacon bucket _ := return { bucket with name := beacon.payload.text?.getD "" }

end TreeQuery.Extension.Stock
