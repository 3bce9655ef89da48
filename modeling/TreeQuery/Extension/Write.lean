import TreeQuery.Session.Write

/-!
# Extensions of writes

An extension of writes runs before the bucket that asks for it is written.  It
may make statements of its own, and it says which bucket is written.
-/

namespace TreeQuery.Extension

/-- An extension of writes. -/
structure WriteExtension where
  apply : Beacon → Bucket → Session.Writer → Session.Run Bucket

/-- Whether an element is a clause. -/
def isClause : Element → Bool
  | .clause _ => true
  | _ => false

/-- Replaces rows: the rows selected by the beacon's expression are deleted, and
the bucket loses its own clauses, so that its rows are inserted. -/
def upsert : WriteExtension where
  apply beacon bucket writer := do
    match beacon with
    | .upsert expression =>
        let _ ← writer.delete bucket.name expression
        return { bucket with
          elements := bucket.elements.filter fun element => !isClause element }
    | .custom key _ => throw (.extension key "upsert registered for a non-upsert beacon")

end TreeQuery.Extension
