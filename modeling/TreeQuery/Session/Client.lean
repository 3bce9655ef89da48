import TreeQuery.Extension.Registry
import TreeQuery.Session.Read
import TreeQuery.Session.Transaction

/-!
# Clients

A client reads or writes whole invoices, each inside one transaction.  Buckets
are handled in order, and the first failure ends the work.  The buckets of a read could
be waited for all at once, like the nested ones of each; they too are read one after
another here.
-/

namespace TreeQuery.Session

open Extension (Registry)

/-- Reads every bucket of an invoice. -/
def readAll (reader : Reader) (invoice : Invoice) : Run (List View) :=
  transaction reader.connection (invoice.mapM reader.read)

/-- Reads one bucket. -/
def readOne (reader : Reader) (bucket : Bucket) : Run View :=
  transaction reader.connection (reader.read bucket)

/-- Writes buckets in order and counts the rows they changed. -/
def writeBuckets (writer : Writer) (registry : Registry) : Invoice → Run UInt64
  | [] => return 0
  | bucket :: rest => do
      let prepared ← registry.prepareWrite writer bucket
      let count ← writer.write prepared
      return count + (← writeBuckets writer registry rest)

/-- Writes every bucket of an invoice. -/
def writeAll (writer : Writer) (registry : Registry) (invoice : Invoice) : Run UInt64 :=
  transaction writer.connection (writeBuckets writer registry invoice)

end TreeQuery.Session
