import TreeQuery.Path.Step
import TreeQuery.Request.Expression

/-!
# Buckets

A bucket is a request against one table.  Its elements ask for columns, hold
rows to write, narrow and order the rows, and nest buckets of related tables.
-/

namespace TreeQuery

/-- A column to read or a row to write. -/
inductive Item where
  | column (name : String)
  | row (row : Record)

/-- The number of rows to return, or to skip. -/
inductive Slice where
  | limit (count : Nat)
  | offset (count : Nat)
  deriving DecidableEq

/-- A request to an extension. -/
inductive Beacon where
  | upsert (expression : Expression)
  | custom (key : String) (value : Json)

/-- The key under which the extension of a beacon is registered. -/
def Beacon.key : Beacon → String
  | upsert _ => "upsert"
  | custom key _ => key

/-- An element of a bucket, over the type of nested buckets. -/
inductive ElementOf (Nested : Type) where
  | item (item : Item)
  | bucket (nested : Nested)
  | clause (expression : Expression)
  | slice (slice : Slice)
  | total
  | beacon (beacon : Beacon)

/-- A request against one table and, through nested buckets, its relatives. -/
structure Bucket where
  name : String
  qualifier : Option String := none
  label : Option String := none
  elements : List (ElementOf Bucket) := []

/-- An element of a bucket. -/
abbrev Element := ElementOf Bucket

/-- Independent requests. -/
abbrev Invoice := List Bucket

/-- What one bucket reads: its records, and what extensions and totals add. -/
structure View where
  data : List Json := []
  meta? : Option Record := none

namespace ElementOf

/-- The column an element asks for. -/
def column? : Element → Option String
  | item (.column name) => some name
  | _ => none

/-- The row an element writes. -/
def row? : Element → Option Record
  | item (.row row) => some row
  | _ => none

/-- The nested bucket of an element. -/
def bucket? : Element → Option Bucket
  | bucket nested => some nested
  | _ => none

/-- The beacon of an element. -/
def beacon? : Element → Option Beacon
  | beacon b => some b
  | _ => none

/-- The clause expression of an element. -/
def clause? : Element → Option Expression
  | clause expression => some expression
  | _ => none

/-- Whether an element asks for the total. -/
def isTotal : Element → Bool
  | total => true
  | _ => false

/-- Whether an element is a slice. -/
def isSlice : Element → Bool
  | slice _ => true
  | _ => false

end ElementOf

namespace Bucket

/-- The step a bucket adds to the path of the bucket around it. -/
def step (bucket : Bucket) : Step where
  name := bucket.name
  qualifier := bucket.qualifier
  label := bucket.label

/-- The field that holds the data of a nested bucket. -/
def outputName (bucket : Bucket) : String :=
  bucket.step.outputName

/-- The columns asked for, in order. -/
def columns (bucket : Bucket) : List String :=
  bucket.elements.filterMap ElementOf.column?

/-- The rows to write, in order. -/
def rows (bucket : Bucket) : List Record :=
  bucket.elements.filterMap ElementOf.row?

/-- The beacons, in order. -/
def beacons (bucket : Bucket) : List Beacon :=
  bucket.elements.filterMap ElementOf.beacon?

/-- Whether the total number of rows is asked for. -/
def hasTotal (bucket : Bucket) : Bool :=
  bucket.elements.any ElementOf.isTotal

/-- Whether an element asks for data back. -/
def readsData : Element → Bool
  | .item (.column _) | .bucket _ | .total => true
  | .item (.row _) | .clause _ | .slice _ | .beacon _ => false

/-- Whether the bucket asks for data back. -/
def isProjection (bucket : Bucket) : Bool :=
  bucket.elements.any readsData

/-! ## Building buckets -/

/-- The bucket with a qualifier, in place of an earlier one. -/
def withQualifier (bucket : Bucket) (qualifier : String) : Bucket :=
  { bucket with qualifier := some qualifier }

/-- The bucket with a label, in place of an earlier one. -/
def withLabel (bucket : Bucket) (label : String) : Bucket :=
  { bucket with label := some label }

/-- The bucket with one more element. -/
def push (bucket : Bucket) (element : Element) : Bucket :=
  { bucket with elements := bucket.elements ++ [element] }

/-- The bucket that also asks for columns. -/
def selecting (bucket : Bucket) (columns : List String) : Bucket :=
  columns.foldl (fun bucket column => bucket.push (.item (.column column))) bucket

/-- The bucket that also writes rows. -/
def writing (bucket : Bucket) (rows : List Record) : Bucket :=
  rows.foldl (fun bucket row => bucket.push (.item (.row row))) bucket

/-- The path of a bucket that stands at the root.  Only a bucket that reads data
needs the names its qualifier and label give; elsewhere the bare table is
meant. -/
def rootPath (bucket : Bucket) : List Step :=
  [if bucket.isProjection then bucket.step else bucket.step.bare]

end Bucket

end TreeQuery
