import TreeQuery.Plan.Planner
import TreeQuery.Session.Connection
import TreeQuery.Session.Nesting

/-!
# Reading

A bucket is read by one statement for itself and everything joined to it, and
by one further statement for each nested bucket related one-to-many or
many-to-many.  The further statements select by the keys the parents came back
with; the children are grouped by those keys and attached to their parents.
Key columns that were only needed for this are removed again.

Nested buckets that are read by further statements do not depend on one another, and
a program may wait for all of them at once.  Here they are read one after another, in
the order they are listed: the order in which a connection meets their statements if
it answers each call before the next one is made.
-/

namespace TreeQuery.Session

open Catalog (Link Lookup Schema)
open Extension (ReadExtension)

/-- A nested bucket that is read after its parent. -/
structure Deferred where
  path : List String
  field : String
  link : Link
  child : Bucket

/-- A key column that was added to the bucket at a path. -/
structure AddedKey where
  path : List String
  column : String
  deriving DecidableEq

/-- What preparing a bucket finds on its way. -/
structure Findings where
  deferred : List Deferred := []
  added : List AddedKey := []

/-- A key column that must be read, with the findings after that: it is added
unless it was asked for or was added before. -/
def Findings.needKey (findings : Findings) (requested : List String) (key : AddedKey) :
    List Element × Findings :=
  if requested.contains key.column || findings.added.contains key then ([], findings)
  else ([.item (.column key.column)], { findings with added := findings.added ++ [key] })

mutual

/-- A bucket without its deferred children and with the key columns they need. -/
def prepare (schema : Schema) (place : Path) (path : List String) (findings : Findings) :
    Bucket → Lookup Failure (Bucket × Findings)
  | ⟨name, qualifier, label, elements⟩ => do
      let requested := elements.filterMap ElementOf.column?
      let (prepared, findings) ←
        prepareElements schema place path requested findings elements
      return (⟨name, qualifier, label, prepared⟩, findings)

/-- The elements of a prepared bucket. -/
def prepareElements (schema : Schema) (place : Path) (path requested : List String)
    (findings : Findings) : List Element → Lookup Failure (List Element × Findings)
  | [] => return ([], findings)
  | .bucket child :: rest => do
      let childPlace := place.child child.step
      let link ← (schema.link place childPlace).adapt Failure.schema
      if link.isDeferred then
        let (key, found) := findings.needKey requested ⟨path, link.source.name⟩
        let found := { found with
          deferred := found.deferred ++ [⟨path, child.outputName, link, child⟩] }
        let (others, found) ← prepareElements schema place path requested found rest
        return (key ++ others, found)
      else
        let (prepared, found) ←
          prepare schema childPlace (path ++ [child.outputName]) findings child
        let (others, found) ← prepareElements schema place path requested found rest
        return (.bucket prepared :: others, found)
  | .item item :: rest => do
      let (others, found) ← prepareElements schema place path requested findings rest
      return (.item item :: others, found)
  | .clause expression :: rest => do
      let (others, found) ← prepareElements schema place path requested findings rest
      return (.clause expression :: others, found)
  | .slice slice :: rest => do
      let (others, found) ← prepareElements schema place path requested findings rest
      return (.slice slice :: others, found)
  | .total :: rest => do
      let (others, found) ← prepareElements schema place path requested findings rest
      return (.total :: others, found)
  | .beacon beacon :: rest => do
      let (others, found) ← prepareElements schema place path requested findings rest
      return (.beacon beacon :: others, found)

end

/-- The text under which a key value groups children; null groups nothing. -/
def keyText? : Json → Option String
  | .null => none
  | value => some value.compact

/-- The distinct keys of the parents at a path, in the order they came back. -/
def parentKeys (records : List Record) (path : List String) (column : String) : List Json :=
  let values := records.filterMap fun record => do
    let value ← (← Record.objectAt? path record).get? column
    return (← keyText? value, value)
  (values.foldl (fun known entry =>
    if known.any fun other => other.1 == entry.1 then known else known ++ [entry]) []).map
    Prod.snd

/-- Children together with the text of the parent key they belong to. -/
abbrev Children := List (String × Json)

/-- The children of one key, in order. -/
def Children.of (children : Children) (key : String) : List Json :=
  (children.filter fun child => child.1 == key).map Prod.snd

/-- The clause that selects rows by their key. -/
def keyClause (column : String) (keys : List Json) : Element :=
  .clause [.clause ⟨column, .set keys⟩]

/-- The elements of a child that count in a statement of its own. -/
def countableElements (child : Bucket) : List Element :=
  child.elements.filter fun element => !element.isTotal

/-- The column as an element, unless it was asked for. -/
def missingColumn (requested : Bool) (column : String) : List Element :=
  if requested then [] else [.item (.column column)]

/-- The bucket that reads one-to-many children by their key column. -/
def childrenBucket (child : Bucket) (keyColumn : String) (keys : List Json) : Bucket where
  name := child.name
  elements := countableElements child ++
    missingColumn (child.columns.contains keyColumn) keyColumn ++ [keyClause keyColumn keys]

/-- The children among the rows read for them. -/
def childrenOfRows (requested : Bool) (keyColumn : String) (rows : List Record) : Children :=
  rows.filterMap fun (row : Record) => do
    let key ← keyText? (← row.get? keyColumn)
    return (key, .object (if requested then row else row.erase keyColumn))

/-- A text without a suffix, when it ends in it. -/
def withoutSuffix? (suffix text : String) : Option String :=
  if suffix.toList.isSuffixOf text.toList then
    some (String.ofList (text.toList.take (text.length - suffix.length)))
  else none

/-- The qualifier under which a junction reaches the target by the given column. -/
def junctionQualifier (child : Bucket) (targetKey : String) : Option String :=
  (withoutSuffix? "_id" targetKey).or child.qualifier

/-- The bucket that reads many-to-many children through their junction.  The
child's slices count for the junction's rows. -/
def junctionBucket (child : Bucket) (field interim keyColumn targetKey targetColumn : String)
    (keys : List Json) : Bucket :=
  let elements := countableElements child
  let target : Bucket := {
    name := child.name
    qualifier := junctionQualifier child targetKey
    label := some field
    elements := (elements.filter fun element => !element.isSlice) ++
      missingColumn (child.columns.contains targetColumn) targetColumn }
  { name := interim
    elements := [.item (.column keyColumn), keyClause keyColumn keys, .bucket target] ++
      elements.filter ElementOf.isSlice }

/-- The children among the rows of a junction.  A row has a child when the key of
its target came back. -/
def childrenOfJunction (requested : Bool) (field keyColumn targetColumn : String)
    (rows : List Record) : Children :=
  rows.filterMap fun (row : Record) => do
    let key ← keyText? (← row.get? keyColumn)
    let child ← (← row.get? field).fields?
    let target ← child.get? targetColumn
    if target.isNull then none
    else return (key, .object (if requested then child else child.erase targetColumn))

/-- Attaches children to the parents that have a key. -/
def attach (deferred : Deferred) (children : Children) (record : Record) : Record :=
  Record.updateAt (fun parent =>
    match (parent.get? deferred.link.source.name).bind keyText? with
    | none => parent
    | some key => parent.insert deferred.field (.array (children.of key)))
    deferred.path record

/-- Removes a column that was added for its key. -/
def removeKey (record : Record) (added : AddedKey) : Record :=
  Record.updateAt (fun parent => parent.erase added.column) added.path record

/-- What reading depends on beside the request. -/
structure Reader where
  schema : Schema
  connection : Connection
  extensions : List (String × ReadExtension) := []
  totalField : String := "total"
  collapses : Bool := true

/-- The records read for a bucket and the fields added to its view. -/
structure Fetched where
  records : List Record
  meta? : Option Record

/-- Adds fields to those of a view. -/
def mergeMeta (present : Option Record) (extra : Option Record) : Option Record :=
  match present, extra with
  | present, none => present
  | present, some fields => some (Record.merge (present.getD []) fields)

namespace Reader

/-- The planner of a reader. -/
def planner (reader : Reader) : Plan.Planner where
  schema := reader.schema
  extensions := reader.extensions
  totalField := reader.totalField

/-- Takes the total out of the rows: the value in the first row, or zero. -/
def takeTotal (reader : Reader) (bucket : Bucket) (rows : List Record) :
    List Record × Option Record :=
  if bucket.hasTotal then
    let total := ((rows.head?.bind fun row => row.get? reader.totalField).getD (.int 0))
    (rows.map (Record.erase reader.totalField), some [(reader.totalField, total)])
  else (rows, none)

/-- Lets the extensions that the beacons ask for report on the records. -/
def report (reader : Reader) : List Beacon → Fetched → Except Failure Fetched
  | [], fetched => .ok fetched
  | beacon :: rest, fetched =>
      match List.lookup beacon.key reader.extensions with
      | none => report reader rest fetched
      | some extension => do
          let (records, extra) ← extension.report beacon fetched.records
          report reader rest ⟨records, mergeMeta fetched.meta? extra⟩

/-- Reads the children of a deferred bucket, given how a bucket is read.  Without
parent keys nothing is asked. -/
def fetchChildren (read : Bucket → Run Fetched) (records : List Record) (deferred : Deferred) :
    Run Children := do
  let keys := parentKeys records deferred.path deferred.link.source.name
  if keys.isEmpty then return []
  let child := deferred.child
  match deferred.link with
  | .manyToOne _ _ => return []
  | .oneToMany _ target =>
      let fetched ← read (childrenBucket child target.name keys)
      return childrenOfRows (child.columns.contains target.name) target.name fetched.records
  | .manyToMany _ interimSource interimTarget target =>
      let fetched ← read (junctionBucket child deferred.field interimSource.path.tableName
        interimSource.name interimTarget.name target.name keys)
      return childrenOfJunction (child.columns.contains target.name) deferred.field
        interimSource.name target.name fetched.records

/-- Reads the rows of a prepared bucket. -/
def fetchRows (reader : Reader) (name : String) (prepared : Bucket) : Run (List Record) := do
  let statement ← planning (reader.planner.build prepared)
  match statement with
  | .select _ => return (← reader.connection.callExecute statement).toRows
  | _ => throw (.ambiguous name (.readBecomes statement.kind))

/-- Nested records of the rows, with all children attached and added keys
removed. -/
def assemble (reader : Reader) (findings : Findings) (records : List Record)
    (children : List Children) : List Record :=
  let attached := (findings.deferred.zip children).foldl
    (fun records (deferred, found) => records.map (attach deferred found)) records
  let cleaned := attached.map fun record => findings.added.foldl removeKey record
  if reader.collapses then cleaned.map Record.collapse else cleaned

/-- Reads a bucket through at most the given number of statements in a row, each
for the children of the one before. -/
def fetch (reader : Reader) : Nat → Bucket → Run Fetched
  | 0, _ => throw .tooDeep
  | depth + 1, bucket => do
      let (prepared, findings) ←
        planning (prepare reader.schema bucket.rootPath [] {} bucket)
      let rows ← reader.fetchRows bucket.name prepared
      let (rows, total) := reader.takeTotal prepared rows
      let records := rows.map Record.unflatten
      let children ← findings.deferred.mapM (fetchChildren (fetch reader depth) records)
      liftExcept <| reader.report bucket.beacons
        ⟨reader.assemble findings records children, total⟩

end Reader

mutual

/-- How deep buckets are nested in a bucket, itself included. -/
def nestingDepth : Bucket → Nat
  | ⟨_, _, _, elements⟩ => nestingDepthOfElements elements + 1

/-- How deep buckets are nested in elements. -/
def nestingDepthOfElements : List Element → Nat
  | [] => 0
  | .bucket nested :: rest => max (nestingDepth nested) (nestingDepthOfElements rest)
  | .item _ :: rest => nestingDepthOfElements rest
  | .clause _ :: rest => nestingDepthOfElements rest
  | .slice _ :: rest => nestingDepthOfElements rest
  | .total :: rest => nestingDepthOfElements rest
  | .beacon _ :: rest => nestingDepthOfElements rest

end

/-- Reads one bucket into a view.  A level of nesting takes at most two statements
in a row, one for its junction and one for its own rows. -/
def Reader.read (reader : Reader) (bucket : Bucket) : Run View := do
  let fetched ← reader.fetch (2 * nestingDepth bucket) bucket
  return ⟨fetched.records.map .object, fetched.meta?⟩

end TreeQuery.Session
