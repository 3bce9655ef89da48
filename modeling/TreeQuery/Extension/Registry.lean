import TreeQuery.Extension.Write
import TreeQuery.Text.Printable

/-!
# The registry of extensions

Extensions are registered under the keys by which beacons ask for them, those of
reads and those of writes apart.
-/

namespace TreeQuery.Extension

/-- The registered extensions. -/
structure Registry where
  read : List (String × ReadExtension) := []
  write : List (String × WriteExtension) := []

namespace Registry

/-- The registry with the extension that replaces rows. -/
def standard : Registry where
  write := [("upsert", upsert)]

/-- Registers an extension of reads, in place of an earlier one. -/
def withRead (registry : Registry) (key : String) (extension : ReadExtension) : Registry :=
  { registry with read := (key, extension) :: registry.read.filter fun entry => entry.1 != key }

/-- Registers an extension of writes, in place of an earlier one. -/
def withWrite (registry : Registry) (key : String) (extension : WriteExtension) : Registry :=
  { registry with write := (key, extension) :: registry.write.filter fun entry => entry.1 != key }

/-- Whether an extension of reads is registered under a key. -/
def hasRead (registry : Registry) (key : String) : Bool :=
  (List.lookup key registry.read).isSome

/-- Whether an extension of writes is registered under a key. -/
def hasWrite (registry : Registry) (key : String) : Bool :=
  (List.lookup key registry.write).isSome

/-- Keys in order, quoted, between brackets. -/
def keysText (keys : List String) : String :=
  "[" ++ ", ".intercalate ((keys.mergeSort fun left right => decide (left ≤ right)).map
    Text.showQuoted) ++ "]"

/-- A registry for people. -/
def text (registry : Registry) : String :=
  "Extensions \x7b read: " ++ keysText (registry.read.map Prod.fst) ++ ", write: " ++
    keysText (registry.write.map Prod.fst) ++ " \x7d"

/-- Applies the extensions that the beacons ask for, in order. -/
def applyAll (registry : Registry) (writer : Session.Writer) :
    List Beacon → Bucket → Session.Run Bucket
  | [], bucket => return bucket
  | beacon :: rest, bucket =>
      match List.lookup beacon.key registry.write with
      | none => applyAll registry writer rest bucket
      | some extension => do
          applyAll registry writer rest (← extension.apply beacon bucket writer)

/-- The bucket to write: its own beacons are applied and gone. -/
def prepareWrite (registry : Registry) (writer : Session.Writer) (bucket : Bucket) :
    Session.Run Bucket :=
  registry.applyAll writer bucket.beacons
    { bucket with elements := bucket.elements.filter fun element => element.beacon?.isNone }

end Registry

end TreeQuery.Extension
