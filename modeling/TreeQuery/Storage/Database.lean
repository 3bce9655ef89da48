import TreeQuery.Storage.Files
import TreeQuery.Storage.Source

/-!
# Databases in files

The path of a database is shortened before anything is looked up: two dots take back
the name before them whether or not anything is there.  Yet no name on the way may
lie beneath a file.
-/

namespace TreeQuery.Storage

/-- An open database, and the files that are there once it is open. -/
structure Database where
  files : Files
  declarations : List Declaration := []
  isReadOnly : Bool := false

namespace Database

/-- How many bytes the path of a database may have, so that there is room for the
names of files beside it. -/
def pathLimit : Nat := 504

/-- The place that a path of a database names. -/
def place? (files : Files) (path : String) : Option Place :=
  (Place.names path).foldlM (fun place name =>
    if name = "" || name = "." then some place
    else if name = ".." then some place.above
    else
      let next := place ++ [name]
      match files.foundAt next with
      | .obstructed | .tooLong => none
      | _ => if next.byteSize ≤ pathLimit then some next else none) (Place.start path)

/-- The declarations that a file holds.  A single byte counts as nothing. -/
def declarationsOf : Content → Except OpenError (List Declaration)
  | .tables declarations => .ok declarations
  | .text content => if content.utf8ByteSize ≤ 1 then .ok [] else .error .notDatabase

/-- Opens the database at a place.  A file that is missing is created when that is
allowed; a directory can be opened only for reading, and then not be read. -/
def openAt (files : Files) (name : String) (source : Source) (place : Place) :
    Except OpenError Database := do
  let isReadOnly := source.isReadOnly
  match files.foundAt place with
  | .file content => return { files, declarations := ← declarationsOf content, isReadOnly }
  | .absent =>
      if source.access = .create then return { files := files.put place (.text ""), isReadOnly }
      throw (.noFile name)
  | .directory =>
      if source.access = .read && place != [""] then throw .notReadable
      throw (.noFile name)
  | .unreachable | .obstructed | .tooLong => throw (.noFile name)

/-- Opens a database by its name. -/
def openNamed (files : Files) (name : String) : Except OpenError Database := do
  let source ← Source.ofName name
  if source.isTransient then return { files, isReadOnly := source.isReadOnly }
  match place? files source.path with
  | none => throw (.noFile name)
  | some place => openAt files name source place

end Database

end TreeQuery.Storage
