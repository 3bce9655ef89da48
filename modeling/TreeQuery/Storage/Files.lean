import TreeQuery.Storage.Declaration

/-!
# Files

Files by the names on the way to them.  A file holds text or is a database of
declared tables.  Paths lead from the current directory; the way of a path that
begins with a slash starts at the root, whose name is empty.  What lies above the
current directory is written with two dots; directories are there, but nothing is
known to be in them.
-/

namespace TreeQuery.Storage

/-- The names on the way to a file or a directory, without detours. -/
abbrev Place := List String

namespace Place

/-- Whether a place lies above the current directory or is the directory itself. -/
def isAncestor (place : Place) : Bool :=
  place.all (· == "..")

/-- The place above a place.  The root has none but itself. -/
def above (place : Place) : Place :=
  if place = [""] then place
  else if place.isAncestor then place ++ [".."]
  else place.dropLast

/-- How many bytes it takes to write a place. -/
def byteSize (place : Place) : Nat :=
  place.foldl (fun size name => size + (name.utf8ByteSize + 1)) 0

/-- The names of a path between its slashes. -/
def names (path : String) : List String :=
  (path.toList.splitOn '/').map String.ofList

/-- Where the way of a path starts. -/
def start (path : String) : Place :=
  if path.toList.head? = some '/' then [""] else []

/-- The place that a path names when every directory on its way is there. -/
def ofPath (path : String) : Place :=
  (names path).foldl (fun place name =>
    if name = "" || name = "." then place
    else if name = ".." then above place
    else place ++ [name]) (start path)

end Place

/-- What a file holds. -/
inductive Content where
  | text (content : String)
  | tables (declarations : List Declaration)

/-- Files by their places, and the directories that are there even without a file. -/
structure Files where
  files : List (Place × Content) := []
  directories : List Place := []

/-- What a path leads to.  Something can be put at a path where nothing is only when
the way there exists. -/
inductive Found where
  | file (content : Content)
  | directory
  | absent
  | unreachable
  | obstructed
  | tooLong

/-- Why a file cannot be read as text. -/
inductive ReadError where
  | notFound
  | isDirectory
  | notDirectory
  | nameTooLong
  | notText
  deriving DecidableEq

/-- The wording of a read error. -/
def ReadError.message : ReadError → String
  | notFound => "No such file or directory (os error 2)"
  | isDirectory => "Is a directory (os error 21)"
  | notDirectory => "Not a directory (os error 20)"
  | nameTooLong => "File name too long (os error 36)"
  | notText => "stream did not contain valid UTF-8"

namespace Files

/-- How many bytes a name may have. -/
def nameLimit : Nat := 255

/-- How many bytes a path may have. -/
def pathLimit : Nat := 4095

/-- The files with one more, at a place. -/
def put (files : Files) (place : Place) (content : Content) : Files :=
  { files with files := files.files ++ [(place, content)] }

/-- The files with one more, at the end of a path. -/
def insert (files : Files) (path : String) (content : Content) : Files :=
  files.put (Place.ofPath path) content

/-- Whether a place is a directory: one on the way to a file, or one that is there
without a file. -/
def isDirectory (files : Files) (place : Place) : Bool :=
  (files.files.any fun file => place.isPrefixOf file.1 && place != file.1) ||
    files.directories.any fun directory => place.isPrefixOf directory

/-- Goes on from a directory along names. -/
def follow (files : Files) (place : Place) : List String → Found
  | [] => .directory
  | name :: rest =>
      if name = "" || name = "." then follow files place rest
      else if name = ".." then follow files place.above rest
      else if nameLimit < name.utf8ByteSize then .tooLong
      else
        let next := place ++ [name]
        if files.isDirectory next then follow files next rest
        else match List.lookup next files.files, rest with
          | some content, [] => .file content
          | some _, _ => .obstructed
          | none, [] => .absent
          | none, _ => .unreachable

/-- What is at a place. -/
def foundAt (files : Files) : Place → Found
  | "" :: rest => files.follow [""] rest
  | place => files.follow [] place

/-- What a path leads to. -/
def find (files : Files) (path : String) : Found :=
  if path = "" then .unreachable
  else if pathLimit < path.utf8ByteSize then .tooLong
  else files.follow (Place.start path) (Place.names path)

/-- Whether something is at a path. -/
def pathExists (files : Files) (path : String) : Bool :=
  match files.find path with
  | .file _ | .directory => true
  | .absent | .unreachable | .obstructed | .tooLong => false

/-- The text of a file.  A database without tables has nothing in its file. -/
def readText (files : Files) (path : String) : Except ReadError String :=
  match files.find path with
  | .file (.text content) => .ok content
  | .file (.tables []) => .ok ""
  | .file (.tables _) => .error .notText
  | .directory => .error .isDirectory
  | .absent | .unreachable => .error .notFound
  | .obstructed => .error .notDirectory
  | .tooLong => .error .nameTooLong

end Files

end TreeQuery.Storage
