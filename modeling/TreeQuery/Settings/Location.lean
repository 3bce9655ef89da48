import TreeQuery.Settings.Basic
import TreeQuery.Storage.Files

/-!
# Where settings are found

A file named by a variable comes first and must exist; then the file of the
directory, then that of the user.  Without any of them the defaults hold.
-/

namespace TreeQuery.Settings

open Storage (Files)

/-- The variable that names the file of the settings. -/
def pathVariable : String := "TRELLIS_CONFIG"

/-- The file of the directory. -/
def localPath : String := "trellis.toml"

/-- The variable that names the directory of the user. -/
def homeVariable : String := "HOME"

/-- The variable that names the directory of the user's settings. -/
def directoryVariable : String := "XDG_CONFIG_HOME"

/-- The directory of the user's settings.  A variable that names it has to say where it
is from the root on; otherwise it lies in the directory of the user. -/
def userDirectory? (environment : Variables) : Option String :=
  let named := (List.lookup directoryVariable environment).filter fun path =>
    path.toList.head? = some '/'
  let home := (List.lookup homeVariable environment).filter fun path => !path.isEmpty
  named.or (home.map (· ++ "/.config"))

/-- The file of the user. -/
def userPath? (environment : Variables) : Option String :=
  (userDirectory? environment).map (· ++ "/trellis/config.toml")

/-- The files in which settings may be found when none is named. -/
def paths (environment : Variables) : List String :=
  match List.lookup pathVariable environment with
  | some path => [path]
  | none => localPath :: (userPath? environment).toList

/-- The settings of a file. -/
def ofFile (files : Files) (path : String) : Except Problem Settings :=
  if files.pathExists path then
    match files.readText path with
    | .ok text => ofText text
    | .error problem => .error (.unreadable problem.message)
  else .error (.fileNotFound path)

/-- The settings that hold. -/
def load (files : Files) (environment : Variables) : Except Problem Settings :=
  match List.lookup pathVariable environment with
  | some path => ofFile files path
  | none =>
      match (paths environment).find? files.pathExists with
      | some path => ofFile files path
      | none => .ok {}

end TreeQuery.Settings
