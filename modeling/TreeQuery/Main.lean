import TreeQuery.CommandLine.Run

/-!
# The program

The outer layer of the command line: it looks up the variables and reads the files
that a call depends on, runs the call, and prints its report.  A database file
holds the declarations of its tables.
-/

namespace TreeQuery.CommandLine

/-- Adds the values of variables that are set. -/
def readVariables (environment : Settings.Variables) (names : List String) :
    IO Settings.Variables :=
  names.foldlM (fun known name => do
    match ← IO.getEnv name with
    | some value => return known ++ [(name, value)]
    | none => return known) environment

/-- Adds the files that can be read, with what the given function makes of them. -/
def readFiles (content : String → Storage.Content) (files : Storage.Files)
    (paths : List String) : IO Storage.Files :=
  paths.foldlM (fun known (path : String) => do
    match ← (IO.FS.readFile path).toBaseIO with
    | .ok text => return known.insert path (content text)
    | .error _ => return known) files

/-- The content of a database file. -/
def databaseContent (text : String) : Storage.Content :=
  match (Json.parse? text).bind Storage.Declaration.decodeAll? with
  | some declarations => .tables declarations
  | none => .text text

/-- The file of the database that settings name, if there is one. -/
def databasePath? (settings : Settings) (environment : Settings.Variables) : Option String :=
  match settings.resolvedPath environment with
  | .error _ => none
  | .ok name =>
      match Storage.Source.ofName name with
      | .error _ => none
      | .ok source => some source.path

/-- The variables and files that a call depends on. -/
def readWorld (arguments : Arguments) : IO (Storage.Files × Settings.Variables) := do
  let environment ← readVariables []
    [Settings.pathVariable, Settings.homeVariable, Settings.directoryVariable]
  let settingsPaths := match arguments.config with
    | some path => [path]
    | none => Settings.paths environment
  let files ← readFiles .text {} (settingsPaths ++ arguments.command.invoice?.toList)
  match settingsOf files environment arguments with
  | .error _ => return (files, environment)
  | .ok settings =>
      let environment ← readVariables environment (Settings.references settings.database.path)
      let databasePath := (databasePath? settings environment).toList
      return (← readFiles databaseContent files databasePath, environment)

/-- Prints how a call ends. -/
def finish (ending : Ending) : IO UInt32 := do
  match ending with
  | .done report =>
      IO.print report.output
      match report.problem? with
      | some problem => IO.eprintln ("Error: " ++ problem.message)
      | none => pure ()
  | .unusable => IO.eprint (Topic.text .program)
  return ending.exitCode.toUInt32

/-- Runs a call of the program. -/
def performCall (arguments : List String) : IO UInt32 := do
  match Intent.ofArguments arguments with
  | .run call => do
      let (files, environment) ← readWorld call
      finish (run files environment arguments)
  | _ => finish (run {} [] arguments)

end TreeQuery.CommandLine

/-- The entry of the program. -/
def main (arguments : List String) : IO UInt32 :=
  TreeQuery.CommandLine.performCall arguments
