import TreeQuery.CommandLine.Arguments

/-!
# Help

The help of the program and of each command: what it does, how it is called, and
what it may be given, in columns.
-/

namespace TreeQuery.CommandLine

/-- The name by which the program is called. -/
def programName : String := "trellis"

/-- The program with its version. -/
def versionText : String := programName ++ " 0.1.0"

/-- What the program is for. -/
def programSummary : String := "Trellis - nested declarative reads and writes over SQL"

/-- What a command does. -/
def Verb.summary : Verb → String
  | read => "Read an invoice and print the resulting views as JSON"
  | write => "Write an invoice inside one transaction"
  | plan => "Print the SQL for each top-level bucket without executing it"
  | schema => "Print tables, foreign keys and resolvable links"

/-- What the command for help does. -/
def helpSummary : String := "Print this message or the help of the given subcommand(s)"

/-- Whether a command is given the file of an invoice. -/
def Verb.takesFile : Verb → Bool
  | read | write | plan => true
  | schema => false

/-- A part of the help: a title, and entries with what they mean. -/
structure Section where
  title : String
  entries : List (String × String)

/-- The text of a part.  What the entries mean begins in the same column. -/
def Section.text (part : Section) : String :=
  let width := (part.entries.map fun entry => entry.1.length).foldl max 0
  let line (entry : String × String) : String :=
    "  " ++ entry.1 ++ String.ofList (List.replicate (width - entry.1.length + 2) ' ') ++
      entry.2 ++ "\n"
  "\n" ++ part.title ++ ":\n" ++ String.join (part.entries.map line)

/-- The commands, as the help lists them. -/
def commandSection : Section where
  title := "Commands"
  entries := (Verb.all.map fun verb => (verb.name, verb.summary)) ++ [("help", helpSummary)]

/-- The options of the program itself, or of a command. -/
def optionSection (verb : Option Verb) : Section where
  title := "Options"
  entries :=
    [("-c, --config <CONFIG>", "Path to a config file (defaults to the usual search locations)")] ++
    (if verb = some .plan then
      [("-d, --dialect <DIALECT>",
        "SQL dialect to render (defaults to the configured one) [possible values: " ++
          ", ".intercalate (dialects.map Sql.Dialect.name) ++ "]")]
    else []) ++
    [("    --database <DATABASE>", "SQLite database path, overriding the configured one"),
      ("-h, --help", "Print help")] ++
    (if verb.isNone then [("-V, --version", "Print version")] else [])

/-- The help of a command. -/
def Verb.help (verb : Verb) : String :=
  verb.summary ++ "\n\nUsage: " ++ programName ++ " " ++ verb.name ++ " [OPTIONS]" ++
    (if verb.takesFile then " <FILE>\n" ++
      Section.text ⟨"Arguments", [("<FILE>", "Path to the invoice JSON file")]⟩
    else "\n") ++
    (optionSection (some verb)).text

/-- The help about a topic. -/
def Topic.text : Topic → String
  | program =>
      programSummary ++ "\n\nUsage: " ++ programName ++ " [OPTIONS] <COMMAND>\n" ++
        commandSection.text ++ (optionSection none).text
  | command verb => verb.help
  | help =>
      helpSummary ++ "\n\nUsage: " ++ programName ++ " help [COMMAND]\n" ++ commandSection.text

end TreeQuery.CommandLine
