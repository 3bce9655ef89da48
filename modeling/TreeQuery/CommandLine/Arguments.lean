import TreeQuery.Sql.Dialect

/-!
# Arguments

The arguments of the program name a command and its options.  The options for the
configuration and the database may stand before or after the command; after it
they count more.  An option is given once at most on either side.
-/

namespace TreeQuery.CommandLine

/-- The commands. -/
inductive Verb where
  | read | write | plan | schema
  deriving DecidableEq

/-- Every command, in the order in which they are listed. -/
def Verb.all : List Verb := [read, write, plan, schema]

/-- The name of a command. -/
def Verb.name : Verb → String
  | read => "read"
  | write => "write"
  | plan => "plan"
  | schema => "schema"

/-- The command of a name. -/
def Verb.ofName? (name : String) : Option Verb :=
  all.find? fun verb => verb.name == name

/-- The options. -/
inductive Flag where
  | config | database | dialect | help | version
  deriving DecidableEq

namespace Flag

/-- The option of a long name. -/
def ofLong? : String → Option Flag
  | "config" => some config
  | "database" => some database
  | "dialect" => some dialect
  | "help" => some help
  | "version" => some version
  | _ => none

/-- The option of a letter. -/
def ofLetter? : Char → Option Flag
  | 'c' => some config
  | 'd' => some dialect
  | 'h' => some help
  | 'V' => some version
  | _ => none

/-- Whether an option may be given to a command, or to the program itself. -/
def isAllowed (verb : Option Verb) : Flag → Bool
  | config | database | help => true
  | dialect => verb == some .plan
  | version => verb.isNone

/-- Whether an option has a value. -/
def takesValue : Flag → Bool
  | config | database | dialect => true
  | help | version => false

end Flag

/-- The names that dialects have on the command line, in the order in which they are
listed. -/
def dialects : List Sql.Dialect := [.postgres, .mysql, .tsql, .duckdb, .sqlite]

/-- What was given to a command, or to the program in front of it. -/
structure Given where
  config : Option String := none
  database : Option String := none
  dialect : Option Sql.Dialect := none
  file : Option String := none

namespace Given

/-- Adds the value of an option, which must be new and must make sense. -/
def withOption? (given : Given) : Flag → String → Option Given
  | .config, value =>
      if given.config.isSome || value.isEmpty then none
      else some { given with config := some value }
  | .database, value =>
      if given.database.isSome then none else some { given with database := some value }
  | .dialect, value => do
      let dialect ← Sql.Dialect.ofName? value
      if given.dialect.isSome then none else some { given with dialect := some dialect }
  | .help, _ | .version, _ => none

/-- Adds the file, which must be new and have a name. -/
def withFile? (given : Given) (path : String) : Option Given :=
  if given.file.isSome || path.isEmpty then none else some { given with file := some path }

end Given

/-- What a command is told to do. -/
inductive Command where
  | read (invoice : String)
  | write (invoice : String)
  | plan (invoice : String) (dialect : Option Sql.Dialect)
  | schema

/-- The file of the invoice a command is given. -/
def Command.invoice? : Command → Option String
  | read invoice => some invoice
  | write invoice => some invoice
  | plan invoice _ => some invoice
  | schema => none

/-- Arguments that make up a call of the program. -/
structure Arguments where
  config : Option String
  database : Option String
  command : Command

/-- What the help is about. -/
inductive Topic where
  | program
  | command (verb : Verb)
  | help
  deriving DecidableEq

/-- What the arguments ask for. -/
inductive Intent where
  | run (arguments : Arguments)
  | help (topic : Topic)
  | version
  | unusable

/-- What a single argument is. -/
inductive Argument where
  | option (flag : Flag) (value : String)
  | awaiting (flag : Flag)
  | switch (flag : Flag)
  | word (text : String)
  | wordsFollow
  | unknown

namespace Argument

/-- An option with the value attached to it, if there is one. -/
def ofFlag (verb : Option Verb) (flag : Option Flag) (attached : Option (List Char)) : Argument :=
  match flag with
  | none => unknown
  | some flag =>
      if !flag.isAllowed verb then unknown
      else match flag.takesValue, attached with
        | true, some value => option flag (String.ofList value)
        | true, none => awaiting flag
        | false, none => switch flag
        | false, some _ => unknown

/-- The value after an equals sign, if there is one. -/
def valueAfterSign? : List Char → Option (List Char)
  | '=' :: value => some value
  | _ => none

/-- The value attached to a letter: what follows it, without an equals sign. -/
def valueAfterLetter? : List Char → Option (List Char)
  | [] => none
  | '=' :: value => some value
  | value => some value

/-- Reads an argument. -/
def ofText (verb : Option Verb) (text : String) : Argument :=
  match text.toList with
  | ['-', '-'] => wordsFollow
  | '-' :: '-' :: long =>
      let isNameChar (character : Char) : Bool := character != '='
      ofFlag verb (Flag.ofLong? (String.ofList (long.takeWhile isNameChar)))
        (valueAfterSign? (long.dropWhile isNameChar))
  | '-' :: letter :: rest =>
      match Flag.ofLetter? letter with
      | some .help => ofFlag verb (some .help) none
      | some .version => ofFlag verb (some .version) none
      | flag => ofFlag verb flag (valueAfterLetter? rest)
  | _ => word text

/-- Whether an argument may be the value of the option in front of it. -/
def isValue (text : String) : Bool :=
  match text.toList with
  | '-' :: _ :: _ => false
  | _ => true

end Argument

/-- The call that the options of the program, a command and its options make up. -/
def Intent.ofGiven (verb : Verb) (outer inner : Given) : Intent :=
  let call (command : Command) : Intent :=
    .run ⟨inner.config.or outer.config, inner.database.or outer.database, command⟩
  match verb, inner.file with
  | .read, some file => call (.read file)
  | .write, some file => call (.write file)
  | .plan, some file => call (.plan file inner.dialect)
  | .schema, none => call .schema
  | _, _ => .unusable

/-- Takes all that is left as words. -/
def takeWords (verb : Verb) (outer inner : Given) : List String → Intent
  | [] => .ofGiven verb outer inner
  | word :: rest =>
      match inner.withFile? word with
      | none => .unusable
      | some inner => takeWords verb outer inner rest

/-- Reads what is given to a command. -/
def takeInner (verb : Verb) (outer inner : Given) : List String → Intent
  | [] => .ofGiven verb outer inner
  | text :: rest =>
      match Argument.ofText (some verb) text with
      | .unknown => .unusable
      | .switch .version => .unusable
      | .switch _ => .help (.command verb)
      | .wordsFollow => takeWords verb outer inner rest
      | .word path =>
          match verb, inner.withFile? path with
          | .schema, _ => .unusable
          | _, none => .unusable
          | verb, some inner => takeInner verb outer inner rest
      | .option flag value =>
          match inner.withOption? flag value with
          | none => .unusable
          | some inner => takeInner verb outer inner rest
      | .awaiting flag =>
          match rest with
          | [] => .unusable
          | value :: rest =>
              match Argument.isValue value, inner.withOption? flag value with
              | true, some inner => takeInner verb outer inner rest
              | _, _ => .unusable

/-- What the command for help is asked about. -/
def helpIntent : List String → Intent
  | [] => .help .program
  | [name] =>
      if name = "help" then .help .help
      else match Verb.ofName? name with
        | some verb => .help (.command verb)
        | none => .unusable
  | _ => .unusable

/-- Reads what is given in front of the command, and the rest. -/
def takeOuter (outer : Given) : List String → Intent
  | [] => .unusable
  | text :: rest =>
      match Argument.ofText none text with
      | .unknown | .wordsFollow => .unusable
      | .switch .version => .version
      | .switch _ => .help .program
      | .word "help" => helpIntent rest
      | .word name =>
          match Verb.ofName? name with
          | none => .unusable
          | some verb => takeInner verb outer {} rest
      | .option flag value =>
          match outer.withOption? flag value with
          | none => .unusable
          | some outer => takeOuter outer rest
      | .awaiting flag =>
          match rest with
          | [] => .unusable
          | value :: rest =>
              match Argument.isValue value, outer.withOption? flag value with
              | true, some outer => takeOuter outer rest
              | _, _ => .unusable

/-- What the arguments of the program ask for. -/
def Intent.ofArguments (arguments : List String) : Intent :=
  takeOuter {} arguments

end TreeQuery.CommandLine
