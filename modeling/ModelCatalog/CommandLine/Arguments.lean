import ModelCatalog.CommandLine.Usage
import ModelCatalog.Registry.Configuration

/-! The command line of the catalog: its options and its commands. -/

namespace ModelCatalog

/-- What the command line asks for. -/
inductive Command where
  /-- Create a model from a document. -/
  | define (file : String)
  /-- Replace the fields of a model from a document. -/
  | update (file : String)
  /-- Delete a model and everything referring to it. -/
  | delete (name : String)
  /-- Show a stored model. -/
  | display (name : String)
  /-- List the names of stored models. -/
  | list
  /-- Show the statements a document would lead to. -/
  | preview (file : String)
  /-- Recompute the counterparts of all models. -/
  | reconcile (reapplying : Bool)
  /-- Create the built-in tables. -/
  | bootstrap
  /-- List operations that failed or never finished. -/
  | pending
  deriving DecidableEq, Repr

/-- The command changes stored models. -/
def Command.isMutating : Command → Bool
  | define _ | update _ | delete _ | reconcile _ => true
  | _ => false

/-- The file whose text a command needs. -/
def Command.file? : Command → Option String
  | define file | update file | preview file => some file
  | _ => none

/-- A command with the settings to carry it out with. -/
structure Arguments where
  /-- The directory of the stored models. -/
  dataPath : String
  /-- The database that statements are to be run in, if they are. -/
  databaseUrl : Option String
  configuration : Configuration
  command : Command

namespace Arguments

/-- The directory of the stored models, unless another is given. -/
def defaultDataPath : String := "./catalog-data"

/-- The option by which every command explains itself. -/
def helpOption : Usage.Parameter := ⟨"help", some 'h', .help⟩

/-- The commands by name, with what each understands. -/
def commands : List (String × Usage.Command) :=
  let plain := fun (positions : List Usage.Parameter) => Usage.Command.mk [helpOption] positions []
  let file : Usage.Parameter := ⟨"file", none, .path⟩
  let name : Usage.Parameter := ⟨"name", none, .text⟩
  [("define", plain [file]), ("update", plain [file]), ("delete", plain [name]),
    ("show", plain [name]), ("list", plain []), ("preview", plain [file]),
    ("reconcile", ⟨[⟨"reapply-ddl", none, .flag⟩, helpOption], [], []⟩),
    ("bootstrap", plain []), ("pending", plain [])]

/-- The command that explains the others. -/
def helpCommand : String := "help"

/-- What can be asked for, in a few lines. -/
def summary : String :=
  "Usage: modelcatalog [OPTIONS] <COMMAND>\n\n" ++
  "Commands: define <FILE>, update <FILE>, delete <NAME>, show <NAME>, list,\n" ++
  "  preview <FILE>, reconcile [--reapply-ddl], bootstrap, pending, help\n\n" ++
  "Options: -d, --data-path <PATH>, --database-url <URL>,\n" ++
  "  --statement-timeout <SECONDS>, --system-fields, -h, --help, -V, --version"

/-- What stands in front of the commands. -/
def top : Usage.Command where
  options :=
    [⟨"data-path", some 'd', .path⟩, ⟨"database-url", none, .text⟩,
      ⟨"statement-timeout", none, .number⟩, ⟨"system-fields", none, .flag⟩,
      helpOption, ⟨"version", some 'V', .version⟩]
  positions := []
  subcommands := commands.map Prod.fst ++ [helpCommand]

/-- Explain a command, or the command line when none is named. -/
def explain : List String → UsageError
  | [] => .helpWanted
  | [name] => if top.subcommands.contains name then .helpWanted else .unknownSubcommand
  | _ => .unknownSubcommand

/-- The value given to a parameter. -/
def valueOf (given : List (String × String)) (name : String) : Option String :=
  (given.find? fun parameter => parameter.1 == name).map Prod.snd

/-- The command of a name with the values given to it. -/
def commandOf (name : String) (given : List (String × String)) : Except UsageError Command :=
  -- All positions are required, so a value that is missing here does not arise.
  let value := fun parameter => (valueOf given parameter).getD ""
  match name with
  | "define" => .ok (.define (value "file"))
  | "update" => .ok (.update (value "file"))
  | "delete" => .ok (.delete (value "name"))
  | "show" => .ok (.display (value "name"))
  | "list" => .ok .list
  | "preview" => .ok (.preview (value "file"))
  | "reconcile" => .ok (.reconcile (valueOf given "reapply-ddl").isSome)
  | "bootstrap" => .ok .bootstrap
  | "pending" => .ok .pending
  | _ => .error .unknownSubcommand

/-- Take the words after the name of a command. -/
def parseCommand (name : String) (words : List String) : Except UsageError Command := do
  -- Help is asked for by name, too, and takes the name of what is to be explained.
  if name = helpCommand then throw (explain words)
  match commands.find? fun command => command.1 == name with
  | some (_, command) => commandOf name (← Usage.takeAll command words)
  | none => throw .unknownSubcommand

/-- The settings that were given. -/
def configurationOf (given : List (String × String)) : Configuration :=
  let seconds := ((valueOf given "statement-timeout").bind Usage.parseNumber).getD 30
  { Configuration.standard with
    statementTimeout := .ofSeconds seconds
    auditFields := (valueOf given "system-fields").isSome }

/-- Take the words of a command line; the address of the database may come from elsewhere. -/
def parse (elsewhere : Option String) (words : List String) : Except UsageError Arguments := do
  let (progress, subcommand) ← Usage.take top .start words
  -- The words of the command are taken before the options in front of it are settled.
  let command ← subcommand.mapM fun (name, rest) => parseCommand name rest
  let settled ← progress.settle
  let given := settled.given
  let databaseUrl := (valueOf given "database-url").or elsewhere
  match command with
  | none =>
    if given.isEmpty && elsewhere.isNone then throw .nothingWanted else throw .missingSubcommand
  | some command =>
    return {
      dataPath := (valueOf given "data-path").getD defaultDataPath
      -- An empty address asks for no database.
      databaseUrl := databaseUrl.filter fun url => !url.isEmpty
      configuration := configurationOf given
      command := command }

end Arguments

end ModelCatalog
