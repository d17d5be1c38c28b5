import ModelCatalog.CommandLine.Run
import ModelCatalog.Json.Indented

/-! The command line: arguments, files and the terminal. -/

namespace ModelCatalog

/-- The reason why a file could not be read. -/
def unreadableReason : IO.Error → String
  | .noFileOrDirectory .. => "No such file or directory (os error 2)"
  | .permissionDenied .. => "Permission denied (os error 13)"
  | other => toString other

/-- The file in which a directory keeps the documents of its models. -/
def snapshotPath (dataPath : String) : String := dataPath ++ "/models.json"

/-- The models of a snapshot. -/
def modelsOfSnapshot (text : String) : Except Error (List Model) := do
  (← ModelDocument.listOfText text).mapM ModelDocument.toModel

/-- Read the text of a file, or tell why there is none. -/
def readText (path : String) : IO (Except String String) := do
  try
    return .ok (← IO.FS.readFile path)
  catch failure =>
    return .error (unreadableReason failure)

/-- The stored models of a directory; one without a snapshot has none. -/
def loadDatabase (dataPath : String) : IO (Except Error Database) := do
  match ← readText (snapshotPath dataPath) with
  | .ok text =>
    return (modelsOfSnapshot text).map fun models => Database.ofModels models 0
  | .error _ => return .ok (.empty false 0)

/-- The file a command needs, read before the command runs. -/
def filesFor (command : Command) : IO Command.Files := do
  match command.file? with
  | some path =>
    let text ← readText path
    return fun _ => text
  | none => return fun _ => .error ""

/-- Print an error; the exit code tells that the command failed. -/
def reportError (message : String) : IO UInt32 := do
  IO.eprintln ("Error: " ++ message)
  return 1

/-- Carry out a command line that could be taken apart. -/
def runArguments (arguments : Arguments) : IO UInt32 := do
  match ← loadDatabase arguments.dataPath with
  | .error error => reportError error.message
  | .ok database =>
    match arguments.run (← filesFor arguments.command) database with
    | .error error => reportError error.message
    | .ok output =>
      IO.println (output.indented 0)
      return 0

end ModelCatalog

open ModelCatalog in
/-- Carry out the words of a command line. -/
def main (words : List String) : IO UInt32 := do
  match Arguments.parse (← IO.getEnv "DATABASE_URL") words with
  | .ok arguments => runArguments arguments
  | .error .helpWanted =>
    IO.println Arguments.summary
    return 0
  | .error .versionWanted =>
    IO.println "modelcatalog 0.1.0"
    return 0
  | .error error =>
    IO.eprintln ("error: " ++ error.message ++ "\n\n" ++ Arguments.summary)
    return 2
