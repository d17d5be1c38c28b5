/-! Command lines: options, values and subcommands, and the ways in which they can be wrong.

Words are taken from left to right. A value is checked only when the word after it has been looked
at, so that an unknown option is reported before a bad value in front of it; the words after a
subcommand are dealt with before the last value in front of it. -/

namespace ModelCatalog

/-- Why a command line is not carried out. -/
inductive UsageError where
  /-- Help was asked for. -/
  | helpWanted
  /-- The version was asked for. -/
  | versionWanted
  /-- Nothing was asked for. -/
  | nothingWanted
  | missingSubcommand
  | missingArgument
  | unknownArgument
  | unknownSubcommand
  /-- A value is missing or empty. -/
  | emptyValue
  /-- A value does not have the form it should have. -/
  | malformedValue
  | repeatedOption
  /-- A value is given to an option that takes none. -/
  | unneededValue
  deriving DecidableEq, Repr

/-- The text of a usage error. -/
def UsageError.message : UsageError → String
  | helpWanted => "help was asked for"
  | versionWanted => "the version was asked for"
  | nothingWanted => "a command is needed"
  | missingSubcommand => "a command is needed after the options"
  | missingArgument => "an argument is missing"
  | unknownArgument => "there is an unexpected argument"
  | unknownSubcommand => "there is no such command"
  | emptyValue => "an option needs a value"
  | malformedValue => "a value does not have the right form"
  | repeatedOption => "an option is given more than once"
  | unneededValue => "a value is given to an option that takes none"

namespace Usage

/-- What a parameter does with its value. -/
inductive Role where
  /-- It takes no value. -/
  | flag
  /-- It takes any value. -/
  | text
  /-- It takes a path, which is not empty. -/
  | path
  /-- It takes a natural number of at most 64 bits. -/
  | number
  /-- It asks for help. -/
  | help
  /-- It asks for the version. -/
  | version
  deriving DecidableEq, Repr

/-- A parameter: an option, or a value known by its position. -/
structure Parameter where
  name : String
  short : Option Char
  role : Role
  deriving DecidableEq, Repr

/-- What a command understands. -/
structure Command where
  options : List Parameter
  positions : List Parameter
  subcommands : List String

/-- The natural number of at most 64 bits that a text stands for. -/
def parseNumber (text : String) : Option Nat :=
  let digits :=
    match text.toList with
    | '+' :: rest => rest
    | other => other
  if digits.isEmpty || !digits.all Char.isDigit then none
  else
    let value := digits.foldl (fun value digit => value * 10 + (digit.toNat - 48)) 0
    if value < Nat.pow 2 64 then some value else none

/-- A value is right for a parameter. -/
def checkValue (parameter : Parameter) (value : String) : Except UsageError Unit :=
  match parameter.role with
  | .path => if value.isEmpty then .error .emptyValue else .ok ()
  | .number => if (parseNumber value).isSome then .ok () else .error .malformedValue
  | _ => .ok ()

/-- How far the words have been taken. -/
structure Progress where
  /-- The parameters given so far, with their values. -/
  given : List (String × String)
  /-- The parameter still to be checked, and its value if there is one. -/
  pending : Option (Parameter × Option String)
  /-- The next word is the value of the pending parameter. -/
  awaiting : Bool
  /-- Two dashes have been met; all words are values from there on. -/
  trailing : Bool
  /-- The number of values taken by position. -/
  position : Nat

/-- Nothing has been taken yet. -/
def Progress.start : Progress where
  given := []
  pending := none
  awaiting := false
  trailing := false
  position := 0

/-- Take a parameter with its value; each is taken once. -/
def Progress.accept (progress : Progress) (parameter : Parameter) (value : String) :
    Except UsageError Progress := do
  if progress.given.any fun earlier => earlier.1 == parameter.name then
    throw .repeatedOption
  checkValue parameter value
  return { progress with given := progress.given ++ [(parameter.name, value)] }

/-- Check the parameter that is still to be checked. -/
def Progress.settle (progress : Progress) : Except UsageError Progress := do
  let settled := { progress with pending := none, awaiting := false }
  match progress.pending with
  | none => return settled
  | some (_, none) => throw .emptyValue
  | some (parameter, some value) => settled.accept parameter value

/-- Take an option that was found; a value attached to it has been split off. -/
def Progress.meet (progress : Progress) (parameter : Parameter) (attached : Option String) :
    Except UsageError Progress := do
  let settled ← progress.settle
  match parameter.role with
  | .help => throw .helpWanted
  | .version => throw .versionWanted
  | .flag => settled.accept parameter ""
  | _ =>
    match attached with
    | some value => settled.accept parameter value
    | none => return { settled with pending := some (parameter, none), awaiting := true }

/-- The role goes without a value. -/
def Role.isBare : Role → Bool
  | .flag | .help | .version => true
  | _ => false

/-- Take a word that begins with two dashes. -/
def takeLong (command : Command) (progress : Progress) (word : List Char) :
    Except UsageError Progress :=
  let name := String.ofList (word.takeWhile (· != '='))
  let attached :=
    match word.dropWhile (· != '=') with
    | [] => none
    | _ :: value => some (String.ofList value)
  match command.options.find? fun parameter => parameter.name == name with
  | none => .error .unknownArgument
  | some parameter =>
    if parameter.role.isBare && attached.isSome then .error .unneededValue
    else progress.meet parameter attached

/-- Take the letters after a single dash; the rest of the word may be the value of a letter. -/
def takeShort (command : Command) : Progress → List Char → Except UsageError Progress
  | progress, [] => .ok progress
  | progress, letter :: rest =>
    match command.options.find? fun parameter => parameter.short == some letter with
    | none => .error .unknownArgument
    | some parameter => do
      if parameter.role.isBare then
        takeShort command (← progress.meet parameter none) rest
      else
        let attached :=
          match rest with
          | [] => none
          | '=' :: value => some (String.ofList value)
          | value => some (String.ofList value)
        progress.meet parameter attached

/-- Take a word by its position. -/
def takePosition (command : Command) (progress : Progress) (word : String) :
    Except UsageError Progress :=
  match command.positions[progress.position]? with
  | some parameter => do
    let settled ← progress.settle
    return { settled with
      pending := some (parameter, some word)
      position := settled.position + 1 }
  | none =>
    if command.subcommands.isEmpty then .error .unknownArgument
    else if progress.trailing && command.subcommands.contains word then .error .unknownArgument
    else .error .unknownSubcommand

/-- Take words up to a subcommand, which is returned with the words after it. -/
def take (command : Command) :
    Progress → List String → Except UsageError (Progress × Option (String × List String))
  | progress, [] => .ok (progress, none)
  | progress, word :: rest =>
    if progress.trailing then do
      take command (← takePosition command progress word) rest
    else if !progress.awaiting && command.subcommands.contains word then
      .ok (progress, some (word, rest))
    else
      match word.toList with
      | ['-', '-'] => take command { progress with trailing := true, awaiting := false } rest
      | '-' :: '-' :: name => do take command (← takeLong command progress name) rest
      | '-' :: letter :: letters => do
        take command (← takeShort command progress (letter :: letters)) rest
      | _ =>
        match progress.pending with
        | some (parameter, none) =>
          if progress.awaiting then
            take command
              { progress with pending := some (parameter, some word), awaiting := false } rest
          else do take command (← takePosition command progress word) rest
        | _ => do take command (← takePosition command progress word) rest

/-- Take all the words of a command without subcommands, of which every position is filled. -/
def takeAll (command : Command) (words : List String) :
    Except UsageError (List (String × String)) := do
  let taken ← take command .start words
  let settled ← taken.1.settle
  if settled.position < command.positions.length then throw .missingArgument
  return settled.given

end Usage

end ModelCatalog
