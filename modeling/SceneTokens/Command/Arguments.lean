import SceneTokens.Token.Format

/-!
# Arguments

The arguments of the command, from left to right: options with their values, switches,
and at most one file.  A request for help wins from any place, and then a request for the
version.  A request for the documentation of a code ends the reading of arguments.
-/

namespace SceneTokens

/-- What the command is asked to do. -/
inductive Command
  /-- List the tokens of a file, or of the standard input for `-`. -/
  | tokens (file : Text) (format : Option OutputFormat) (includeComments : Option Bool)
  /-- Show the documentation of a code. -/
  | explain (id : Text)
  | help
  | version
  deriving DecidableEq, Repr

/-- Why arguments are refused. -/
inductive UsageError
  | missingId
  | invalidFormat (value : Option Text)
  | unknownOption (argument : Text)
  | unexpectedArgument (argument : Text)
  deriving DecidableEq, Repr

/-- The wording of refused arguments. -/
def UsageError.message : UsageError → Text
  | .missingId => "Missing error ID after --explain"
  | .invalidFormat value =>
    "Invalid format: " ++ value.getD "(missing)" ++ " (expected human, json, or compact)"
  | .unknownOption argument => "Unknown option: " ++ argument
  | .unexpectedArgument argument => "Unexpected argument: " ++ argument

namespace Command

/-- What the arguments so far ask for. -/
structure Options where
  file : Option Text
  format : Option OutputFormat
  includeComments : Option Bool
  deriving DecidableEq, Repr

/-- The format of an option value. -/
def formatNamed (value : Text) : Except UsageError OutputFormat :=
  match OutputFormat.ofName? value with
  | some format => .ok format
  | none => .error (.invalidFormat (some value))

/-- An argument that is neither a file nor the standard input. -/
def isOption (argument : Text) : Bool :=
  argument.head? == some CodeUnit.hyphen && argument != [CodeUnit.hyphen]

/-- Reads arguments after some that have been read. -/
def readArguments (o : Options) : List Text → Except UsageError Command
  | [] =>
    match o.file with
    | some file => .ok (.tokens file o.format o.includeComments)
    | none => .ok .help
  | argument :: rest =>
    if argument == "--explain" then
      match rest with
      | id :: _ => .ok (.explain id)
      | [] => .error .missingId
    else if argument == "--format" then
      match rest with
      | value :: rest => do
        let format ← formatNamed value
        readArguments { o with format := some format } rest
      | [] => .error (.invalidFormat none)
    else
      match Text.dropLeading? "--format=" argument with
      | some value => do
        let format ← formatNamed value
        readArguments { o with format := some format } rest
      | none =>
        if argument == "--comments" then
          readArguments { o with includeComments := some true } rest
        else if argument == "--no-comments" then
          readArguments { o with includeComments := some false } rest
        else if isOption argument then .error (.unknownOption argument)
        else if o.file.isSome then .error (.unexpectedArgument argument)
        else readArguments { o with file := some argument } rest

/-- The command of an argument list. -/
def ofArguments (arguments : List Text) : Except UsageError Command :=
  if arguments.contains "--help" || arguments.contains "-h" then .ok .help
  else if arguments.contains "--version" then .ok .version
  else readArguments ⟨none, none, none⟩ arguments

end Command

end SceneTokens
