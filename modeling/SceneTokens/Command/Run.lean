import SceneTokens.Command.Arguments
import SceneTokens.Command.Directory
import SceneTokens.Command.Lex
import SceneTokens.Report.Explain

/-!
# The command

The whole command as a function of its arguments and of what it can read.  Help, version
and documentation read nothing.  For a listing the configuration is read before the source,
and what the arguments ask for goes before what the configuration says.
-/

namespace SceneTokens

/-- What the command can read: the configuration, if there is one, and sources by name.  The
configuration is a document, which a reader turns into a value. -/
structure Surroundings where
  configuration : Option (Except Problem Text)
  source : Text → Except Problem Text
  document : Text → Option Value

/-- The name of the configuration file. -/
def configurationName : Text := ".scenelex.yaml"

/-- The surroundings of a directory with something on the standard input. -/
def Surroundings.ofDirectory (document : Text → Option Value) (d : Directory)
    (stdin : List UInt8) : Surroundings :=
  { configuration := d.read? configurationName
    source := fun name =>
      if name == "-" then .ok (Text.Utf8.decode stdin) else d.read name
    document := document }

namespace Command

/-- The version of the command. -/
def versionNumber : Text := "0.3.0"

/-- How to use the command. -/
def helpText : Text :=
  Text.unlines
    ["scenelex - print the token stream of a scene description",
      "",
      "Usage:",
      "  scenelex <file>               Tokenize a file",
      "  scenelex -                    Tokenize stdin",
      "  scenelex --explain <id>       Show documentation for an error ID",
      "  scenelex --help               Show this help message",
      "  scenelex --version            Show version information",
      "",
      "Options:",
      "  --format <human|json|compact> Output format (default: human)",
      "  --comments, --no-comments     Include or drop COMMENT tokens",
      "",
      "Defaults are read from .scenelex.yaml in the working directory.",
      "",
      "Exit codes:",
      "  0  tokenized successfully",
      "  1  lexical error",
      "  2  usage or file error",
      "  3  unsupported input (bare carriage return, exotic whitespace)"]

/-- The settings of a configuration file, or the default ones if there is none. -/
def baseSettings (s : Surroundings) : Except Problem Settings :=
  match s.configuration with
  | none => .ok Settings.default
  | some file => do
    let text ← file
    (Settings.ofText s.document text).mapError fun e => .other e.message

/-- The settings and the source of a listing. -/
def prepare (s : Surroundings) (file : Text) (format : Option OutputFormat)
    (includeComments : Option Bool) : Except Problem (Settings × Text) := do
  let base ← baseSettings s
  let settings : Settings :=
    { format := format.getD base.format
      includeComments := includeComments.getD base.includeComments
      contextLines := base.contextLines }
  let source ← s.source file
  return (settings, source)

/-- Carries out a command. -/
def perform (s : Surroundings) : Command → Outcome
  | .help => ⟨helpText, [], .ok⟩
  | .version => ⟨"scenelex " ++ versionNumber, [], .ok⟩
  | .explain id =>
    match ErrorCode.explain? id with
    | some documentation => ⟨documentation, [], .ok⟩
    | none => ⟨[], ErrorCode.unknownAnswer id, .usageError⟩
  | .tokens file format includeComments =>
    match prepare s file format includeComments with
    | .ok (settings, source) => lexSource source settings
    | .error problem => ⟨[], problem.plain, .usageError⟩

/-- The outcome of the command for its arguments. -/
def run (s : Surroundings) (arguments : List Text) : Outcome :=
  match ofArguments arguments with
  | .ok command => command.perform s
  | .error e => ⟨[], e.message, .usageError⟩

end Command

/-- A text as it is printed: on lines of its own, and well formed.  An empty text is not
printed. -/
def Text.printed (t : Text) : String :=
  if t.isEmpty then "" else Text.toString t ++ "\n"

end SceneTokens
