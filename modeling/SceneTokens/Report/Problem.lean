import SceneTokens.Report.Enriched

/-!
# Problems and exit codes

What can go wrong for the command: a failure with a report, or trouble with the
outside such as a file that is not there.  Every problem has a text and an exit code.
-/

namespace SceneTokens

/-- The exit codes of the command. -/
inductive ExitCode
  | ok
  | lexerError
  | usageError
  | contractError
  deriving DecidableEq, Repr

/-- The number of an exit code. -/
def ExitCode.toNat : ExitCode → Nat
  | .ok => 0
  | .lexerError => 1
  | .usageError => 2
  | .contractError => 3

/-- Something that went wrong. -/
inductive Problem
  /-- A failure with a report. -/
  | report (r : Report)
  /-- Trouble that has only a message. -/
  | other (message : Text)
  /-- A file that does not exist. -/
  | missingFile (message path : Text)

namespace Problem

/-! ## Trouble with files -/

/-- There is no file at a path. -/
def noSuchFile (path : Text) : Problem :=
  .missingFile ("ENOENT: no such file or directory, open '" ++ path ++ "'") path

/-- There is a directory where a file is wanted. -/
def isDirectory : Problem := .other "EISDIR: illegal operation on a directory, read"

/-- A path leads through a file. -/
def notDirectory (path : Text) : Problem :=
  .other ("ENOTDIR: not a directory, open '" ++ path ++ "'")

/-! ## Texts and exit codes -/

/-- The exit code of a problem. -/
def exitCode : Problem → ExitCode
  | .report r =>
    match r.kind with
    | .lexer => .lexerError
    | .contract => .contractError
    | .general => .usageError
  | .other _ | .missingFile .. => .usageError

/-- The message of a problem. -/
def message : Problem → Text
  | .report r => r.message
  | .other message => message
  | .missingFile message _ => message

/-- The text of a problem when no source is at hand. -/
def plain : Problem → Text
  | .report r =>
    match r.kind, r.location with
    | .lexer, some l => "Lexer error at line " ++ Text.decimalInt l.line ++ ": " ++ r.bareMessage
    | .lexer, none | .general, _ => r.message
    | .contract, _ => "Unsupported input: " ++ r.bareMessage
  | .other message => message
  | .missingFile _ path => "File not found: " ++ path

/-- The text of a problem with a source; only reports have a place in it. -/
def text (p : Problem) (source : Text) (format : OutputFormat) (around : Int) :
    Except SpanError Text :=
  match p with
  | .report r => (r.enrich source around).render format
  | .other _ | .missingFile .. => .ok p.plain

end Problem

end SceneTokens
