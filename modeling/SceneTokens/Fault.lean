import SceneTokens.Location
import SceneTokens.Report.ErrorCode
import SceneTokens.Value

/-!
# Faults

A fault is the cause of a failed read or of a misused snapshot, with the places
that it concerns.  Its code, its message, its location, its span and the values
that its message is about are functions of the cause.

A lexical fault always has a span; a broken contract has a location only.
-/

namespace SceneTokens

/-- How a snapshot was closed out of order. -/
inductive SnapshotMisuse
  | laterStillOpen
  | notOpen
  deriving DecidableEq, Repr

/-- What is wrong with the closing of a snapshot. -/
def SnapshotMisuse.reason : SnapshotMisuse → Text
  | .laterStillOpen => "a later snapshot is still open"
  | .notOpen => "snapshot is not open on this lexer"

/-- Why scanning failed. -/
inductive Fault
  /-- A line feed inside a string; the span ends after it. -/
  | unterminatedString (span : Span)
  /-- A leading run that disagrees with the run of the enclosing block at a place
  that both of them reach. -/
  | inconsistentIndentation (span : Span) (location : Location) (expected actual : Text)
  /-- A read at the end of the source. -/
  | unexpectedEnd (location : Location)
  /-- A string that reaches the end of the source. -/
  | unfinishedString (span : Span)
  /-- A carriage return without a line feed. -/
  | bareCarriageReturn (location : Location)
  /-- Whitespace that separates no tokens. -/
  | unsupportedWhitespace (location : Location) (symbol : Text)
  /-- A snapshot that is not the innermost open one. -/
  | snapshotOrder (location : Location) (misuse : SnapshotMisuse)
  deriving DecidableEq, Repr

namespace Fault

/-- The registered code of a fault. -/
def code : Fault → ErrorCode
  | .unterminatedString _ => .unterminatedString
  | .inconsistentIndentation .. => .inconsistentIndentation
  | .unexpectedEnd _ | .unfinishedString _ => .unexpectedEnd
  | .bareCarriageReturn _ => .bareCarriageReturn
  | .unsupportedWhitespace .. => .unsupportedWhitespace
  | .snapshotOrder .. => .snapshotOrder

/-- The source is malformed, as opposed to a broken contract. -/
def isLexical (f : Fault) : Bool := f.code.category == .lexer

/-- The wording of a fault. -/
def message : Fault → Text
  | .unterminatedString _ => "Unterminated string literal"
  | .inconsistentIndentation .. => "Inconsistent use of tabs and spaces in indentation"
  | .unexpectedEnd _ => "Unexpected end of input"
  | .unfinishedString _ => "Unexpected end of input while scanning string literal"
  | .bareCarriageReturn _ => "Carriage return not followed by line feed"
  | .unsupportedWhitespace _ symbol =>
    "Unsupported whitespace character " ++ Text.codePointName symbol
  | .snapshotOrder _ misuse => "Snapshot closed out of order: " ++ misuse.reason

/-- The place where scanning failed. -/
def location : Fault → Location
  | .unterminatedString span => span.start
  | .inconsistentIndentation _ location _ _ => location
  | .unexpectedEnd location => location
  | .unfinishedString span => span.stop
  | .bareCarriageReturn location => location
  | .unsupportedWhitespace location _ => location
  | .snapshotOrder location _ => location

/-- The region that a lexical fault concerns. -/
def span : Fault → Option Span
  | .unterminatedString span => some span
  | .inconsistentIndentation span _ _ _ => some span
  | .unexpectedEnd location => some (Span.point location)
  | .unfinishedString span => some span
  | .bareCarriageReturn _ | .unsupportedWhitespace .. | .snapshotOrder .. => none

/-- The values that a message is about, by name. -/
def context : Fault → Option Context
  | .inconsistentIndentation _ _ expected actual =>
    some [("expected", .text expected), ("actual", .text actual)]
  | .unsupportedWhitespace _ symbol => some [("char", .text (Text.codePointName symbol))]
  | .snapshotOrder _ misuse => some [("reason", .text misuse.reason)]
  | .unterminatedString _ | .unexpectedEnd _ | .unfinishedString _ | .bareCarriageReturn _ => none

end Fault

end SceneTokens
