import SceneTokens.Report.Basic
import SceneTokens.Token.Format

/-!
# Diagnostics

The form in which editors take failures.  Positions count lines and characters from
zero, and the range covers the span of the failure, or its location alone, or nothing.
-/

namespace SceneTokens

/-- A position that an editor understands. -/
structure Position where
  line : Int
  character : Int
  deriving DecidableEq, Repr

/-- The position of a location. -/
def Position.ofLocation (l : Location) : Position := ⟨l.line - 1, l.column⟩

/-- A range of positions. -/
structure Range where
  start : Position
  stop : Position
  deriving DecidableEq, Repr

/-- The range of a span. -/
def Range.ofSpan (s : Span) : Range := ⟨Position.ofLocation s.start, Position.ofLocation s.stop⟩

/-- A failure for an editor. -/
structure Diagnostic where
  range : Option Range
  code : Text
  message : Text
  deriving DecidableEq, Repr

namespace Diagnostic

/-- The diagnostic of a failure at a span, or else at a location. -/
def placed (code message : Text) (span : Option Span) (location : Option Location) : Diagnostic :=
  { range := (span <|> location.map Span.point).map Range.ofSpan
    code := code
    message := message }

/-- The diagnostic of a report shows the message without its place. -/
def ofReport (r : Report) : Diagnostic := .placed r.code.id r.bareMessage r.span r.location

/-- Every failure is an error, the first of the degrees of severity. -/
def severity : Int := 1

/-- The program that diagnostics come from. -/
def origin : Text := "scenelex"

end Diagnostic

/-- The structured form of a position. -/
def Position.document (p : Position) : Document :=
  .object [("line", .int p.line), ("character", .int p.character)]

/-- The structured form of a range. -/
def Range.document (r : Range) : Document :=
  .object [("start", r.start.document), ("end", r.stop.document)]

/-- The fields of a diagnostic. -/
def Diagnostic.fields (d : Diagnostic) : List (Text × Document) :=
  [("range", (d.range.map Range.document).getD .null), ("severity", .int severity),
    ("code", .text d.code), ("source", .text origin), ("message", .text d.message)]

/-- The structured form of a diagnostic. -/
def Diagnostic.document (d : Diagnostic) : Document := .object d.fields

end SceneTokens
