import SceneTokens.Report.Diagnostic
import SceneTokens.Report.Snippet

/-!
# Enriched reports

A report together with the lines of the source around it and with advice, and its
three renderings: several lines with a marked snippet, one line, or a structured
document.
-/

namespace SceneTokens

open CodeUnit

/-- A report with its surroundings. -/
structure Enriched where
  id : Text
  message : Text
  span : Option Span
  location : Option Location
  context : Option Context
  snippet : Option Snippet
  suggestions : List Text

/-- Adds the snippet and the resolution of its code to a report.  A report without a
span is shown at its location; one that does not lie in the source has no snippet. -/
def Report.enrich (r : Report) (source : Text) (around : Int) : Enriched :=
  let span := r.span <|> r.location.map Span.point
  let snippet :=
    if source.isEmpty then none
    else span.bind fun s => (Snippet.extract source s around).toOption
  { id := r.code.id
    message := r.bareMessage
    span := span
    location := r.location
    context := r.context
    snippet := snippet
    suggestions := [r.code.definition.resolution] }

/-! ## Renderings -/

namespace Snippet

/-- The width of the gutter, in which the greatest line number fits.  A platform may take the
greatest of some 126000 numbers at most and fail for a snippet with more rows; that limit is
left out. -/
def gutterWidth (s : Snippet) : Nat :=
  let numbers := s.lines.map (·.number)
  (Text.decimalInt (numbers.foldl max (numbers.headD 0))).length

/-- A row with a label in the gutter and something to show. -/
def row (width : Nat) (label content : Text) : Text :=
  space :: Text.padLeft width label ++ " | " ++ content

/-- A row with nothing to show. -/
def edge (width : Nat) : Text := space :: Text.spaces width ++ " |"

/-- The rows of a line: the line with its number and, if the span starts there, carets. -/
def lineRows (s : Snippet) (line : SnippetLine) : Except SpanError (List Text) := do
  let shown := row s.gutterWidth (Text.decimalInt line.number) line.content
  if line.number == s.highlight.start.line then
    return [shown, row s.gutterWidth [] (← s.highlight.underline line.content)]
  else return [shown]

/-- The rows of a snippet: those of its lines between two empty ones. -/
def rows (s : Snippet) : Except SpanError (List Text) := do
  let body ← s.lines.mapM s.lineRows
  return edge s.gutterWidth :: body.flatten ++ [edge s.gutterWidth]

end Snippet

namespace Enriched

/-- The place that a rendering names. -/
def place (e : Enriched) : Option Location := e.location <|> e.span.map (·.start)

/-- The diagnostic of an enriched report. -/
def diagnostic (e : Enriched) : Diagnostic := .placed e.id e.message e.span e.location

/-- The rendering over several lines. -/
def human (e : Enriched) : Except SpanError Text := do
  let headline : Text := "error[" ++ e.id ++ "]: " ++ e.message
  let arrow := e.place.toList.map fun l => Text.ofString "  --> " ++ l.text
  let snippet ←
    match e.snippet with
    | some s => if s.lines.isEmpty then pure [] else s.rows
    | none => pure []
  let help := e.suggestions.map fun s => Text.ofString "   = help: " ++ s
  return Text.unlines (headline :: arrow ++ snippet ++ help)

/-- The structured rendering: the diagnostic, and the advice if there is any. -/
def json (e : Enriched) : Text :=
  let advice :=
    if e.suggestions.isEmpty then []
    else [(Text.ofString "suggestions", Document.array (e.suggestions.map Document.text))]
  (Document.object (e.diagnostic.fields ++ advice)).render

/-- The rendering on one line. -/
def compact (e : Enriched) : Text :=
  let parts : List Text := ["[" ++ e.id ++ "]", e.message]
  [space].intercalate (parts ++ e.place.toList.map fun l => Text.ofString "at " ++ l.text)

/-- The rendering in a format. -/
def render (e : Enriched) : OutputFormat → Except SpanError Text
  | .human => e.human
  | .json => .ok e.json
  | .compact => .ok e.compact

end Enriched

end SceneTokens
