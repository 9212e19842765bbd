import SceneTokens.Location

/-!
# Source snippets

A snippet is the lines of a source around a span, with their numbers.  A line does
not show the carriage return of its line end.  Under the first line of the span a row
of carets marks the columns that the span covers there.
-/

namespace SceneTokens

open CodeUnit

/-- Why a span cannot be shown in a source. -/
inductive SpanError
  | outOfBounds
  | reversed
  deriving DecidableEq, Repr

/-- The wording of a span that cannot be shown. -/
def SpanError.message : SpanError → Text
  | .outOfBounds => "Span exceeds source bounds"
  | .reversed => "Span start must precede end"

/-- A numbered line of a snippet. -/
structure SnippetLine where
  number : Int
  content : Text
  isError : Bool
  deriving DecidableEq, Repr

/-- Lines of a source and the span to mark in them. -/
structure Snippet where
  lines : List SnippetLine
  highlight : Span
  deriving DecidableEq, Repr

/-- The integers from `first` to `last`. -/
def Snippet.numbers (first last : Int) : List Int :=
  (List.range (last + 1 - first).toNat).map fun i : Nat => first + i

/-- The line of a number among the lines of a source, marked if it is in a range. -/
def SnippetLine.ofRows (rows : List Text) (first last number : Int) : SnippetLine :=
  { number := number
    content := Text.withoutReturn (rows[(number - 1).toNat]?.getD [])
    isError := first ≤ number && number ≤ last }

/-- The snippet of a span with `around` more lines on both sides, as far as there are
any.  An empty source has no lines to show. -/
def Snippet.extract (source : Text) (span : Span) (around : Int) : Except SpanError Snippet :=
  if source.isEmpty then .ok ⟨[], span⟩
  else
    let rows := Text.lines source
    let total : Int := rows.length
    let first := span.start.line
    let last := span.stop.line
    if first < 1 || total < first || last < 1 || total < last then .error .outOfBounds
    else
      let shown := Snippet.numbers (max 1 (first - around)) (min total (last + around))
      .ok ⟨shown.map (SnippetLine.ofRows rows first last), span⟩

/-- The carets under the first line of a span.  There is at least one, and a span over
several lines is marked up to the end of the line. -/
def Span.underline (span : Span) (line : Text) : Except SpanError Text :=
  let start := span.start
  let stop := span.stop
  if stop.line < start.line || (start.line == stop.line && stop.column < start.column) then
    .error .reversed
  else
    let limit : Int := if start.line == stop.line then stop.column else line.length
    let width := max 1 (limit - start.column)
    .ok (Text.spaces start.column.toNat ++ List.replicate width.toNat caret)

end SceneTokens
