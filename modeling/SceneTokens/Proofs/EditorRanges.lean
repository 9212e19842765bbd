import SceneTokens.Proofs.Renderings
import SceneTokens.Proofs.Snippets

/-!
# The ranges of diagnostics

An editor knows a place in a text by the number of its line and the number of units before it
in that line, both from zero.  `Text.offsetOf` is the offset that such a position denotes, and
`Position.ValidIn` says that there is such a place at all.

A location that is exact gives a valid position, which denotes the offset of the location
(`Location.Exact.validIn`, `Location.Exact.offsetOf`): the lines above it take up the text
before the start of its line.  The span of a fault is exact, and so is its location if it has
no span.

Main statement: `Diagnostic.range_exact`.
-/

namespace SceneTokens

open CodeUnit

/-! ## Positions -/

/-- The offset that a position denotes: the lines above it with their line feeds, and the units
before it in its line. -/
def Text.offsetOf (t : Text) (p : Position) : Int :=
  extent ((lines t).take p.line.toNat) + p.character

/-- There is a line of that number, and the position is inside it or at its end. -/
structure Position.ValidIn (p : Position) (source : Text) : Prop where
  line : 0 ≤ p.line ∧ p.line < (Text.lines source).length
  character : 0 ≤ p.character ∧
    ∃ row, (Text.lines source)[p.line.toNat]? = some row ∧ p.character ≤ row.length

/-- A position on the same line as another but not behind it, or on an earlier line. -/
def Position.NotAfter (p q : Position) : Prop :=
  p.line < q.line ∨ p.line = q.line ∧ p.character ≤ q.character

section

variable {l : Location} {source : Text} (h : l.Exact source)
include h

theorem Location.Exact.validIn : (Position.ofLocation l).ValidIn source := by
  obtain ⟨above, row, below, -, hlines, hline, -, hcolumn, hinside, -, -⟩ := h.lines_eq
  have hnumber : (Position.ofLocation l).line = above.length := by
    simp only [Position.ofLocation]
    omega
  refine ⟨?_, hcolumn, row, ?_, hinside⟩
  · rw [hnumber, hlines, List.length_append, List.length_cons]
    omega
  · rw [hnumber, Int.toNat_natCast, hlines]
    simp

theorem Location.Exact.offsetOf : source.offsetOf (Position.ofLocation l) = l.offset := by
  obtain ⟨above, row, below, -, hlines, hline, hoffset, -, -, -, -⟩ := h.lines_eq
  have hnumber : (Position.ofLocation l).line = above.length := by
    simp only [Position.ofLocation]
    omega
  rw [Text.offsetOf, hnumber, Int.toNat_natCast, hlines, List.take_left, hoffset]
  rfl

end

theorem Span.Exact.notAfter {s : Span} {source : Text} (h : s.Exact source) :
    (Position.ofLocation s.start).NotAfter (Position.ofLocation s.stop) := by
  have hinOrder := h.inOrder
  simp only [Position.NotAfter, Position.ofLocation]
  omega

/-! ## Diagnostics -/

namespace Diagnostic

/-- A failure at a location alone is one at the empty span there. -/
theorem placed_point (code message : Text) (span : Option Span) (location : Option Location) :
    placed code message (span <|> location.map Span.point) location =
      placed code message span location := by
  cases span with
  | some span => rfl
  | none =>
    cases location with
    | some location => rfl
    | none => rfl

theorem range_ofFault (f : Fault) :
    (ofReport (Report.ofFault f)).range = some (Range.ofSpan f.shownSpan) := by
  unfold Fault.shownSpan Report.ofFault
  cases f.span with
  | some span => rfl
  | none => rfl

/-- The diagnostic of a report is that of the enriched report, whatever the source and the
number of lines around.

The diagnostic of a source without tokens has a range of two valid positions, in order.  They
denote the offsets where the span of the fault starts and stops, or that of its location if it
has no span. -/
theorem range_exact :
    (∀ (r : Report) (source : Text) (around : Int),
      ofReport r = (r.enrich source around).diagnostic) ∧
    ∀ {source : Text} {comments : Bool} {fault : Fault},
      tokenize source comments = .error fault →
      ∃ range, (ofReport (Report.ofFault fault)).range = some range ∧
        range.start.NotAfter range.stop ∧
        range.start.ValidIn source ∧ range.stop.ValidIn source ∧
        source.offsetOf range.start = fault.shownSpan.start.offset ∧
        source.offsetOf range.stop = fault.shownSpan.stop.offset := by
  refine ⟨?_, ?_⟩
  · intro r source around
    exact (placed_point r.code.id r.bareMessage r.span r.location).symm
  · intro source comments fault h
    have hexact := (Lexer.exact_of_scan_fault (tokenize_eq_error_iff.1 h)).shownSpan
    exact ⟨_, range_ofFault fault, hexact.notAfter, hexact.start.validIn, hexact.stop.validIn,
      hexact.start.offsetOf, hexact.stop.offsetOf⟩

/-- A string is left open at the end of the second line, so its span stops on the empty line
below. -/
theorem range_exact_open_string :
    let source : Text := "a\n  \"b\n"
    let fault : Fault := .unterminatedString ⟨⟨2, 2, 4⟩, ⟨3, 0, 7⟩⟩
    let report := Report.ofFault fault
    tokenize source true = .error fault ∧
      (ofReport report).range = some ⟨⟨1, 2⟩, ⟨2, 0⟩⟩ ∧
      ofReport report = (report.enrich source 1).diagnostic ∧
      (⟨2, 0⟩ : Position).ValidIn source ∧ source.offsetOf ⟨2, 0⟩ = 7 := by
  intro source fault report
  have h : tokenize source true = .error fault := by decide +kernel
  obtain ⟨hsame, hrange⟩ := range_exact
  obtain ⟨range, heq, -, -, hvalid, -, hoffset⟩ := hrange h
  have hpositions : (ofReport report).range = some ⟨⟨1, 2⟩, ⟨2, 0⟩⟩ := by decide +kernel
  rw [hpositions] at heq
  cases heq
  exact ⟨h, hpositions, hsame report source 1, hvalid, hoffset⟩

end Diagnostic

end SceneTokens
