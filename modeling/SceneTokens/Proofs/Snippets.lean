import SceneTokens.Proofs.Lines
import SceneTokens.Report.Enriched

/-!
# Exact spans can be shown

A snippet is refused for a span whose lines are not all in the source (`Snippet.extract_cases`),
and its carets for a span that ends before it starts.  Neither happens for an exact span: its
lines are counted by the same line feeds that `Text.lines` splits at
(`Location.Exact.line_bounds`), and a later offset is on a later line or further along the same
one (`Span.Exact.inOrder`).

Main statements: `Snippet.extract_eq` and `Snippet.rows_eq`.
-/

namespace SceneTokens

open CodeUnit

/-! ## Lines and columns -/

theorem Location.Exact.line_bounds {l : Location} {source : Text} (h : l.Exact source) :
    1 ≤ l.line ∧ l.line ≤ (Text.lines source).length := by
  obtain ⟨n, hn, rfl⟩ := h
  have hcount : (source.take n).count lineFeed ≤ source.count lineFeed :=
    (List.take_sublist n source).count_le lineFeed
  have hlines := Text.length_lines source
  simp only [Text.locationAt]
  omega

/-- The line of an exact location, and where in the line it is.  What comes after the line is
nothing, or a line feed and more. -/
theorem Location.Exact.lines_eq {l : Location} {source : Text} (h : l.Exact source) :
    ∃ above row below after, Text.lines source = above ++ row :: below ∧
      l.line = 1 + above.length ∧
      l.offset = Text.extent above + l.column ∧
      0 ≤ l.column ∧ l.column ≤ row.length ∧
      source.drop (Text.extent above) = row ++ after ∧ ∀ u ∈ after.head?, u = lineFeed := by
  obtain ⟨n, hn, rfl⟩ := h
  obtain ⟨above, row, below, after, hlines, hlength, hsum, hafter, hhead, hinside⟩ :=
    Text.lines_at hn
  have hstart := source.lineStart_le n
  refine ⟨above, row, below, after, hlines, ?_, ?_, ?_, ?_, hsum ▸ hafter, hhead⟩ <;>
    simp only [Text.locationAt] <;> omega

/-- The lines of a span are lines of a source, which has one more than it has line feeds. -/
def Span.Within (s : Span) (source : Text) : Prop :=
  (1 ≤ s.start.line ∧ s.start.line ≤ source.count lineFeed + 1) ∧
    1 ≤ s.stop.line ∧ s.stop.line ≤ source.count lineFeed + 1

theorem Span.Exact.within {s : Span} {source : Text} (h : s.Exact source) : s.Within source := by
  have hstart := h.start.line_bounds
  have hstop := h.stop.line_bounds
  have hcount := Text.length_lines source
  unfold Within
  omega

/-- What comes later in the source is on a later line, or on the same line in no earlier
column. -/
theorem Span.Exact.inOrder {s : Span} {source : Text} (h : s.Exact source) :
    s.start.line < s.stop.line ∨
      s.start.line = s.stop.line ∧ s.start.column ≤ s.stop.column := by
  obtain ⟨⟨n, hn, hstart⟩, ⟨m, hm, hstop⟩, hordered⟩ := h
  rw [hstart, hstop] at hordered ⊢
  have hle : n ≤ m := Int.ofNat_le.1 hordered
  rw [← Cursor.location_ofOffset hn, ← Cursor.location_ofOffset hm]
  have hmove : Cursor.ofOffset source m = (Cursor.ofOffset source n).skip (m - n) := by
    rw [Cursor.skip_ofOffset, Nat.add_sub_of_le hle]
  rw [hmove]
  by_cases hfeed : lineFeed ∈ (Cursor.ofOffset source n).rest.take (m - n)
  · exact .inl (Int.ofNat_lt.2 (Cursor.line_lt_line_skip_of_mem hfeed))
  · have hlen : m - n ≤ (Cursor.ofOffset source n).rest.length := by
      rw [Cursor.rest_ofOffset, List.length_drop]
      omega
    obtain ⟨hline, hcolumn⟩ := Cursor.line_column_skip_of_notMem hlen hfeed
    refine .inr ⟨congrArg Int.ofNat hline.symm, ?_⟩
    show ((Cursor.ofOffset source n).column : Int) ≤ _
    rw [Cursor.location, hcolumn]
    show ((Cursor.ofOffset source n).column : Int) ≤ ((_ + _ : Nat) : Int)
    omega

/-- The number of carets under the first line of a span. -/
def Span.caretCount (s : Span) (line : Text) : Nat :=
  let limit : Int := if s.start.line = s.stop.line then s.stop.column else line.length
  (max 1 (limit - s.start.column)).toNat

/-- The carets under the first line of a span that is in order. -/
def Span.carets (s : Span) (line : Text) : Text :=
  Text.spaces s.start.column.toNat ++ List.replicate (s.caretCount line) caret

theorem Span.Exact.underline_eq {s : Span} {source : Text} (h : s.Exact source) (line : Text) :
    s.underline line = .ok (s.carets line) := by
  have hforward : ¬(s.stop.line < s.start.line ||
      (s.start.line == s.stop.line && s.stop.column < s.start.column)) = true := by
    have hinOrder := h.inOrder
    simp only [Bool.or_eq_true, Bool.and_eq_true, decide_eq_true_eq, beq_iff_eq]
    omega
  unfold underline carets caretCount
  dsimp only
  rw [if_neg hforward]
  simp only [beq_iff_eq]

/-! ## Snippets -/

theorem mapM_eq_ok_map {α β ε : Type} {f : α → Except ε β} {g : α → β} {l : List α}
    (h : ∀ a ∈ l, f a = .ok (g a)) : l.mapM f = .ok (l.map g) := by
  induction l with
  | nil => rfl
  | cons a l ih =>
    obtain ⟨ha, hl⟩ := List.forall_mem_cons.1 h
    rw [List.mapM_cons, ha, ih hl]
    rfl

namespace Snippet

theorem mem_numbers {first last n : Int} : n ∈ numbers first last ↔ first ≤ n ∧ n ≤ last := by
  rw [numbers, List.mem_map]
  constructor
  · rintro ⟨i, hi, rfl⟩
    rw [List.mem_range] at hi
    omega
  · intro h
    refine ⟨(n - first).toNat, List.mem_range.2 ?_, ?_⟩ <;> omega

/-- The lines of a source around a span that lies in it. -/
def around (source : Text) (span : Span) (more : Int) : Snippet :=
  let rows := Text.lines source
  ⟨(numbers (max 1 (span.start.line - more)) (min rows.length (span.stop.line + more))).map
    (SnippetLine.ofRows rows span.start.line span.stop.line), span⟩

/-- The rows of a line of a snippet, where the span is in order. -/
def shownRows (x : Snippet) (line : SnippetLine) : List Text :=
  row x.gutterWidth (Text.decimalInt line.number) line.content ::
    if line.number = x.highlight.start.line then
      [row x.gutterWidth [] (x.highlight.carets line.content)]
    else []

variable {source : Text} {span : Span}

/-- A snippet is refused exactly for a span that is not in the source. -/
theorem extract_cases (hne : source ≠ []) (span : Span) (more : Int) :
    span.Within source ∧ extract source span more = .ok (around source span more) ∨
      ¬span.Within source ∧ extract source span more = .error .outOfBounds := by
  have hcount := Text.length_lines source
  unfold extract Span.Within
  rw [if_neg (by simpa using hne)]
  dsimp only
  split
  · rename_i houtside
    simp only [Bool.or_eq_true, decide_eq_true_eq] at houtside
    exact .inr ⟨by omega, rfl⟩
  · rename_i hinside
    simp only [Bool.or_eq_true, decide_eq_true_eq] at hinside
    exact .inl ⟨by omega, rfl⟩

theorem extract_of_within (hne : source ≠ []) (h : span.Within source) (more : Int) :
    extract source span more = .ok (around source span more) := by
  rcases extract_cases hne span more with ⟨-, hextract⟩ | ⟨houtside, -⟩
  · exact hextract
  · exact absurd h houtside

theorem extract_eq (hne : source ≠ []) (hexact : span.Exact source) (more : Int) :
    extract source span more = .ok (around source span more) :=
  extract_of_within hne hexact.within more

/-- The first line of a span is shown around it, marked as a line of it. -/
theorem exists_mem_around (hexact : span.Exact source) {more : Int} (hmore : 0 ≤ more) :
    ∃ line ∈ (around source span more).lines,
      line.number = span.start.line ∧ line.isError = true := by
  have hstart := hexact.start.line_bounds
  have hinOrder := hexact.inOrder
  have hshown : span.start.line ∈ numbers (max 1 (span.start.line - more))
      (min ((Text.lines source).length : Int) (span.stop.line + more)) := by
    rw [mem_numbers]
    omega
  refine ⟨_, List.mem_map_of_mem hshown, rfl, ?_⟩
  simp only [SnippetLine.ofRows, Bool.and_eq_true, decide_eq_true_eq]
  omega

theorem rows_eq (x : Snippet) (hexact : x.highlight.Exact source) :
    x.rows =
      .ok (edge x.gutterWidth :: x.lines.flatMap x.shownRows ++ [edge x.gutterWidth]) := by
  have hline : ∀ line ∈ x.lines, x.lineRows line = .ok (x.shownRows line) := by
    intro line _
    unfold lineRows shownRows
    dsimp only
    by_cases hfirst : line.number = x.highlight.start.line
    · rw [if_pos (beq_iff_eq.2 hfirst), if_pos hfirst, hexact.underline_eq]
      rfl
    · rw [if_neg (mt beq_iff_eq.1 hfirst), if_neg hfirst]
      rfl
  unfold rows
  rw [mapM_eq_ok_map hline, List.flatMap_def]
  rfl

end Snippet

end SceneTokens
