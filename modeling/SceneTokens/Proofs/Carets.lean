import SceneTokens.Proofs.Renderings
import SceneTokens.Proofs.SnippetRows

/-!
# Carets point at the fault

`CaretBlock.PointsAt` says that the carets in the rows of a snippet are in the right place for a
span of the source: they stand under the text that the span covers in its first line.

The columns of a span count the units of the same lines that are shown
(`Location.Exact.getElem?_shownLine`).  Only a carriage return at the end of a line is not shown.
The span of a fault starts at a unit that is no line feed, and at a carriage return only if it
is empty (`Report.Explains.unit_at_start`).  So the carets leave the line by one column at most
(`Span.Exact.carets_le`).

Main statement: `Fault.carets_point`.
-/

namespace SceneTokens

open CodeUnit

/-! ## Columns of lines as they are shown -/

/-- A carriage return stands at the end of a line. -/
def Text.IsLineEndReturn (source : Text) (n : Nat) : Prop :=
  source[n]? = some carriageReturn ∧ ∀ u ∈ source[n + 1]?, u = lineFeed

section

variable {l : Location} {source : Text} (h : l.Exact source)
include h

/-- The units of the line of an exact location lie in the source, as far before the location as
its column says.  What comes after them is nothing or a line feed. -/
theorem Location.Exact.exists_lineOf :
    ∃ start : Nat,
      (∀ i < (source.lineOf l.line).length, source[start + i]? = (source.lineOf l.line)[i]?) ∧
      (∀ v ∈ source[start + (source.lineOf l.line).length]?, v = lineFeed) ∧
      l.offset = start + l.column ∧
      0 ≤ l.column ∧ l.column ≤ (source.lineOf l.line).length := by
  obtain ⟨above, row, below, after, hlines, hline, hoffset, hcolumn, hinside, hafter, hhead⟩ :=
    h.lines_eq
  have hrow : source.lineOf l.line = row := by
    have hnumber : (l.line - 1).toNat = above.length := by omega
    rw [Text.lineOf, hnumber, hlines]
    simp
  have hget : ∀ i, source[Text.extent above + i]? = (row ++ after)[i]? := by
    intro i
    rw [← hafter, List.getElem?_drop]
  rw [hrow]
  refine ⟨Text.extent above, ?_, ?_, hoffset, hcolumn, hinside⟩
  · intro i hi
    rw [hget, List.getElem?_append_left hi]
  · intro v hv
    rw [hget, List.getElem?_append_right (Nat.le_refl _), Nat.sub_self,
      ← List.head?_eq_getElem?] at hv
    exact hhead v hv

/-- The unit at an exact location is shown in the column of the location, unless it is the
carriage return of a line end. -/
theorem Location.Exact.getElem?_shownLine {u : CodeUnit}
    (hunit : source[l.offset.toNat]? = some u) (hfeed : u ≠ lineFeed) :
    (source.shownLine l.line)[l.column.toNat]? = some u ∨
      u = carriageReturn ∧ l.column = (source.shownLine l.line).length ∧
        source.IsLineEndReturn l.offset.toNat := by
  obtain ⟨start, hget, hbehind, hoffset, hcolumn, hinside⟩ := h.exists_lineOf
  have hplace : l.offset.toNat = start + l.column.toNat := by omega
  have hbelow : l.column.toNat < (source.lineOf l.line).length := by
    by_contra hend
    have hlast : l.column.toNat = (source.lineOf l.line).length := by omega
    rw [hplace, hlast] at hunit
    exact hfeed (hbehind u hunit)
  have hline : (source.lineOf l.line)[l.column.toNat]? = some u := by
    rw [← hget _ hbelow, ← hplace, hunit]
  unfold Text.shownLine
  rcases Text.withoutReturn_cases (source.lineOf l.line) with hshown | hshown
  · rw [← hshown]
    exact .inl hline
  · have hlength := congrArg List.length hshown
    rw [List.length_append, List.length_singleton] at hlength
    by_cases hlast : l.column.toNat < (Text.withoutReturn (source.lineOf l.line)).length
    · rw [hshown, List.getElem?_append_left hlast] at hline
      exact .inl hline
    · have hend : l.column.toNat = (Text.withoutReturn (source.lineOf l.line)).length := by omega
      have hreturn : u = carriageReturn := by
        rw [hshown, hend, List.getElem?_concat_length] at hline
        exact (Option.some.inj hline).symm
      refine .inr ⟨hreturn, by omega, hreturn ▸ hunit, fun v hv => ?_⟩
      have hnext : l.offset.toNat + 1 = start + (source.lineOf l.line).length := by omega
      rw [hnext] at hv
      exact hbehind v hv

end

/-! ## The number of carets -/

section

variable {s : Span} {source : Text}

theorem Span.caretCount_of_line_eq (h : s.start.line = s.stop.line) (line : Text) :
    (s.caretCount line : Int) = max 1 (s.stop.column - s.start.column) := by
  unfold caretCount
  dsimp only
  rw [if_pos h]
  omega

theorem Span.caretCount_of_line_lt (h : s.start.line < s.stop.line) (line : Text) :
    (s.caretCount line : Int) = max 1 (line.length - s.start.column) := by
  unfold caretCount
  dsimp only
  rw [if_neg (Int.ne_of_lt h)]
  omega

theorem Span.caretCount_pos (s : Span) (line : Text) : 0 < s.caretCount line := by
  unfold caretCount
  dsimp only
  split <;> omega

variable (h : s.Exact source) {u : CodeUnit} (hunit : source[s.start.offset.toNat]? = some u)
  (hfeed : u ≠ lineFeed)
include h hunit hfeed

/-- The carets under a span over several lines end where the line ends, if the span does not
start at the carriage return of the line end. -/
theorem Span.Exact.carets_to_lineEnd (hlines : s.start.line < s.stop.line)
    (hreturn : u ≠ carriageReturn) :
    s.start.column + s.caretCount (source.shownLine s.start.line) =
      (source.shownLine s.start.line).length := by
  have hcount := Span.caretCount_of_line_lt hlines (source.shownLine s.start.line)
  have hcolumn := h.start.nonneg.2
  rcases h.start.getElem?_shownLine hunit hfeed with hshown | ⟨hu, -, -⟩
  · have hinside := (List.getElem?_eq_some_iff.1 hshown).1
    omega
  · exact absurd hu hreturn

/-- The carets leave the line by one column at most. -/
theorem Span.Exact.carets_le (hreturn : u = carriageReturn → s.start = s.stop) :
    s.start.column + s.caretCount (source.shownLine s.start.line) ≤
      (source.shownLine s.start.line).length + 1 := by
  have hcolumn := h.start.nonneg.2
  have hstart : s.start.column ≤ (source.shownLine s.start.line).length := by
    rcases h.start.getElem?_shownLine hunit hfeed with hshown | ⟨-, hend, -⟩
    · have hinside := (List.getElem?_eq_some_iff.1 hshown).1
      omega
    · omega
  rcases h.inOrder with hlines | ⟨hline, -⟩
  · have hne : u ≠ carriageReturn := by
      intro hu
      rw [hreturn hu] at hlines
      exact Int.lt_irrefl _ hlines
    have := h.carets_to_lineEnd hunit hfeed hlines hne
    omega
  · have hcount := Span.caretCount_of_line_eq hline (source.shownLine s.start.line)
    obtain ⟨_, -, -, -, -, hstop⟩ := h.stop.exists_lineOf
    have hlength := source.length_lineOf_le s.start.line
    rw [← hline] at hstop
    omega

end

/-! ## Carets in the right place -/

namespace CaretBlock

/-- The carets of a block mark the start of a span, with `more` lines of the source around. -/
structure PointsAt (b : CaretBlock) (source : Text) (span : Span) (more : Int) : Prop where
  /-- The lines in front of the span, below the opening row. -/
  above_eq : b.above = Snippet.edge b.width ::
    (Snippet.numbers (max 1 (span.start.line - more)) (span.start.line - 1)).map
      (Snippet.sourceRow source b.width)
  /-- The line where the span starts. -/
  first_eq : b.first = Snippet.sourceRow source b.width span.start.line
  /-- The carets stand together, below the columns of the span. -/
  marks_eq : b.marks = Snippet.caretRow b.width span.start.column.toNat b.carets
  /-- The other lines of the span and those behind it, above the closing row. -/
  below_eq : b.below =
    (Snippet.numbers (span.start.line + 1)
      (min (Text.lines source).length (span.stop.line + more))).map
      (Snippet.sourceRow source b.width) ++ [Snippet.edge b.width]
  /-- The first bar of every row is at one index. -/
  aligned : ∀ row ∈ b.rows, row.idxOf? verticalBar = some b.bar
  /-- The carets are recognized by their row. -/
  marked : b.marks.isUnderline = true
  /-- No other row is one of carets. -/
  unmarked : ∀ row ∈ b.above ++ b.first :: b.below, row.isUnderline = false
  /-- Two places behind the bar the text of the line starts. -/
  text : b.first.drop (b.bar + 2) = source.shownLine span.start.line
  /-- The first caret is as far behind that as the column of the span says. -/
  place : 0 ≤ span.start.column ∧
    b.marks.idxOf? caret = some (b.bar + 2 + span.start.column.toNat)
  /-- In that column the unit is shown where the span starts, unless it is the carriage return
  of a line end. -/
  unit : ∃ u, source[span.start.offset.toNat]? = some u ∧
    ((source.shownLine span.start.line)[span.start.column.toNat]? = some u ∨
      source.IsLineEndReturn span.start.offset.toNat)
  /-- There is a caret even under an empty span. -/
  carets_pos : 1 ≤ b.carets
  /-- A span on one line has a caret for each of its units. -/
  carets_eq : span.start.line = span.stop.line →
    (b.carets : Int) = max 1 (span.stop.column - span.start.column)
  /-- A span over several lines has carets up to the end of the first one. -/
  carets_to_end : span.start.line < span.stop.line →
    span.start.column + b.carets = (source.shownLine span.start.line).length
  /-- The carets leave the text of the line by one column at most. -/
  carets_le : span.start.column + b.carets ≤ (source.shownLine span.start.line).length + 1

section

variable {source : Text} {span : Span} (hexact : span.Exact source) {more : Int}
  (hmore : 0 ≤ more)
include hexact hmore

/-- The rows of a snippet are rows of a text too. -/
theorem lineFeed_notMem_of_mem_rows {row : Text}
    (h : row ∈ (Snippet.caretBlock source span more).rows) : lineFeed ∉ row := by
  rcases mem_rows_iff.1 h with rfl | h
  · have hother : lineFeed ≠ space ∧ lineFeed ≠ caret := by decide
    refine Snippet.lineFeed_notMem_row List.not_mem_nil ?_
    simp [Text.spaces, hother]
  · rcases eq_edge_or_sourceRow hexact hmore h with rfl | ⟨k, -, -, rfl⟩
    · exact Snippet.lineFeed_notMem_edge
    · exact Snippet.lineFeed_notMem_row (Text.lineFeed_notMem_decimalInt k)
        (source.lineFeed_notMem_shownLine k)

/-- The carets of the snippet around a span mark its start, if the span starts at a unit that
is no line feed, and at a carriage return only if it is empty. -/
theorem pointsAt {u : CodeUnit} (hunit : source[span.start.offset.toNat]? = some u)
    (hfeed : u ≠ lineFeed) (hreturn : u = carriageReturn → span.start = span.stop) :
    (Snippet.caretBlock source span more).PointsAt source span more := by
  have hbounds := Snippet.start_line_bounds hexact hmore
  have hcolumn := hexact.start.nonneg.2
  have hcount := span.caretCount_pos (source.shownLine span.start.line)
  have hcarets : (Snippet.caretBlock source span more).carets =
      span.caretCount (source.shownLine span.start.line) := Snippet.count_caretRow _ _
  have hmarks : (Snippet.caretBlock source span more).marks.idxOf? verticalBar =
      some (Snippet.caretBlock source span more).bar :=
    Snippet.idxOf?_row _ List.not_mem_nil (Nat.zero_le _)
  constructor
  case above_eq | first_eq | below_eq => rfl
  case marks_eq =>
    rw [hcarets]
    rfl
  case aligned =>
    intro row hrow
    rcases mem_rows_iff.1 hrow with rfl | hrow
    · exact hmarks
    · rcases eq_edge_or_sourceRow hexact hmore hrow with rfl | ⟨k, hk, hlast, rfl⟩
      · exact Snippet.idxOf?_edge
      · exact Snippet.idxOf?_sourceRow hk hlast
  case marked => exact Snippet.isUnderline_caretRow _ hcount
  case unmarked =>
    intro row hrow
    rcases eq_edge_or_sourceRow hexact hmore hrow with rfl | ⟨k, hk, -, rfl⟩
    · exact Snippet.isUnderline_edge
    · exact Snippet.isUnderline_sourceRow hk
  case text => exact Snippet.drop_sourceRow (by omega) hbounds.2
  case place => exact ⟨hcolumn, Snippet.idxOf?_caretRow _ hcount⟩
  case unit =>
    rcases hexact.start.getElem?_shownLine hunit hfeed with hshown | ⟨-, -, hend⟩
    · exact ⟨u, hunit, .inl hshown⟩
    · exact ⟨u, hunit, .inr hend⟩
  case carets_pos => rwa [hcarets]
  case carets_eq =>
    intro hline
    rw [hcarets]
    exact Span.caretCount_of_line_eq hline _
  case carets_to_end =>
    intro hlines
    have hne : u ≠ carriageReturn := fun hu => by
      rw [hreturn hu] at hlines
      exact Int.lt_irrefl _ hlines
    rw [hcarets]
    exact hexact.carets_to_lineEnd hunit hfeed hlines hne
  case carets_le =>
    rw [hcarets]
    exact hexact.carets_le hunit hfeed hreturn

end

end CaretBlock

/-! ## Where the span of a fault starts -/

/-- The first unit of a part of a text. -/
theorem Text.getElem?_of_slice {t more : Text} {start stop : Int} {u : CodeUnit}
    (h : t.slice start stop = u :: more) : t[start.toNat]? = some u := by
  have hfirst : (t.slice start stop)[0]? = some u := by
    rw [h]
    rfl
  rw [slice, List.getElem?_drop, Nat.add_zero, List.getElem?_take] at hfirst
  split at hfirst
  · exact hfirst
  · cases hfirst

namespace Report

theorem shownSpan_of_span {f : Fault} {span : Span} (h : (ofFault f).span = some span) :
    f.shownSpan = span := by
  have hspan := span_enrich f [] 0
  unfold enrich at hspan
  rw [h] at hspan
  exact (Option.some.inj hspan).symm

theorem shownSpan_of_contract {f : Fault} {l : Location} (hkind : (ofFault f).kind = .contract)
    (h : (ofFault f).location = some l) : f.shownSpan = Span.point l := by
  rw [location_ofFault] at h
  cases h
  unfold Fault.shownSpan
  unfold ofFault at hkind
  cases hspan : f.span with
  | none => rfl
  | some span =>
    rw [hspan] at hkind
    cases hkind

/-- Where a unit of a class starts a span, to which no line end belongs. -/
theorem unit_of_class {p : CodeUnit → Bool} {s : Span} {source more : Text} {u : CodeUnit}
    (hu : p u = true) (hfeed : p lineFeed = false) (hreturn : p carriageReturn = false)
    (htext : source.slice s.start.offset s.stop.offset = u :: more) :
    ∃ u, source[s.start.offset.toNat]? = some u ∧ u ≠ lineFeed ∧
      (u = carriageReturn → s.start = s.stop) := by
  refine ⟨u, Text.getElem?_of_slice htext, ?_, ?_⟩
  · rintro rfl
    rw [hfeed] at hu
    cases hu
  · rintro rfl
    rw [hreturn] at hu
    cases hu

/-- The span of a fault starts at a unit that is no line feed, and only an empty span starts at
a carriage return. -/
theorem Explains.unit_at_start {f : Fault} {source : Text} {before : List Token}
    (h : (ofFault f).Explains source before) :
    ∃ u, source[f.shownSpan.start.offset.toNat]? = some u ∧ u ≠ lineFeed ∧
      (u = carriageReturn → f.shownSpan.start = f.shownSpan.stop) := by
  cases h with
  | unterminatedString _ hspan hquote _ htext =>
    rw [shownSpan_of_span hspan]
    exact unit_of_class hquote (by decide) (by decide) htext
  | @inconsistentIndentation span _ _ actual _ n _ _ hspan _ _ _ _ hrun htext _ _ _ _ hdiffer =>
    rw [shownSpan_of_span hspan]
    obtain ⟨_, y, -, hy, -⟩ := hdiffer
    cases hactual : actual with
    | nil =>
      rw [hactual] at hy
      cases hy
    | cons u more =>
      rw [hactual] at hrun htext
      have hmem : u ∈ (source.drop n).takeWhile isHorizontal := by simp [hrun]
      exact unit_of_class (List.mem_takeWhile_imp hmem) (by decide) (by decide) htext
  | unfinishedString _ hspan hquote _ _ htext =>
    rw [shownSpan_of_span hspan]
    rcases htext with htext | htext <;>
      exact unit_of_class hquote (by decide) (by decide) htext
  | @bareCarriageReturn l n hreport hlocation hoffset hunit _ =>
    rw [shownSpan_of_contract hreport.1 hlocation]
    refine ⟨carriageReturn, ?_, by decide, fun _ => rfl⟩
    show source[l.offset.toNat]? = some carriageReturn
    rwa [hoffset]
  | @unsupportedWhitespace l n u hreport hlocation hoffset hunit _ hother _ =>
    rw [shownSpan_of_contract hreport.1 hlocation]
    refine ⟨u, ?_, hother.2.2.2, fun _ => rfl⟩
    show source[l.offset.toNat]? = some u
    rwa [hoffset]

end Report

/-! ## The rendering of a fault -/

namespace Fault

/-- The fault of a scan over several lines, with the carets taken apart. -/
theorem exists_human {source : Text} {fault : Fault} {around : Int}
    (h : (Lexer.ofSource source).scan.fault = some fault) (haround : 0 ≤ around) :
    ∃ text : Text, ((Report.ofFault fault).enrich source around).human = .ok text ∧
      Text.lines text = [fault.headline, fault.arrow] ++
        (Snippet.caretBlock source fault.shownSpan around).rows ++ [fault.help] ∧
      (Snippet.caretBlock source fault.shownSpan around).PointsAt source fault.shownSpan
        around := by
  have hexact := Lexer.exact_of_scan_fault h
  have hspan := hexact.shownSpan
  obtain ⟨before, hexplains⟩ := Lexer.explains_of_scan_fault h
  obtain ⟨u, hunit, hfeed, hreturn⟩ := hexplains.unit_at_start
  have hne := source_ne_nil_of_fault h
  have hsnippet := Report.snippet_enrich fault around hne (Snippet.extract_eq hne hspan around)
  obtain ⟨line, hline, -⟩ := Snippet.exists_mem_around hspan haround
  have hhuman := Report.human_enrich hexact hsnippet (List.ne_nil_of_mem hline)
    (Snippet.rows_around hspan haround)
  refine ⟨_, hhuman, ?_, CaretBlock.pointsAt hspan haround hunit hfeed hreturn⟩
  refine Text.lines_unlines (by simp) fun row hrow => ?_
  simp only [List.mem_append, List.mem_cons, List.not_mem_nil, or_false] at hrow
  rcases hrow with ((rfl | rfl) | hrow) | rfl
  · exact fault.lineFeed_notMem_headline
  · exact fault.lineFeed_notMem_arrow
  · exact CaretBlock.lineFeed_notMem_of_mem_rows hspan haround hrow
  · exact fault.lineFeed_notMem_help

/-- A source without tokens is rendered with its lines around the span of the fault, and carets
point at the place where the span starts. -/
theorem carets_point {source : Text} {comments : Bool} {fault : Fault} {around : Int}
    (h : tokenize source comments = .error fault) (haround : 0 ≤ around) :
    ∃ (text : Text) (block : CaretBlock),
      ((Report.ofFault fault).enrich source around).human = .ok text ∧
      Text.lines text = [fault.headline, fault.arrow] ++ block.rows ++ [fault.help] ∧
      block.PointsAt source fault.shownSpan around := by
  obtain ⟨text, hhuman, hlines, hpoints⟩ := exists_human (tokenize_eq_error_iff.1 h) haround
  exact ⟨text, _, hhuman, hlines, hpoints⟩

/-- A string is left open on the ninth of ten lines, which ends with a carriage return. -/
theorem carets_point_open_string :
    let source : Text := "\n\n\n\n\n\n\n\nab \"c\r\nd"
    let fault : Fault := .unterminatedString ⟨⟨9, 3, 11⟩, ⟨10, 0, 15⟩⟩
    let rows : List Text :=
      ["    |", "  8 | ", "  9 | ab \"c", "    |    ^^", " 10 | d", "    |"]
    tokenize source true = .error fault ∧
      ((Report.ofFault fault).enrich source 1).human =
        .ok (Text.unlines ([fault.headline, fault.arrow] ++ rows ++ [fault.help])) ∧
      ∃ block : CaretBlock, block.rows = rows ∧ block.PointsAt source fault.shownSpan 1 := by
  intro source fault rows
  have h : tokenize source true = .error fault := by decide +kernel
  have hhuman : ((Report.ofFault fault).enrich source 1).human =
      .ok (Text.unlines ([fault.headline, fault.arrow] ++ rows ++ [fault.help])) := by
    decide +kernel
  obtain ⟨text, block, htext, hlines, hpoints⟩ := carets_point h (by decide : (0 : Int) ≤ 1)
  refine ⟨h, hhuman, block, ?_, hpoints⟩
  have hrows : Text.lines (Text.unlines ([fault.headline, fault.arrow] ++ rows ++ [fault.help])) =
      [fault.headline, fault.arrow] ++ rows ++ [fault.help] := by decide +kernel
  rw [hhuman] at htext
  cases htext
  rw [hrows] at hlines
  exact (List.append_cancel_left (List.append_cancel_right hlines)).symm

end Fault

end SceneTokens
