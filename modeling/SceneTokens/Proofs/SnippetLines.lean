import SceneTokens.Proofs.Snippets

/-!
# The lines that a snippet shows

`Text.IsLine` says which text stands between two line feeds of a source, without splitting the
source: so many line feeds come before it, it has none itself, and it is bounded by line feeds or
the ends of the source.  The lines that `Text.lines` gives are these
(`Text.isLine_of_getElem?`).

`Snippet.Window` says that a snippet shows the lines of a source from one number to another, all
of them and in order, and marks those of its span.

A snippet is refused for one reason only, a span that is not in the source, and then the report
goes without one.  So every report can be enriched.

Main statement: `Snippet.shows_window`.
-/

namespace SceneTokens

open CodeUnit

/-! ## Lines by the line feeds around them -/

namespace Text

/-- The text between a line feed of a source and the next one.  The first line starts where the
source does, and the last one ends there. -/
def IsLine (source : Text) (number : Int) (row : Text) : Prop :=
  ∃ before after, source = before ++ row ++ after ∧
    number = before.count lineFeed + 1 ∧
    (∀ u ∈ before.getLast?, u = lineFeed) ∧ lineFeed ∉ row ∧ (∀ u ∈ after.head?, u = lineFeed)

theorem unlines_cons_of_ne_nil (row : Text) {rows : List Text} (h : rows ≠ []) :
    unlines (row :: rows) = row ++ lineFeed :: unlines rows := by
  obtain ⟨next, rest, rfl⟩ := List.exists_cons_of_ne_nil h
  simp [unlines]

theorem unlines_cons (row : Text) (below : List Text) :
    unlines (row :: below) = row ++ below.flatMap (lineFeed :: ·) := by
  induction below generalizing row with
  | nil => simp [unlines]
  | cons next below ih =>
    rw [unlines_cons_of_ne_nil row (by simp), ih]
    rfl

/-- A text is a row of it, with a line feed behind each row above and in front of each row
below. -/
theorem unlines_append_cons (above : List Text) (row : Text) (below : List Text) :
    unlines (above ++ row :: below) =
      above.flatMap (· ++ [lineFeed]) ++ row ++ below.flatMap (lineFeed :: ·) := by
  induction above with
  | nil => exact unlines_cons row below
  | cons first above ih =>
    rw [List.cons_append, unlines_cons_of_ne_nil first (by simp), ih]
    simp

theorem count_flatMap_concat {rows : List Text} (h : ∀ row ∈ rows, lineFeed ∉ row) :
    (rows.flatMap (· ++ [lineFeed])).count lineFeed = rows.length := by
  induction rows with
  | nil => rfl
  | cons row rows ih =>
    obtain ⟨hrow, hrows⟩ := List.forall_mem_cons.1 h
    simp [ih hrows, List.count_eq_zero.2 hrow]

theorem isLine_of_getElem? {source row : Text} {i : Nat} (h : (lines source)[i]? = some row) :
    source.IsLine (i + 1) row := by
  have hi : i < (lines source).length := (List.getElem?_eq_some_iff.1 h).1
  have hsplit : lines source = (lines source).take i ++ row :: (lines source).drop (i + 1) := by
    rw [← (List.getElem?_eq_some_iff.1 h).2, ← List.drop_eq_getElem_cons, List.take_append_drop]
  have hfree : ∀ line ∈ (lines source).take i, lineFeed ∉ line := by
    intro line hline
    exact lineFeed_notMem_of_mem_lines (List.mem_of_mem_take hline)
  -- Each row above ends with its line feed, and each row below starts with one.
  refine ⟨((lines source).take i).flatMap (· ++ [lineFeed]),
    ((lines source).drop (i + 1)).flatMap (lineFeed :: ·), ?_, ?_, ?_,
    lineFeed_notMem_of_mem_lines (List.mem_of_getElem? h), ?_⟩
  · rw [← unlines_append_cons, ← hsplit, unlines_lines]
  · rw [count_flatMap_concat hfree, List.length_take]
    omega
  · intro u hu
    rcases List.eq_nil_or_concat ((lines source).take i) with hnil | ⟨above, last, hlast⟩
    · simp [hnil] at hu
    · simpa [hlast, eq_comm] using hu
  · intro u hu
    cases hbelow : (lines source).drop (i + 1) with
    | nil => simp [hbelow] at hu
    | cons next below => simpa [hbelow, eq_comm] using hu

/-- What is shown of a line: all of it, or all but the carriage return that it ends with. -/
def IsShown (row content : Text) : Prop :=
  row = content ++ [carriageReturn] ∨ row = content ∧ row.getLast? ≠ some carriageReturn

theorem isShown_withoutReturn (row : Text) : row.IsShown (withoutReturn row) := by
  unfold withoutReturn
  split
  · rename_i hlast
    obtain ⟨kept, rfl⟩ := List.getLast?_eq_some_iff.1 (beq_iff_eq.1 hlast)
    rw [List.dropLast_concat]
    exact .inl rfl
  · rename_i hlast
    exact .inr ⟨rfl, by simpa using hlast⟩

end Text

/-! ## Windows -/

/-- A line of a snippet shows the line of a source with its number, and is marked if it belongs
to the span. -/
structure SnippetLine.Shows (line : SnippetLine) (source : Text) (span : Span) : Prop where
  content : ∃ row, source.IsLine line.number row ∧ row.IsShown line.content
  marked : line.isError = true ↔
    span.start.line ≤ line.number ∧ line.number ≤ span.stop.line

/-- A snippet shows the lines of a source from one number to another, one after the other. -/
structure Snippet.Window (x : Snippet) (source : Text) (span : Span) (first last : Int) :
    Prop where
  highlight : x.highlight = span
  length : x.lines.length = last + 1 - first
  line : ∀ (i : Nat) (line : SnippetLine), x.lines[i]? = some line →
    line.number = first + i ∧ line.Shows source span

theorem SnippetLine.shows_ofRows {source : Text} (span : Span) {number : Int}
    (hfirst : 1 ≤ number) (hlast : number ≤ source.count lineFeed + 1) :
    (ofRows (Text.lines source) span.start.line span.stop.line number).Shows source span := by
  have hcount := Text.length_lines source
  have hinside : (number - 1).toNat < (Text.lines source).length := by omega
  obtain ⟨row, hrow⟩ : ∃ row, (Text.lines source)[(number - 1).toNat]? = some row :=
    ⟨_, List.getElem?_eq_getElem hinside⟩
  have hnumber : ((number - 1).toNat : Int) + 1 = number := by omega
  refine ⟨⟨row, ?_, ?_⟩, ?_⟩
  · have hline := Text.isLine_of_getElem? hrow
    rwa [hnumber] at hline
  · simp only [ofRows, hrow, Option.getD_some]
    exact Text.isShown_withoutReturn row
  · simp [ofRows]

namespace Snippet

theorem length_numbers (first last : Int) :
    (numbers first last).length = (last + 1 - first).toNat := by
  simp [numbers]

theorem eq_of_getElem?_numbers {first last n : Int} {i : Nat}
    (h : (numbers first last)[i]? = some n) : n = first + i ∧ n ≤ last := by
  obtain ⟨hi, hn⟩ := List.getElem?_eq_some_iff.1 h
  rw [length_numbers] at hi
  have hvalue : n = first + i := by simp [← hn, numbers]
  exact ⟨hvalue, by omega⟩

theorem window_around {source : Text} {span : Span} (h : span.Within source)
    (hordered : span.start.line ≤ span.stop.line) {more : Int} (hmore : 0 ≤ more) :
    (around source span more).Window source span (max 1 (span.start.line - more))
      (min (source.count lineFeed + 1) (span.stop.line + more)) := by
  have hcount : ((Text.lines source).length : Int) = source.count lineFeed + 1 := by
    rw [Text.length_lines]
    rfl
  obtain ⟨hstart, hstop⟩ := h
  refine ⟨rfl, ?_, ?_⟩
  · simp only [around, List.length_map, length_numbers, hcount]
    omega
  · intro i line hline
    simp only [around, hcount, List.getElem?_map] at hline
    obtain ⟨n, hn, rfl⟩ := Option.map_eq_some_iff.1 hline
    obtain ⟨hvalue, hlast⟩ := eq_of_getElem?_numbers hn
    exact ⟨hvalue, SnippetLine.shows_ofRows span (by omega) (by omega)⟩

end Snippet

/-! ## Reports with and without a snippet -/

/-- The span where a report is shown: its own, or the empty one at its location if it has
none. -/
def Report.ShownAt (r : Report) (span : Span) : Prop :=
  r.span = some span ∨ r.span = none ∧ ∃ l, r.location = some l ∧ span = Span.point l

theorem Report.shownAt_iff {r : Report} {span : Span} :
    r.ShownAt span ↔ (r.span <|> r.location.map Span.point) = some span := by
  unfold ShownAt
  cases r.span with
  | some own => simp
  | none => simp [eq_comm]

theorem Report.snippet_enrich_iff {r : Report} {source : Text} {around : Int} {x : Snippet} :
    (r.enrich source around).snippet = some x ↔
      source ≠ [] ∧ ∃ span, r.ShownAt span ∧ Snippet.extract source span around = .ok x := by
  have hextract : ∀ span, (Snippet.extract source span around).toOption = some x ↔
      Snippet.extract source span around = .ok x := by
    intro span
    cases Snippet.extract source span around with
    | ok y => simp [Except.toOption]
    | error e => simp [Except.toOption]
  by_cases hne : source = []
  · simp [enrich, hne]
  · simp only [enrich, shownAt_iff, ← hextract]
    rw [if_neg (by simpa using hne), Option.bind_eq_some_iff]
    simp [hne]

/-- A snippet shows the lines around its span, as far as the source has any.

* It is refused exactly for a span whose lines are not all in the source, and never for another
  reason.
* Otherwise it shows the lines of the span and as many on both sides as are wanted, and marks
  those of the span.
* A report gets a snippet exactly if its span is in the source, or its location if it has no
  span; the snippet is that of its span. -/
theorem Snippet.shows_window (source : Text) {around : Int} (haround : 0 ≤ around) :
    (∀ span, source ≠ [] →
      (extract source span around = .error .outOfBounds ↔ ¬span.Within source) ∧
      (∀ e, extract source span around = .error e → e = .outOfBounds) ∧
      (span.Within source → span.start.line ≤ span.stop.line →
        ∃ x, extract source span around = .ok x ∧
          x.Window source span (max 1 (span.start.line - around))
            (min (source.count lineFeed + 1) (span.stop.line + around)))) ∧
    ∀ r : Report,
      ((r.enrich source around).snippet.isSome = true ↔
        source ≠ [] ∧ ∃ span, r.ShownAt span ∧ span.Within source) ∧
      ∀ x, (r.enrich source around).snippet = some x →
        ∃ span, r.ShownAt span ∧ extract source span around = .ok x := by
  refine ⟨fun span hne => ?_, fun r => ⟨⟨?_, ?_⟩, ?_⟩⟩
  · rcases extract_cases hne span around with ⟨hwithin, hextract⟩ | ⟨houtside, hextract⟩
    · rw [hextract]
      refine ⟨⟨nofun, fun houtside => absurd hwithin houtside⟩, nofun, fun _ hordered => ?_⟩
      exact ⟨_, rfl, window_around hwithin hordered haround⟩
    · rw [hextract]
      refine ⟨⟨fun _ => houtside, fun _ => rfl⟩, ?_, fun hwithin => absurd hwithin houtside⟩
      rintro e ⟨⟩
      rfl
  · intro hsome
    obtain ⟨x, hx⟩ := Option.isSome_iff_exists.1 hsome
    obtain ⟨hne, span, hshown, hextract⟩ := Report.snippet_enrich_iff.1 hx
    refine ⟨hne, span, hshown, ?_⟩
    rcases extract_cases hne span around with ⟨hwithin, -⟩ | ⟨-, hrefused⟩
    · exact hwithin
    · rw [hrefused] at hextract
      cases hextract
  · rintro ⟨hne, span, hshown, h⟩
    rw [Report.snippet_enrich_iff.2 ⟨hne, span, hshown, extract_of_within hne h around⟩]
    rfl
  · intro x hx
    exact (Report.snippet_enrich_iff.1 hx).2

/-- The middle one of three lines, of which the first has a carriage return at its end and the
last no line feed.  A report at a fourth line has no snippet. -/
theorem Snippet.shows_window_middle_line :
    let source : Text := "a\r\nb\nc"
    let span : Span := ⟨⟨2, 0, 3⟩, ⟨2, 1, 4⟩⟩
    let elsewhere : Report := Report.general .unexpectedEnd [] (some ⟨4, 0, 9⟩) none none
    (0 : Int) ≤ 1 ∧ source ≠ [] ∧ span.Within source ∧
      extract source span 1 = .ok ⟨[⟨1, "a", false⟩, ⟨2, "b", true⟩, ⟨3, "c", false⟩], span⟩ ∧
      (∃ x, extract source span 1 = .ok x ∧ x.Window source span 1 3) ∧
      (elsewhere.enrich source 1).snippet.isSome ≠ true := by
  intro source span elsewhere
  have hne : source ≠ [] := by decide +kernel
  have hwithin : span.Within source := by
    unfold Span.Within
    decide +kernel
  obtain ⟨hwindows, hreports⟩ := shows_window source (by decide : (0 : Int) ≤ 1)
  obtain ⟨-, -, hwindow⟩ := hwindows span hne
  have hwindow := hwindow hwithin (by decide)
  have hbounds : max 1 (span.start.line - 1) = 1 ∧
      min (source.count lineFeed + 1 : Int) (span.stop.line + 1) = 3 := by decide +kernel
  rw [hbounds.1, hbounds.2] at hwindow
  refine ⟨by decide, hne, hwithin, by decide +kernel, hwindow, ?_⟩
  rw [ne_eq, (hreports elsewhere).1]
  rintro ⟨-, shown, hshown | ⟨-, l, hlocation, rfl⟩, hinside⟩
  · cases hshown
  · cases hlocation
    revert hinside
    unfold Span.Within
    decide +kernel

end SceneTokens
