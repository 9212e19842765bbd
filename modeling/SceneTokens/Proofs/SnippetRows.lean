import SceneTokens.Proofs.Messages
import SceneTokens.Proofs.Snippets

/-!
# The rows of a snippet

The rows of a snippet have a gutter in front of a bar: there is an empty row, the lines around
the span with their numbers, and another empty row.  Under the line where the span starts there
is a row of carets.  A `CaretBlock` is the rows taken apart there.

The bar is at one index in all of them.  The gutter is as wide as the greatest number, which is
the last one (`Snippet.gutterWidth_around`), and a smaller number has no more digits
(`Text.length_decimal_le`).  Only the row of carets has nothing in its gutter and a caret behind
it (`Text.isUnderline`).

Main statement: `Snippet.rows_around`.
-/

namespace SceneTokens

open CodeUnit

/-- The unit that ends the gutter of a row. -/
abbrev CodeUnit.verticalBar : CodeUnit := 0x7C

/-! ## Lines as they are shown -/

namespace Text

/-- The line of a number, counted from one. -/
def lineOf (source : Text) (number : Int) : Text :=
  (lines source)[(number - 1).toNat]?.getD []

/-- The line of a number without the carriage return of its line end. -/
def shownLine (source : Text) (number : Int) : Text := withoutReturn (source.lineOf number)

theorem withoutReturn_cases (line : Text) :
    line = withoutReturn line ∨ line = withoutReturn line ++ [carriageReturn] := by
  unfold withoutReturn
  split
  · rename_i hlast
    obtain ⟨kept, rfl⟩ := List.getLast?_eq_some_iff.1 (beq_iff_eq.1 hlast)
    rw [List.dropLast_concat]
    exact .inr rfl
  · exact .inl rfl

theorem length_lineOf_le (source : Text) (number : Int) :
    (source.lineOf number).length ≤ (source.shownLine number).length + 1 := by
  unfold shownLine
  rcases withoutReturn_cases (source.lineOf number) with hshown | hshown
  · rw [← hshown]
    omega
  · have hlength := congrArg List.length hshown
    rw [List.length_append, List.length_singleton] at hlength
    omega

theorem lineFeed_notMem_shownLine (source : Text) (number : Int) :
    lineFeed ∉ source.shownLine number := by
  have hline : lineFeed ∉ source.lineOf number := by
    unfold lineOf
    cases hget : (lines source)[(number - 1).toNat]? with
    | none => exact List.not_mem_nil
    | some line => exact lineFeed_notMem_of_mem_lines (List.mem_of_getElem? hget)
  unfold shownLine
  rcases withoutReturn_cases (source.lineOf number) with hshown | hshown
  · rwa [← hshown]
  · rw [hshown, List.mem_append, not_or] at hline
    exact hline.1

end Text

/-! ## Rows with a bar -/

namespace Text

/-- A row of carets: nothing but spaces in front of the bar, and a caret. -/
def isUnderline (row : Text) : Bool :=
  (row.takeWhile (· != verticalBar)).all (· == space) && row.contains caret

theorem idxOf?_append_cons {u : CodeUnit} {a : Text} (h : u ∉ a) (b : Text) :
    (a ++ u :: b).idxOf? u = some a.length := by
  induction a with
  | nil => simp [List.idxOf?_cons]
  | cons v a ih =>
    rw [List.mem_cons, not_or] at h
    rw [List.cons_append, List.idxOf?_cons, ih h.2]
    simp [Ne.symm h.1]

theorem length_decimal_le {m n : Nat} (h : m ≤ n) :
    (decimal m).length ≤ (decimal n).length := by
  fun_induction decimal n generalizing m with
  | case1 n hn =>
    rw [decimal, if_pos (by omega)]
    exact Nat.le_refl 1
  | case2 n hn ih =>
    rw [decimal]
    split
    · simp
    · have htens := ih (Nat.div_le_div_right h)
      simpa using htens

theorem length_decimalInt_le {m n : Int} (hm : 0 ≤ m) (h : m ≤ n) :
    (decimalInt m).length ≤ (decimalInt n).length := by
  rw [decimalInt_of_nonneg hm, decimalInt_of_nonneg (Int.le_trans hm h)]
  exact length_decimal_le (Int.toNat_le_toNat h)

theorem isDigit_of_mem_decimalInt {n : Int} (hn : 0 ≤ n) {u : CodeUnit}
    (h : u ∈ decimalInt n) : isDigit u = true := by
  rw [decimalInt_of_nonneg hn] at h
  exact isDigit_of_mem_decimal h

end Text

namespace Snippet

/-- What comes before the bar in a row. -/
def gutter (width : Nat) (label : Text) : Text := space :: Text.padLeft width label ++ [space]

/-- The row of a line of a source. -/
def sourceRow (source : Text) (width : Nat) (number : Int) : Text :=
  row width (Text.decimalInt number) (source.shownLine number)

/-- A row of carets, from a column on. -/
def caretRow (width column carets : Nat) : Text :=
  row width [] (Text.spaces column ++ List.replicate carets caret)

section

variable (width : Nat) (label content : Text)

theorem row_eq :
    row width label content = gutter width label ++ verticalBar :: space :: content := by
  have hbar : Text.ofString " | " = [space, verticalBar, space] := by decide +kernel
  simp [row, gutter, hbar]

theorem edge_eq : edge width = gutter width [] ++ [verticalBar] := by
  have hbar : Text.ofString " |" = [space, verticalBar] := by decide +kernel
  simp [edge, gutter, hbar, Text.padLeft]

variable {width label}

theorem length_gutter (h : label.length ≤ width) : (gutter width label).length = width + 2 := by
  simp [gutter, Text.padLeft, Text.spaces]
  omega

theorem notMem_gutter {u : CodeUnit} (hspace : u ≠ space) (h : u ∉ label) :
    u ∉ gutter width label := by
  simp [gutter, Text.padLeft, Text.spaces, hspace, h]

theorem lineFeed_notMem_row {content : Text} (h : lineFeed ∉ label)
    (hcontent : lineFeed ∉ content) : lineFeed ∉ row width label content := by
  have hgutter : lineFeed ∉ gutter width label := notMem_gutter (by decide) h
  have hother : lineFeed ≠ verticalBar ∧ lineFeed ≠ space := by decide
  rw [row_eq]
  simp [hgutter, hother, hcontent]

theorem lineFeed_notMem_edge : lineFeed ∉ edge width := by
  have hgutter : lineFeed ∉ gutter width [] := notMem_gutter (by decide) List.not_mem_nil
  have hother : lineFeed ≠ verticalBar := by decide
  rw [edge_eq]
  simp [hgutter, hother]

theorem idxOf?_row (hbar : verticalBar ∉ label) (hlength : label.length ≤ width) :
    (row width label content).idxOf? verticalBar = some (width + 2) := by
  have hgutter : verticalBar ∉ gutter width label := notMem_gutter (by decide) hbar
  rw [row_eq, Text.idxOf?_append_cons hgutter, length_gutter hlength]

theorem drop_row (hlength : label.length ≤ width) :
    (row width label content).drop (width + 2 + 2) = content := by
  have hshape : row width label content =
      (gutter width label ++ [verticalBar, space]) ++ content := by
    rw [row_eq]
    simp
  rw [hshape]
  refine List.drop_left' ?_
  rw [List.length_append, length_gutter hlength]
  rfl

theorem takeWhile_row (hbar : verticalBar ∉ label) :
    (row width label content).takeWhile (· != verticalBar) = gutter width label := by
  have hgutter : verticalBar ∉ gutter width label := notMem_gutter (by decide) hbar
  rw [row_eq]
  refine Text.takeWhile_append_cons (fun u hu => ?_) (by decide)
  simpa using ne_of_mem_of_not_mem hu hgutter

theorem idxOf?_edge : (edge width).idxOf? verticalBar = some (width + 2) := by
  have hgutter : verticalBar ∉ gutter width [] := notMem_gutter (by decide) List.not_mem_nil
  rw [edge_eq, Text.idxOf?_append_cons hgutter, length_gutter (Nat.zero_le _)]

theorem isUnderline_edge : (edge width).isUnderline = false := by
  have hcaret : caret ∉ edge width := by
    rw [edge_eq, List.mem_append, not_or]
    exact ⟨notMem_gutter (by decide) List.not_mem_nil, by decide⟩
  simp [Text.isUnderline, hcaret]

/-- What comes before the carets in their row. -/
def caretMargin (width column : Nat) : Text :=
  gutter width [] ++ [verticalBar, space] ++ Text.spaces column

theorem caretRow_eq (column carets : Nat) :
    caretRow width column carets = caretMargin width column ++ List.replicate carets caret := by
  rw [caretRow, row_eq]
  simp [caretMargin]

theorem caret_notMem_caretMargin (column : Nat) : caret ∉ caretMargin width column := by
  have hgutter : caret ∉ gutter width [] := notMem_gutter (by decide) List.not_mem_nil
  have hother : caret ≠ verticalBar ∧ caret ≠ space := by decide
  simp [caretMargin, Text.spaces, hgutter, hother]

theorem isUnderline_caretRow (column : Nat) {carets : Nat} (h : 0 < carets) :
    (caretRow width column carets).isUnderline = true := by
  have hgutter : (gutter width []).all (· == space) = true := by
    simp [gutter, Text.padLeft, Text.spaces]
  have hcaret : (caretRow width column carets).contains caret = true := by
    rw [caretRow_eq]
    simp [Nat.ne_of_gt h]
  rw [Text.isUnderline, hcaret, caretRow, takeWhile_row _ List.not_mem_nil, hgutter]
  rfl

theorem idxOf?_caretRow (column : Nat) {carets : Nat} (h : 0 < carets) :
    (caretRow width column carets).idxOf? caret = some (width + 2 + 2 + column) := by
  have hlength : (gutter width []).length = width + 2 := length_gutter (Nat.zero_le _)
  obtain ⟨more, rfl⟩ := Nat.exists_eq_add_one.2 h
  rw [caretRow_eq, List.replicate_succ,
    Text.idxOf?_append_cons (caret_notMem_caretMargin column)]
  simp [caretMargin, Text.spaces, hlength]
  omega

theorem count_caretRow (column carets : Nat) :
    (caretRow width column carets).count caret = carets := by
  rw [caretRow_eq, List.count_append, List.count_eq_zero.2 (caret_notMem_caretMargin column),
    List.count_replicate_self, Nat.zero_add]

section

variable {source : Text} {number last : Int}

theorem idxOf?_sourceRow (h : 0 ≤ number) (hlast : number ≤ last) :
    (sourceRow source (Text.decimalInt last).length number).idxOf? verticalBar =
      some ((Text.decimalInt last).length + 2) := by
  refine idxOf?_row _ (fun hbar => ?_) (Text.length_decimalInt_le h hlast)
  exact absurd (Text.isDigit_of_mem_decimalInt h hbar) (by decide)

theorem drop_sourceRow (h : 0 ≤ number) (hlast : number ≤ last) :
    (sourceRow source (Text.decimalInt last).length number).drop
      ((Text.decimalInt last).length + 2 + 2) = source.shownLine number :=
  drop_row _ (Text.length_decimalInt_le h hlast)

/-- A row with a number is no row of carets, whatever it shows. -/
theorem isUnderline_sourceRow (h : 0 ≤ number) :
    (sourceRow source width number).isUnderline = false := by
  have hdigit : ∀ u ∈ Text.decimalInt number, isDigit u = true := fun u hu =>
    Text.isDigit_of_mem_decimalInt h hu
  have hne : Text.decimalInt number ≠ [] := by
    rw [Text.decimalInt_of_nonneg h]
    exact Text.decimal_ne_nil _
  obtain ⟨u, hu⟩ := List.exists_mem_of_ne_nil _ hne
  have hspace : u ≠ space := by
    rintro rfl
    exact absurd (hdigit _ hu) (by decide)
  have hbar : verticalBar ∉ Text.decimalInt number := fun hbar =>
    absurd (hdigit _ hbar) (by decide)
  have hgutter : (gutter width (Text.decimalInt number)).all (· == space) = false := by
    rw [List.all_eq_false]
    refine ⟨u, ?_, by simpa using hspace⟩
    simp [gutter, Text.padLeft, hu]
  rw [Text.isUnderline, sourceRow, takeWhile_row _ hbar, hgutter, Bool.false_and]

end

end

end Snippet

/-! ## The block of a snippet -/

/-- The rows of a snippet, taken apart at the carets. -/
structure CaretBlock where
  /-- The width of the numbers in front of the bar. -/
  width : Nat
  /-- The rows above the line where the span starts. -/
  above : List Text
  /-- The row of the line where the span starts. -/
  first : Text
  /-- The row of carets. -/
  marks : Text
  /-- The rows below the carets. -/
  below : List Text

namespace CaretBlock

/-- All rows, from the top. -/
def rows (b : CaretBlock) : List Text := b.above ++ b.first :: b.marks :: b.below

/-- The index of the bar. -/
def bar (b : CaretBlock) : Nat := b.width + 2

/-- The number of carets. -/
def carets (b : CaretBlock) : Nat := b.marks.count caret

end CaretBlock

/-! ## The snippet around a span -/

namespace Snippet

theorem numbers_split {first k last : Int} (hfirst : first ≤ k) (hlast : k ≤ last) :
    numbers first last = numbers first (k - 1) ++ k :: numbers (k + 1) last := by
  have hbefore : (k - 1 + 1 - first).toNat = (k - first).toNat := by omega
  have hbehind : (last + 1 - first).toNat =
      (k - first).toNat + ((last + 1 - (k + 1)).toNat + 1) := by omega
  rw [numbers, numbers, numbers, hbefore, hbehind, List.range_add, List.map_append,
    List.range_succ_eq_map]
  simp only [List.map_cons, List.map_map]
  congr 2
  · omega
  · refine List.map_congr_left fun i _ => ?_
    simp only [Function.comp_apply]
    omega

theorem foldl_max_numbers {first last : Int} (h : first ≤ last) :
    (numbers first last).foldl max ((numbers first last).headD 0) = last := by
  have hmax : (numbers first last).max? = some last :=
    List.max?_eq_some_iff.2
      ⟨mem_numbers.2 ⟨h, Int.le_refl _⟩, fun n hn => (mem_numbers.1 hn).2⟩
  have hhead : (numbers first last).headD 0 ≤ last := by
    cases hnumbers : numbers first last with
    | nil =>
      rw [hnumbers] at hmax
      cases hmax
    | cons n more =>
      have hn : n ∈ numbers first last := by simp [hnumbers]
      exact (mem_numbers.1 hn).2
  rw [List.foldl_max, hmax]
  exact Int.max_eq_right hhead

/-- The greatest number in a snippet. -/
def lastNumber (source : Text) (span : Span) (more : Int) : Int :=
  min (Text.lines source).length (span.stop.line + more)

/-- The rows of the snippet around a span, taken apart at the carets. -/
def caretBlock (source : Text) (span : Span) (more : Int) : CaretBlock :=
  let last := lastNumber source span more
  let width := (Text.decimalInt last).length
  { width := width
    above := edge width :: (numbers (max 1 (span.start.line - more)) (span.start.line - 1)).map
      (sourceRow source width)
    first := sourceRow source width span.start.line
    marks := caretRow width span.start.column.toNat
      (span.caretCount (source.shownLine span.start.line))
    below := (numbers (span.start.line + 1) last).map (sourceRow source width) ++ [edge width] }

/-- The rows of the line of a number in the snippet around a span. -/
def rowsOfNumber (source : Text) (span : Span) (more number : Int) : List Text :=
  (around source span more).shownRows
    (SnippetLine.ofRows (Text.lines source) span.start.line span.stop.line number)

section

variable {source : Text} {span : Span} (hexact : span.Exact source) {more : Int}
  (hmore : 0 ≤ more)
include hexact hmore

theorem start_line_bounds :
    max 1 (span.start.line - more) ≤ span.start.line ∧
      span.start.line ≤ lastNumber source span more := by
  have hstart := hexact.start.line_bounds
  have hinOrder := hexact.inOrder
  unfold lastNumber
  omega

/-- The gutter has the width of the last number. -/
theorem gutterWidth_around : (around source span more).gutterWidth =
    (Text.decimalInt (lastNumber source span more)).length := by
  have hbounds := start_line_bounds hexact hmore
  have hnumbers : (around source span more).lines.map (·.number) =
      numbers (max 1 (span.start.line - more)) (lastNumber source span more) := by
    rw [around, List.map_map]
    exact List.map_id _
  rw [gutterWidth, hnumbers, foldl_max_numbers (by omega)]

theorem rows_around :
    (around source span more).rows = .ok (caretBlock source span more).rows := by
  obtain ⟨hfirst, hlast⟩ := start_line_bounds hexact hmore
  have hwidth := gutterWidth_around hexact hmore
  have hother : ∀ a b : Int, (∀ k ∈ numbers a b, k ≠ span.start.line) →
      (numbers a b).flatMap (rowsOfNumber source span more) =
        (numbers a b).map (sourceRow source (around source span more).gutterWidth) := by
    intro a b hne
    rw [List.map_eq_flatMap, List.flatMap_def, List.flatMap_def]
    refine congrArg List.flatten (List.map_congr_left fun k hk => ?_)
    exact congrArg (List.cons _) (if_neg (hne k hk))
  have hstart : rowsOfNumber source span more span.start.line =
      [sourceRow source (around source span more).gutterWidth span.start.line,
        caretRow (around source span more).gutterWidth span.start.column.toNat
          (span.caretCount (source.shownLine span.start.line))] :=
    congrArg (List.cons _) (if_pos rfl)
  have hbody : (around source span more).lines.flatMap (around source span more).shownRows =
      (numbers (max 1 (span.start.line - more)) (lastNumber source span more)).flatMap
        (rowsOfNumber source span more) := List.flatMap_map ..
  have habove := hother (max 1 (span.start.line - more)) (span.start.line - 1) fun k hk => by
    have := (mem_numbers.1 hk).2
    omega
  have hbelow := hother (span.start.line + 1) (lastNumber source span more) fun k hk => by
    have := (mem_numbers.1 hk).1
    omega
  rw [rows_eq _ hexact, hbody, numbers_split hfirst hlast, List.flatMap_append,
    List.flatMap_cons, habove, hbelow, hstart, hwidth]
  simp [CaretBlock.rows, caretBlock]

end

end Snippet

namespace CaretBlock

theorem mem_rows_iff {b : CaretBlock} {row : Text} :
    row ∈ b.rows ↔ row = b.marks ∨ row ∈ b.above ++ b.first :: b.below := by
  simp only [rows, List.mem_append, List.mem_cons]
  grind

section

variable {source : Text} {span : Span} (hexact : span.Exact source) {more : Int}
  (hmore : 0 ≤ more)
include hexact hmore

/-- Apart from the carets there are empty rows and those of the lines. -/
theorem eq_edge_or_sourceRow {row : Text}
    (h : row ∈ (Snippet.caretBlock source span more).above ++
      (Snippet.caretBlock source span more).first ::
        (Snippet.caretBlock source span more).below) :
    row = Snippet.edge (Snippet.caretBlock source span more).width ∨
      ∃ number, 0 ≤ number ∧ number ≤ Snippet.lastNumber source span more ∧
        row = Snippet.sourceRow source (Snippet.caretBlock source span more).width number := by
  obtain ⟨hfirst, hlast⟩ := Snippet.start_line_bounds hexact hmore
  simp only [Snippet.caretBlock, List.mem_append, List.mem_cons, List.mem_map,
    Snippet.mem_numbers, List.not_mem_nil, or_false] at h
  rcases h with (rfl | ⟨k, hk, rfl⟩) | rfl | ⟨k, hk, rfl⟩ | rfl
  · exact .inl rfl
  · exact .inr ⟨k, by omega, by omega, rfl⟩
  · exact .inr ⟨span.start.line, by omega, hlast, rfl⟩
  · exact .inr ⟨k, by omega, hk.2, rfl⟩
  · exact .inl rfl

end

end CaretBlock

end SceneTokens
