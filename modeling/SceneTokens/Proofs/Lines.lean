import SceneTokens.Proofs.Locations

/-!
# The lines of a text

A text is its lines with a line feed between any two of them: `Text.lines` and `Text.unlines`
undo each other (`Text.lines_unlines`, `Text.unlines_lines`).

A place in the text is a place in one of the lines.  `Text.lines_at` splits the lines at the
one that holds an offset: there are as many lines above it as there are line feeds before the
offset, they take up the text before `Text.lineStart`, and the offset is inside the line or at
its end.
-/

namespace SceneTokens

open CodeUnit

namespace Text

/-! ## Splitting and joining -/

theorem splitOn_eq (mark : CodeUnit) (t : Text) : splitOn mark t = List.splitOn mark t := by
  rw [List.splitOn_eq_splitOnP]
  induction t with
  | nil => rfl
  | cons u rest ih =>
    rw [splitOn, List.splitOnP_cons_eq_if_modifyHead, ih]
    obtain ⟨piece, more, hsplit⟩ :=
      List.exists_cons_of_ne_nil (List.splitOnP_ne_nil (fun v => v == mark) rest)
    rw [hsplit]
    rfl

theorem lines_unlines {rows : List Text} (hne : rows ≠ []) (h : ∀ row ∈ rows, lineFeed ∉ row) :
    lines (unlines rows) = rows := by
  rw [lines, splitOn_eq]
  exact List.splitOn_intercalate lineFeed h hne

theorem unlines_lines (t : Text) : unlines (lines t) = t := by
  rw [lines, splitOn_eq]
  exact List.intercalate_splitOn lineFeed

/-- A line feed between two texts keeps their lines apart. -/
theorem lines_append_cons (a t : Text) : lines (a ++ lineFeed :: t) = lines a ++ lines t := by
  simp only [lines, splitOn_eq, List.splitOn_eq_splitOnP]
  exact List.splitOnP_append_cons a t (beq_self_eq_true lineFeed)

theorem lines_of_notMem {t : Text} (h : lineFeed ∉ t) : lines t = [t] := by
  rw [lines, splitOn_eq, List.splitOn_eq_splitOnP]
  refine List.splitOnP_eq_singleton fun u hu => beq_false_of_ne ?_
  rintro rfl
  exact h hu

/-- The first line goes up to the first line feed. -/
theorem exists_lines_eq (t : Text) :
    ∃ below, lines t = t.takeWhile (· != lineFeed) :: below := by
  by_cases h : lineFeed ∈ t
  · obtain ⟨a, rest, hsplit, ha⟩ := List.eq_append_cons_of_mem h
    have hline : t.takeWhile (· != lineFeed) = a := by
      rw [hsplit]
      refine (List.takeWhile_append_of_pos ?_).trans (by simp)
      intro u hu
      simpa using ne_of_mem_of_not_mem hu ha
    refine ⟨lines rest, ?_⟩
    rw [hline, hsplit, lines_append_cons, lines_of_notMem ha]
    rfl
  · have hline : t.takeWhile (· != lineFeed) = t := by
      refine List.takeWhile_eq_self_iff.2 fun u hu => ?_
      simpa using ne_of_mem_of_not_mem hu h
    exact ⟨[], by rw [hline, lines_of_notMem h]⟩

theorem mark_notMem_of_mem_splitOn {mark : CodeUnit} {t piece : Text}
    (h : piece ∈ splitOn mark t) : mark ∉ piece := by
  fun_induction splitOn mark t generalizing piece with
  | case1 =>
    rw [List.mem_singleton.1 h]
    exact List.not_mem_nil
  | case2 u rest hu ih =>
    rcases List.mem_cons.1 h with rfl | h
    · exact List.not_mem_nil
    · exact ih h
  | case3 u rest hu hnil ih =>
    rw [List.mem_singleton.1 h]
    simpa using Ne.symm (by simpa using hu : u ≠ mark)
  | case4 u rest hu first more hsplit ih =>
    have hne : u ≠ mark := by simpa using hu
    rw [hsplit] at ih
    rcases List.mem_cons.1 h with rfl | h
    · rw [List.mem_cons, not_or]
      exact ⟨hne.symm, ih List.mem_cons_self⟩
    · exact ih (List.mem_cons_of_mem _ h)

theorem lineFeed_notMem_of_mem_lines {t line : Text} (h : line ∈ lines t) : lineFeed ∉ line :=
  mark_notMem_of_mem_splitOn h

theorem length_splitOn (mark : CodeUnit) (t : Text) :
    (splitOn mark t).length = t.count mark + 1 := by
  fun_induction splitOn mark t with
  | case1 => rfl
  | case2 u rest hu ih =>
    rw [beq_iff_eq.1 hu, List.count_cons_self, List.length_cons, ih]
  | case3 u rest hu hnil ih => simp [hnil] at ih
  | case4 u rest hu piece more hmore ih =>
    rw [List.count_cons_of_ne (by simpa using hu), ← ih, hmore]
    rfl

/-- There is one line more than there are line feeds. -/
theorem length_lines (t : Text) : (lines t).length = t.count lineFeed + 1 :=
  length_splitOn lineFeed t

/-- The number of units that some lines take up, with a line feed behind each of them. -/
def extent : List Text → Nat
  | [] => 0
  | row :: rest => row.length + 1 + extent rest

theorem extent_lines (t : Text) : extent (lines t) = t.length + 1 := by
  have hjoin : ∀ rows : List Text, rows ≠ [] → extent rows = (unlines rows).length + 1 := by
    intro rows hne
    induction rows with
    | nil => exact absurd rfl hne
    | cons row rest ih =>
      cases rest with
      | nil => simp [extent, unlines]
      | cons row' rest =>
        have hrest := ih (by simp)
        rw [extent, hrest]
        simp only [unlines, List.intercalate_cons_cons, List.length_append, List.length_singleton]
        omega
  obtain ⟨below, hlines⟩ := exists_lines_eq t
  have hne : lines t ≠ [] := by simp [hlines]
  rw [hjoin _ hne, unlines_lines]

/-! ## The line of an offset -/

theorem lineStart_le (t : Text) (n : Nat) : t.lineStart n ≤ n := by
  induction n with
  | zero => exact Nat.le_refl 0
  | succ n ih =>
    rw [lineStart]
    split <;> omega

/-- No line feed lies between the start of a line and a place in it. -/
theorem lineFeed_notMem_slice_lineStart (t : Text) (n : Nat) :
    lineFeed ∉ (t.take n).drop (t.lineStart n) := by
  induction n with
  | zero => simp
  | succ n ih =>
    rw [lineStart]
    split
    · simp
    · rename_i hfeed
      rw [List.take_add_one, List.drop_append, List.mem_append, not_or]
      refine ⟨ih, fun hmem => hfeed ?_⟩
      cases hget : t[n]? with
      | none => simp [hget] at hmem
      | some u =>
        rw [hget] at hmem
        have := List.mem_of_mem_drop hmem
        simp at this
        rw [this]

/-- A line starts at the beginning of the text or behind a line feed. -/
theorem lineStart_cases {t : Text} {n : Nat} :
    t.lineStart n = 0 ∨ ∃ m, t.lineStart n = m + 1 ∧ t[m]? = some lineFeed := by
  induction n with
  | zero => exact .inl rfl
  | succ n ih =>
    rw [lineStart]
    split
    · rename_i hfeed
      exact .inr ⟨n, rfl, hfeed⟩
    · exact ih

theorem take_lineStart_append (t : Text) (n : Nat) :
    t.take (t.lineStart n) ++ (t.take n).drop (t.lineStart n) = t.take n := by
  have htake := List.take_append_drop (t.lineStart n) (t.take n)
  rwa [List.take_take, Nat.min_eq_left (t.lineStart_le n)] at htake

theorem count_take_lineStart (t : Text) (n : Nat) :
    (t.take (t.lineStart n)).count lineFeed = (t.take n).count lineFeed := by
  rw [← take_lineStart_append t n, List.count_append,
    List.count_eq_zero.2 (t.lineFeed_notMem_slice_lineStart n)]
  rfl

/-- A place in a line is not behind the first line feed after the start of the line. -/
theorem le_lineStart_add_length {t : Text} {n : Nat} (hn : n ≤ t.length) :
    n ≤ t.lineStart n + ((t.drop (t.lineStart n)).takeWhile (· != lineFeed)).length := by
  have hle := t.lineStart_le n
  have hsplit : (t.take n).drop (t.lineStart n) ++ t.drop n = t.drop (t.lineStart n) := by
    rw [← List.drop_append_of_le_length (by rw [List.length_take]; omega),
      List.take_append_drop]
  rw [← hsplit, List.takeWhile_append_of_pos, List.length_append, List.length_drop,
    List.length_take]
  · omega
  · intro u hu
    simpa using ne_of_mem_of_not_mem hu (t.lineFeed_notMem_slice_lineStart n)

/-- The line that holds an offset, with the lines above it and below it.  What comes after the
line is nothing, or a line feed and more. -/
theorem lines_at {t : Text} {n : Nat} (hn : n ≤ t.length) :
    ∃ above line below after, lines t = above ++ line :: below ∧
      above.length = (t.take n).count lineFeed ∧
      extent above = t.lineStart n ∧
      t.drop (t.lineStart n) = line ++ after ∧ (∀ u ∈ after.head?, u = lineFeed) ∧
      n ≤ t.lineStart n + line.length := by
  have hcount := count_take_lineStart t n
  have hlong := le_lineStart_add_length hn
  have hle := t.lineStart_le n
  have hafter : t.drop (t.lineStart n) =
      (t.drop (t.lineStart n)).takeWhile (· != lineFeed) ++
        (t.drop (t.lineStart n)).dropWhile (· != lineFeed) := List.takeWhile_append_dropWhile.symm
  have hhead : ∀ u ∈ ((t.drop (t.lineStart n)).dropWhile (· != lineFeed)).head?,
      u = lineFeed := by
    intro u hu
    have hstop := List.head?_dropWhile_not (· != lineFeed) (t.drop (t.lineStart n))
    rw [Option.mem_def.1 hu] at hstop
    simpa using hstop
  obtain ⟨below, hbelow⟩ := exists_lines_eq (t.drop (t.lineStart n))
  rcases lineStart_cases (t := t) (n := n) with hstart | ⟨m, hstart, hfeed⟩
  · refine ⟨[], _, below, _, ?_, ?_, ?_, hafter, hhead, hlong⟩
    · rw [← hbelow, hstart]
      rfl
    · rw [← hcount, hstart]
      rfl
    · rw [hstart]
      rfl
  · have hm : m < t.length := by omega
    have hparts : t.take m ++ lineFeed :: t.drop (t.lineStart n) = t := by
      rw [hstart, ← (List.getElem?_eq_some_iff.1 hfeed).2, ← List.drop_eq_getElem_cons hm,
        List.take_append_drop]
    refine ⟨lines (t.take m), _, below, _, ?_, ?_, ?_, hafter, hhead, hlong⟩
    · rw [← hbelow, ← lines_append_cons, hparts]
    · rw [← hcount, hstart, List.take_add_one, hfeed, List.count_append, length_lines]
      rfl
    · rw [extent_lines, hstart, List.length_take, Nat.min_eq_left (by omega)]

end Text

end SceneTokens
