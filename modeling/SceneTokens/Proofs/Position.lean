import SceneTokens.Cursor

/-!
# Where a cursor is

A cursor only ever moves by `Cursor.skip`, so every cursor of a source is the one
at some offset, `Cursor.ofOffset source n`.  The text on its two sides, its offset
and its column are functions of `n`.

* `skip_add` and `skip_ofOffset`: two moves make one, so moving adds up offsets.
* `rest_ofOffset`, `before_ofOffset` and `offset_ofOffset`: the fields of a cursor.
* `column_ofOffset_eq_zero_iff`: column zero is a line start and nothing else is.
* `line_lt_line_skip`: a move from one column zero to another crosses a line.
-/

namespace SceneTokens

open CodeUnit

/-- The units of a text between two offsets. -/
def Text.slice (t : Text) (start stop : Int) : Text := (t.take stop.toNat).drop start.toNat

/-- A line starts at the offset: it is the first one, or stands behind a line feed. -/
def Text.IsLineStart (t : Text) (n : Nat) : Prop :=
  n = 0 ∨ t[n - 1]? = some lineFeed

instance (t : Text) (n : Nat) : Decidable (t.IsLineStart n) :=
  inferInstanceAs (Decidable (n = 0 ∨ t[n - 1]? = some lineFeed))

namespace Cursor

/-! ## Moving -/

@[simp]
theorem skip_zero (c : Cursor) : c.skip 0 = c := rfl

theorem skip_add (c : Cursor) (m n : Nat) : c.skip (m + n) = (c.skip m).skip n := by
  induction m generalizing c with
  | zero => rw [Nat.zero_add]; rfl
  | succ m ih =>
    rw [Nat.succ_add]
    exact ih c.advance

/-- The text behind the cursor takes up what the text ahead loses. -/
theorem before_skip (c : Cursor) (n : Nat) :
    (c.skip n).before = (c.rest.take n).reverse ++ c.before := by
  induction n generalizing c with
  | zero => rfl
  | succ n ih =>
    rw [skip, ih, rest_advance]
    unfold advance
    split
    · rename_i hrest
      simp [hrest]
    · rename_i u rest hrest
      simp [hrest]

theorem offset_advance {c : Cursor} (h : 0 < c.rest.length) :
    c.advance.offset = c.offset + 1 := by
  unfold advance
  split
  · rename_i hrest
    simp [hrest] at h
  · rfl

/-- The offset counts the units moved over. -/
theorem offset_skip {c : Cursor} {n : Nat} (h : n ≤ c.rest.length) :
    (c.skip n).offset = c.offset + n := by
  induction n generalizing c with
  | zero => rfl
  | succ n ih =>
    have hlen : n ≤ c.advance.rest.length := by
      rw [rest_advance, List.length_tail]
      omega
    rw [skip, ih hlen, offset_advance (by omega)]
    omega

/-! ## Lines and columns -/

/-- A move without a line feed stays on the line. -/
theorem line_column_skip_of_notMem {c : Cursor} {n : Nat} (hn : n ≤ c.rest.length)
    (h : lineFeed ∉ c.rest.take n) :
    (c.skip n).line = c.line ∧ (c.skip n).column = c.column + n := by
  induction n generalizing c with
  | zero => exact ⟨rfl, rfl⟩
  | succ n ih =>
    obtain ⟨u, rest, hrest⟩ : ∃ u rest, c.rest = u :: rest :=
      List.exists_cons_of_length_pos (by omega)
    rw [hrest, List.take_succ_cons, List.mem_cons, not_or] at h
    have hadv : c.advance.rest = rest := by rw [rest_advance, hrest, List.tail_cons]
    have hn' : n ≤ c.advance.rest.length := by
      rw [hrest, List.length_cons] at hn
      rw [hadv]
      omega
    have hu : (u == lineFeed) = false := beq_false_of_ne (Ne.symm h.1)
    obtain ⟨hline, hcolumn⟩ := ih hn' (by rw [hadv]; exact h.2)
    have hstep : c.advance.line = c.line ∧ c.advance.column = c.column + 1 := by
      simp [advance, hrest, hu]
    rw [skip, hline, hcolumn, hstep.1, hstep.2]
    exact ⟨rfl, by omega⟩

theorem line_le_line_advance (c : Cursor) : c.line ≤ c.advance.line := by
  unfold advance
  split
  · exact Nat.le_refl _
  · dsimp only
    split <;> omega

theorem line_le_line_skip (c : Cursor) (n : Nat) : c.line ≤ (c.skip n).line := by
  induction n generalizing c with
  | zero => exact Nat.le_refl _
  | succ n ih => exact Nat.le_trans (line_le_line_advance c) (ih c.advance)

/-- A move over a line feed comes to a later line. -/
theorem line_lt_line_skip_of_mem {c : Cursor} {n : Nat} (h : lineFeed ∈ c.rest.take n) :
    c.line < (c.skip n).line := by
  induction n generalizing c with
  | zero => simp at h
  | succ n ih =>
    cases hrest : c.rest with
    | nil => simp [hrest] at h
    | cons u rest =>
      rw [hrest, List.take_succ_cons, List.mem_cons] at h
      rcases h with hu | hmem
      · have hline : c.advance.line = c.line + 1 := by simp [advance, hrest, ← hu]
        have := line_le_line_skip c.advance n
        rw [skip]
        omega
      · have hlt := ih (c := c.advance) (by rw [rest_advance, hrest]; exact hmem)
        exact Nat.lt_of_le_of_lt (line_le_line_advance c) hlt

/-- Two places in column zero are on two lines, the later place on the later line. -/
theorem line_lt_line_skip {c : Cursor} {n : Nat} (hpos : 0 < n) (hn : n ≤ c.rest.length)
    (hcolumn : (c.skip n).column = 0) : c.line < (c.skip n).line := by
  by_cases h : lineFeed ∈ c.rest.take n
  · exact line_lt_line_skip_of_mem h
  · have := (line_column_skip_of_notMem hn h).2
    omega

/-! ## The cursor at an offset -/

/-- The cursor of a source at an offset. -/
def ofOffset (source : Text) (n : Nat) : Cursor := (ofSource source).skip n

@[simp]
theorem ofOffset_zero (source : Text) : ofOffset source 0 = ofSource source := rfl

theorem skip_ofOffset (source : Text) (m n : Nat) :
    (ofOffset source m).skip n = ofOffset source (m + n) :=
  (skip_add (ofSource source) m n).symm

@[simp]
theorem rest_ofOffset (source : Text) (n : Nat) : (ofOffset source n).rest = source.drop n :=
  rest_skip (ofSource source) n

@[simp]
theorem before_ofOffset (source : Text) (n : Nat) :
    (ofOffset source n).before = (source.take n).reverse := by
  rw [ofOffset, before_skip]
  exact List.append_nil _

theorem offset_ofOffset {source : Text} {n : Nat} (h : n ≤ source.length) :
    (ofOffset source n).offset = n := by
  rw [ofOffset, offset_skip h]
  exact Nat.zero_add n

/-- The column counts the units behind the cursor up to the nearest line feed. -/
theorem column_skip {c : Cursor}
    (h : c.column = (c.before.takeWhile (· != lineFeed)).length) (n : Nat) :
    (c.skip n).column = ((c.skip n).before.takeWhile (· != lineFeed)).length := by
  induction n generalizing c with
  | zero => exact h
  | succ n ih =>
    refine ih ?_
    unfold advance
    split
    · exact h
    · rename_i u rest hrest
      by_cases hu : u = lineFeed <;> simp [hu, h]

theorem column_ofOffset (source : Text) (n : Nat) :
    (ofOffset source n).column = ((source.take n).reverse.takeWhile (· != lineFeed)).length := by
  rw [← before_ofOffset]
  exact column_skip rfl n

/-- Column zero is where a line starts. -/
theorem column_ofOffset_eq_zero_iff {source : Text} {n : Nat} (h : n ≤ source.length) :
    (ofOffset source n).column = 0 ↔ source.IsLineStart n := by
  rw [column_ofOffset, Text.IsLineStart]
  cases n with
  | zero => simp
  | succ n =>
    have hget : source[n]? = some source[n] := List.getElem?_eq_getElem h
    rw [List.take_add_one, hget, List.reverse_append, Nat.add_sub_cancel, hget]
    simp only [Option.toList_some, List.reverse_singleton, List.singleton_append]
    by_cases hu : source[n] = lineFeed <;> simp [hu]

end Cursor

end SceneTokens
