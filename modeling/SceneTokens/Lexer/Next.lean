import SceneTokens.Lexer.Indentation

/-!
# The next token

`Lexer.next` is one step of scanning: it reads exactly one token or fails.  The
weight of a state, two for every unit ahead and one for every open block, falls
with every token that is not the end of the stream (`weight_next_lt`), so scanning
always comes to an end.
-/

namespace SceneTokens

open CodeUnit

namespace Lexer

/-- Reads a token inside a line: passes over spaces and tabs, and then reads the
lexeme there or the end of the source. -/
def readInLine (lx : Lexer) : Step Token :=
  let inner : Lexer := { lx with cursor := lx.cursor.skipWhile isHorizontal }
  match inner.cursor.rest with
  | [] =>
    let (token, after) := inner.readEndOfInput
    (.ok token, after)
  | u :: _ => inner.onCursor (·.readLexeme u)

/-- Reads the next token. -/
def next (lx : Lexer) : Step Token :=
  if lx.cursor.column == 0 && !lx.cursor.atEnd then
    match lx.readLineStart with
    | (.ok none, inner) => inner.readInLine
    | (.ok (some token), after) => (.ok token, after)
    | (.error fault, after) => (.error fault, after)
  else lx.readInLine

/-! ## Scanning comes to an end -/

/-- Two for every unit ahead and one for every open block. -/
def weight (lx : Lexer) : Nat := 2 * lx.cursor.rest.length + lx.blocks.length

theorem weight_skip_le (lx : Lexer) (n : Nat) : (lx.skip n).weight ≤ lx.weight := by
  simp only [weight, skip, Cursor.rest_skip, List.length_drop]
  omega

/-- A closed block takes one off the weight. -/
theorem weight_dedent_lt (lx : Lexer) (h : lx.blocks ≠ []) : lx.dedent.2.weight < lx.weight := by
  have := List.length_pos_iff.2 h
  simp only [weight, dedent, closeBlock, List.length_tail]
  omega

/-- A run that is shorter than the innermost one has a block to close. -/
theorem blocks_ne_nil_of_lt_indent {lx : Lexer} {n : Nat} (h : n < lx.indent.length) :
    lx.blocks ≠ [] := by
  intro hb
  simp [indent, hb] at h

/-- An indentation run opens a block behind itself, closes one in front of itself, or
is passed over. -/
theorem weight_readIndentation {lx after : Lexer} {token : Option Token}
    (h : lx.readIndentation = (.ok token, after)) :
    after.weight ≤ lx.weight ∧ (token.isSome → after.weight < lx.weight) := by
  have hrun : (lx.cursor.run isHorizontal).length ≤ lx.cursor.rest.length :=
    (List.takeWhile_sublist _).length_le
  simp only [readIndentation] at h
  split at h
  · cases h
    simp
  split at h
  · cases h
  split at h
  · rename_i hlt
    cases h
    have := weight_dedent_lt lx (blocks_ne_nil_of_lt_indent hlt)
    omega
  split at h
  · rename_i hgt
    cases h
    simp only [weight, openBlock, skip, Cursor.rest_skip, List.length_drop, List.length_cons]
    omega
  · cases h
    simpa using weight_skip_le lx _

/-- A token at the start of a line takes off some weight. -/
theorem weight_readLineStart {lx after : Lexer} {token : Option Token}
    (hne : lx.cursor.rest ≠ []) (h : lx.readLineStart = (.ok token, after)) :
    after.weight ≤ lx.weight ∧ (token.isSome → after.weight < lx.weight) := by
  have hpos := List.length_pos_iff.2 hne
  simp only [readLineStart] at h
  split at h
  · rename_i width hshape
    cases h
    have hwidth : 0 < width := by
      simp only [LineShape.of] at hshape
      split at hshape
      · cases hshape
      split at hshape <;> cases hshape
      omega
    simp only [weight, skip, Cursor.rest_skip, List.length_drop]
    omega
  · cases h
    simpa using weight_skip_le lx _
  · simp only [readFilledLine] at h
    split at h
    · rename_i hclose
      cases h
      have hb : lx.blocks ≠ [] := by
        intro hnil
        simp [hnil] at hclose
      have := weight_dedent_lt lx hb
      omega
    · exact weight_readIndentation h

/-- A run that begins with a unit of its class is not empty. -/
theorem length_run_pos {c : Cursor} {u : CodeUnit} {rest : Text} {p : CodeUnit → Bool}
    (hrest : c.rest = u :: rest) (hu : p u) : 0 < (c.run p).length := by
  simp [Cursor.run, hrest, hu]

/-- Every lexeme takes at least one unit. -/
theorem length_readLexeme_lt {c after : Cursor} {u : CodeUnit} {rest : Text} {token : Token}
    (hrest : c.rest = u :: rest) (h : c.readLexeme u = (.ok token, after)) :
    after.rest.length < c.rest.length := by
  have hskip : ∀ n, 0 < n → (c.skip n).rest.length < c.rest.length := by
    intro n hn
    simp only [Cursor.rest_skip, List.length_drop, hrest, List.length_cons]
    omega
  simp only [Cursor.readLexeme] at h
  split at h
  · rename_i hu
    cases h
    refine hskip _ (length_run_pos hrest ?_)
    rw [beq_iff_eq.1 hu]
    decide
  split at h
  · rename_i hu
    cases h
    exact hskip _ (length_run_pos hrest hu)
  split at h
  · rename_i hu
    cases h
    exact hskip _ (length_run_pos hrest (by simp [isIdentifierPart, hu]))
  split at h
  · simp only [Cursor.readString, hrest] at h
    split at h <;> cases h
    exact hskip _ (by omega)
  split at h
  · simp only [Cursor.readNewline, hrest] at h
    split at h
    · split at h <;> cases h
      exact hskip _ (by omega)
    · cases h
      exact hskip _ (by omega)
  · simp only [Cursor.readSymbol] at h
    split at h
    · cases h
    · rename_i hsymbol
      split at h <;> cases h
      exact hskip _ (List.length_pos_iff.2 hsymbol)

/-- Inside a line only the end of the stream keeps the weight. -/
theorem weight_readInLine_lt {lx after : Lexer} {token : Token}
    (h : lx.readInLine = (.ok token, after)) (hkind : token.kind ≠ .endOfStream) :
    after.weight < lx.weight := by
  have hle : ({ lx with cursor := lx.cursor.skipWhile isHorizontal } : Lexer).weight
      ≤ lx.weight := weight_skip_le lx _
  simp only [readInLine] at h
  split at h
  · cases h
    simp only [readEndOfInput] at hkind ⊢
    split at hkind
    · simp [Cursor.mark] at hkind
    · rename_i hb
      rw [if_neg hb]
      refine Nat.lt_of_lt_of_le (weight_dedent_lt _ ?_) hle
      simpa using hb
  · rename_i u _ hrest
    rcases hread : (lx.cursor.skipWhile isHorizontal).readLexeme u with ⟨outcome, c⟩
    simp only [onCursor, hread] at h
    cases h
    have := length_readLexeme_lt hrest hread
    simp only [weight] at hle ⊢
    omega

/-- Every token but the end of the stream takes off some weight. -/
theorem weight_next_lt {lx after : Lexer} {token : Token}
    (h : lx.next = (.ok token, after)) (hkind : token.kind ≠ .endOfStream) :
    after.weight < lx.weight := by
  simp only [next] at h
  split at h
  · rename_i hstart
    have hne : lx.cursor.rest ≠ [] := by
      intro hnil
      simp [Cursor.atEnd, hnil] at hstart
    split at h
    · rename_i hline
      exact Nat.lt_of_lt_of_le (weight_readInLine_lt h hkind)
        (weight_readLineStart hne hline).1
    · rename_i hline
      cases h
      exact (weight_readLineStart hne hline).2 rfl
    · cases h
  · exact weight_readInLine_lt h hkind

end Lexer

end SceneTokens
