import SceneTokens.Proofs.Locations
import SceneTokens.Proofs.Replay

/-!
# The same text at another place

Scanning depends on the text ahead, on the open blocks and on whether the cursor is at the
start of a line.  Where that text stands shows in the locations and nowhere else: two states
with the same text ahead go on in the same way, and the one run is the other with all its
places moved.

* `Cursor.Mirrors` relates the two states by the map that moves the places.
* `Cursor.Mirrors.readLexeme`: the readers take the same units, and what they give is moved.
* `Lexer.Outcome.relocate`, `Lexer.next_relocate` and `Lexer.scan_relocate`: so do a step and a
  scan.
-/

namespace SceneTokens

open CodeUnit

/-! ## Moved places -/

/-- A fault with all its places moved. -/
def Fault.relocate (move : Location → Location) : Fault → Fault
  | .unterminatedString span => .unterminatedString ⟨move span.start, move span.stop⟩
  | .inconsistentIndentation span location expected actual =>
    .inconsistentIndentation ⟨move span.start, move span.stop⟩ (move location) expected actual
  | .unexpectedEnd location => .unexpectedEnd (move location)
  | .unfinishedString span => .unfinishedString ⟨move span.start, move span.stop⟩
  | .bareCarriageReturn location => .bareCarriageReturn (move location)
  | .unsupportedWhitespace location symbol => .unsupportedWhitespace (move location) symbol
  | .snapshotOrder location misuse => .snapshotOrder (move location) misuse

/-- The same token at another place. -/
def Token.relocate (move : Location → Location) (t : Token) : Token :=
  { t with span := ⟨move t.span.start, move t.span.stop⟩ }

/-- What is read at another place: a token, or a fault. -/
def Token.relocateResult (move : Location → Location) : Except Fault Token → Except Fault Token
  | .ok token => .ok (token.relocate move)
  | .error fault => .error (fault.relocate move)

/-! ## Cursors and readers -/

namespace Cursor

/-- The two cursors have the same text ahead.  All along it the places of the one are those of
the other, moved, and the same of them are line starts. -/
structure Mirrors (move : Location → Location) (c c' : Cursor) : Prop where
  rest : c'.rest = c.rest
  location : ∀ n ≤ c.rest.length, (c'.skip n).location = move (c.skip n).location
  column : ∀ n ≤ c.rest.length, ((c'.skip n).column = 0 ↔ (c.skip n).column = 0)

/-- Two readings that take the same units. -/
def Relocated (move : Location → Location) (c c' : Cursor) (r r' : Reading Token) : Prop :=
  ∃ n ≤ c.rest.length, r.2 = c.skip n ∧ r' = (Token.relocateResult move r.1, c'.skip n)

namespace Mirrors

variable {move : Location → Location} {c c' : Cursor} (h : c.Mirrors move c')
include h

theorem skip {n : Nat} (hn : n ≤ c.rest.length) : (c.skip n).Mirrors move (c'.skip n) := by
  have hbound : ∀ {m}, m ≤ (c.skip n).rest.length → n + m ≤ c.rest.length := by
    intro m hm
    rw [rest_skip, List.length_drop] at hm
    omega
  refine ⟨?_, ?_, ?_⟩
  · rw [rest_skip, rest_skip, h.rest]
  · intro m hm
    rw [← skip_add, ← skip_add]
    exact h.location _ (hbound hm)
  · intro m hm
    rw [← skip_add, ← skip_add]
    exact h.column _ (hbound hm)

theorem here : c'.location = move c.location := h.location 0 (Nat.zero_le _)

theorem column_here : c'.column = 0 ↔ c.column = 0 := h.column 0 (Nat.zero_le _)

theorem run (p : CodeUnit → Bool) : c'.run p = c.run p := by
  rw [Cursor.run, Cursor.run, h.rest]

theorem cut (kind : TokenKind) {n : Nat} (hn : n ≤ c.rest.length) :
    c'.cut kind n = (c.cut kind n).relocate move := by
  rw [Cursor.cut, h.rest, h.here, h.location n hn]
  rfl

theorem mark (kind : TokenKind) (value : Text) :
    c'.mark kind value = (c.mark kind value).relocate move := by
  rw [Cursor.mark, h.here]
  rfl

theorem relocated_cut (kind : TokenKind) {n : Nat} (hn : n ≤ c.rest.length) :
    Relocated move c c' (.ok (c.cut kind n), c.skip n) (.ok (c'.cut kind n), c'.skip n) := by
  refine ⟨n, hn, rfl, ?_⟩
  rw [h.cut kind hn]
  rfl

theorem readRun (kind : TokenKind) (p : CodeUnit → Bool) :
    Relocated move c c' (c.readRun kind p) (c'.readRun kind p) := by
  rw [Cursor.readRun, Cursor.readRun, h.run]
  exact h.relocated_cut kind (length_run_le c p)

theorem readString : Relocated move c c' c.readString c'.readString := by
  unfold Cursor.readString
  rw [h.rest]
  cases hrest : c.rest with
  | nil => exact ⟨0, Nat.zero_le _, rfl, by rw [h.here]; rfl⟩
  | cons quote rest =>
    have hle := scanString_le quote rest
    dsimp only
    generalize scanString quote rest = scanned at hle
    rcases scanned with ⟨n, ending⟩
    have hn : n + 1 ≤ c.rest.length := by
      rw [hrest, List.length_cons]
      exact Nat.succ_le_succ hle
    cases ending with
    | closed => exact h.relocated_cut .string hn
    | lineBreak => exact ⟨n + 1, hn, rfl, by rw [h.here, h.location _ hn]; rfl⟩
    | exhausted => exact ⟨n + 1, hn, rfl, by rw [h.here, h.location _ hn]; rfl⟩

theorem readNewline : Relocated move c c' c.readNewline c'.readNewline := by
  unfold Cursor.readNewline
  rw [h.rest]
  cases hrest : c.rest with
  | nil => exact ⟨0, Nat.zero_le _, rfl, by rw [h.here]; rfl⟩
  | cons u rest =>
    have hone : 1 ≤ c.rest.length := by simp [hrest]
    dsimp only
    split
    · split
      · rename_i hfeed
        have htwo : 2 ≤ c.rest.length := by
          cases rest with
          | nil => simp at hfeed
          | cons v rest => simp [hrest]
        exact h.relocated_cut .newline htwo
      · exact ⟨1, hone, rfl, by rw [h.here]; rfl⟩
    · exact h.relocated_cut .newline hone

theorem readSymbol : Relocated move c c' c.readSymbol c'.readSymbol := by
  have hle := length_headSymbol_le c.rest
  unfold Cursor.readSymbol
  rw [h.rest]
  cases hsymbol : Text.headSymbol c.rest with
  | nil => exact ⟨0, Nat.zero_le _, rfl, by rw [h.here]; rfl⟩
  | cons u more =>
    rw [hsymbol] at hle
    dsimp only
    split
    · exact ⟨0, Nat.zero_le _, rfl, by rw [h.here]; rfl⟩
    · exact h.relocated_cut .symbol hle

theorem readLexeme (u : CodeUnit) :
    Relocated move c c' (c.readLexeme u) (c'.readLexeme u) := by
  unfold Cursor.readLexeme
  split
  · exact h.readRun _ _
  split
  · exact h.readRun _ _
  split
  · exact h.readRun _ _
  split
  · exact h.readString
  split
  · exact h.readNewline
  · exact h.readSymbol

end Mirrors

end Cursor

/-! ## Steps and scans -/

namespace Lexer

/-- The two states have mirrored cursors and the same blocks. -/
structure Mirrors (move : Location → Location) (lx lx' : Lexer) : Prop where
  cursor : lx.cursor.Mirrors move lx'.cursor
  blocks : lx'.blocks = lx.blocks

namespace Mirrors

variable {move : Location → Location} {lx lx' : Lexer} (h : lx.Mirrors move lx')
include h

theorem skip {n : Nat} (hn : n ≤ lx.cursor.rest.length) :
    (lx.skip n).Mirrors move (lx'.skip n) := ⟨h.cursor.skip hn, h.blocks⟩

theorem leading : lx'.leading = lx.leading := h.cursor.run isHorizontal

theorem behind : lx'.behind = lx.behind := by
  rw [Lexer.behind, Lexer.behind, h.leading, h.cursor.rest]

theorem indent : lx'.indent = lx.indent := by
  rw [Lexer.indent, Lexer.indent, h.blocks]

theorem locationAhead {n : Nat} (hn : n ≤ lx.leading.length) :
    lx'.cursor.locationAhead n = move (lx.cursor.locationAhead n) := by
  rw [lx'.locationAhead_of_le_leading (h.leading ▸ hn), lx.locationAhead_of_le_leading hn]
  exact h.cursor.location n (Nat.le_trans hn lx.length_leading_le)

theorem dedent :
    lx'.dedent = (lx.dedent.1.relocate move, ⟨lx'.cursor, lx.dedent.2.blocks⟩) := by
  unfold Lexer.dedent closeBlock Lexer.indent
  dsimp only
  rw [h.blocks, h.cursor.mark]

theorem readEndOfInput :
    lx'.readEndOfInput =
      (lx.readEndOfInput.1.relocate move, ⟨lx'.cursor, lx.readEndOfInput.2.blocks⟩) := by
  unfold Lexer.readEndOfInput
  rw [h.blocks]
  split
  · rw [h.cursor.mark, ← h.blocks]
  · exact h.dedent

end Mirrors

variable {move : Location → Location} {lx lx' after : Lexer} {r : Except Fault Token}

/-- Whatever way a step goes, it goes the same way at a mirrored state, over the same units. -/
theorem Outcome.relocate (hmirrors : lx.Mirrors move lx') (h : Outcome lx r after) :
    ∃ n ≤ lx.cursor.rest.length, after.cursor = lx.cursor.skip n ∧
      Outcome lx' (Token.relocateResult move r) ⟨lx'.cursor.skip n, after.blocks⟩ := by
  have hcursor := hmirrors.cursor
  have hline := hcursor.column_here
  have hle := lx.length_leading_le
  cases h with
  | @blank w hcolumn hshape =>
    obtain ⟨gap, more, hrest, -, hw⟩ := LineShape.exists_of_blank hshape
    have hn : w ≤ lx.cursor.rest.length := by simp [hrest, hw]
    refine ⟨w, hn, rfl, ?_⟩
    have hout := @Outcome.blank lx' w (hline.2 hcolumn) (by rw [hcursor.rest, hshape])
    rw [hcursor.cut _ hn, skip, hmirrors.blocks] at hout
    exact hout
  | closing hcolumn hshape hblocks hhash hrun hlt =>
    refine ⟨0, Nat.zero_le _, rfl, ?_⟩
    have hout := @Outcome.closing lx' (hline.2 hcolumn) (by rw [hcursor.rest, hshape])
    rw [hmirrors.blocks, hmirrors.leading, hmirrors.behind, hmirrors.indent, hmirrors.dedent]
      at hout
    exact hout hblocks hhash hrun hlt
  | opening hcolumn hshape hhash hrun hlt =>
    refine ⟨lx.leading.length, hle, rfl, ?_⟩
    have hout := @Outcome.opening lx' (hline.2 hcolumn) (by rw [hcursor.rest, hshape])
    rw [hmirrors.leading, hmirrors.behind, hmirrors.indent, hcursor.cut _ hle, openBlock,
      skip_blocks, hmirrors.blocks] at hout
    exact hout hhash hrun hlt
  | @divergence i hcolumn hshape hhash hdiv =>
    refine ⟨0, Nat.zero_le _, rfl, ?_⟩
    have hout := @Outcome.divergence lx' i (hline.2 hcolumn) (by rw [hcursor.rest, hshape])
    have hi : i ≤ lx.leading.length := Nat.le_of_lt (Text.lt_length_of_divergence? hdiv)
    rw [hmirrors.locationAhead hi, hmirrors.leading, hmirrors.locationAhead (Nat.le_refl _),
      hmirrors.behind, hmirrors.indent, hcursor.here] at hout
    have hlexer : (⟨lx'.cursor.skip 0, lx.blocks⟩ : Lexer) = lx' := by
      rw [Cursor.skip_zero, ← hmirrors.blocks]
    rw [hlexer]
    exact hout hhash hdiv
  | ending hgap =>
    refine ⟨lx.cursor.rest.length, Nat.le_refl _, ?_, ?_⟩
    · obtain ⟨kind, value, -, hafter, -⟩ :=
        (lx.skip lx.cursor.rest.length).readEndOfInput_eq_mark
      exact hafter
    · have hend := hmirrors.skip (Nat.le_refl lx.cursor.rest.length)
      have hout := @Outcome.ending lx'
      rw [hcursor.rest, hline, hend.readEndOfInput] at hout
      exact hout hgap
  | @lexeme u more hbehind hstay =>
    obtain ⟨n, hn, hafter, hread⟩ := (hcursor.skip hle).readLexeme u
    have hout := @Outcome.lexeme lx' u more (hmirrors.behind.trans hbehind)
    rw [hmirrors.leading, hmirrors.indent, hcursor.rest, hline, hmirrors.blocks, hread] at hout
    refine ⟨lx.leading.length + n, ?_, ?_, ?_⟩
    · rw [Cursor.rest_skip, List.length_drop] at hn
      omega
    · rw [Cursor.skip_add]
      exact hafter
    · rw [Cursor.skip_add]
      exact hout hstay

theorem next_relocate (hmirrors : lx.Mirrors move lx') (h : lx.next = (r, after)) :
    ∃ n ≤ lx.cursor.rest.length, after.cursor = lx.cursor.skip n ∧
      lx'.next = (Token.relocateResult move r, ⟨lx'.cursor.skip n, after.blocks⟩) := by
  obtain ⟨n, hn, hafter, hout⟩ := (outcome_of_next h).relocate hmirrors
  exact ⟨n, hn, hafter, next_of_outcome hout⟩

/-- To scan at a mirrored state is to scan and to move what was read. -/
theorem scan_relocate (hmirrors : lx.Mirrors move lx') :
    ∃ n ≤ lx.cursor.rest.length, lx.scan.final.cursor = lx.cursor.skip n ∧
      lx'.scan = ⟨lx.scan.tokens.map (·.relocate move), lx.scan.fault.map (·.relocate move),
        ⟨lx'.cursor.skip n, lx.scan.final.blocks⟩⟩ := by
  fun_induction scan lx generalizing lx' with
  | case1 lx fault after hnext =>
    obtain ⟨n, hn, hafter, hnext'⟩ := next_relocate hmirrors hnext
    exact ⟨n, hn, hafter, scan_of_error hnext'⟩
  | case2 lx token after hnext hkind =>
    obtain ⟨n, hn, hafter, hnext'⟩ := next_relocate hmirrors hnext
    have hend : (token.relocate move).kind = .endOfStream := hkind
    refine ⟨n, hn, hafter, ?_⟩
    rw [scan_of_ok hnext', if_pos hend]
    rfl
  | case3 lx token after hnext hkind ih =>
    obtain ⟨m, hm, hafter, hnext'⟩ := next_relocate hmirrors hnext
    have hmore : (token.relocate move).kind ≠ .endOfStream := hkind
    obtain ⟨n, hn, hfinal, hscan⟩ := @ih ⟨lx'.cursor.skip m, after.blocks⟩
      ⟨by rw [hafter]; exact hmirrors.cursor.skip hm, rfl⟩
    refine ⟨m + n, ?_, ?_, ?_⟩
    · rw [hafter, Cursor.rest_skip, List.length_drop] at hn
      omega
    · rw [Cursor.skip_add, ← hafter]
      exact hfinal
    · rw [scan_of_ok hnext', if_neg hmore, hscan, Cursor.skip_add]
      rfl

end Lexer

end SceneTokens
