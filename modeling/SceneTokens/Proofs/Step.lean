import Mathlib.Data.List.TakeWhile
import SceneTokens.Lexer.Next
import SceneTokens.Proofs.Position

/-!
# One step of scanning

What `Lexer.next` can do, said once.  There are four groups.

* Lines: `LineShape.of` told apart by the units of the text ahead.
* Lexemes: every reader takes some units at the cursor, and its token is cut from
  exactly these (`Cursor.Takes`, `takes_readLexeme`).
* Equations: what `next` does on a blank line, inside a line, and in each case of the
  comparison of a leading run with the innermost block (`next_of_blank` and so on).
* `Lexer.Outcome` lists all the ways in which a step can go, each with its guard, and
  `next_outcome` says that there is no other.  Everything else about a step is derived
  from it, by one case for each way.  The guards exclude each other, so the outcome also
  decides the step (`next_of_outcome`).
-/

namespace SceneTokens

open CodeUnit

/-- The kinds of token that are read from the text of a line, its end included. -/
def TokenKind.isLexeme : TokenKind → Bool
  | .newline | .comment | .identifier | .integer | .string | .symbol => true
  | .endOfStream | .indent | .dedent => false

/-- A lexeme is no marker. -/
theorem TokenKind.ne_of_isLexeme {kind : TokenKind} (h : kind.isLexeme = true) :
    kind ≠ .endOfStream ∧ kind ≠ .indent ∧ kind ≠ .dedent := by
  cases kind with
  | endOfStream | indent | dedent => cases h
  | newline | comment | identifier | integer | string | symbol => exact ⟨nofun, nofun, nofun⟩

/-! ## Lines -/

/-- What stands behind a run is what is left after dropping its class. -/
theorem drop_length_takeWhile {α : Type} (p : α → Bool) (l : List α) :
    l.drop (l.takeWhile p).length = l.dropWhile p := by
  have h : l.drop (l.takeWhile p).length =
      (l.takeWhile p ++ l.dropWhile p).drop (l.takeWhile p).length := by
    rw [List.takeWhile_append_dropWhile]
  rw [h, List.drop_left]

theorem isBlank_eq_false_of_isSpace {u : CodeUnit} (h : isSpace u = false) : isBlank u = false := by
  rw [isBlank, h, Bool.false_and]

theorem isBlank_of_isHorizontal {u : CodeUnit} (h : isHorizontal u = true) : isBlank u = true := by
  rw [isHorizontal, Bool.or_eq_true, beq_iff_eq, beq_iff_eq] at h
  rcases h with rfl | rfl <;> decide

namespace LineShape

/-- The shape of a line is decided by the first unit that is no blank. -/
theorem of_eq (t : Text) :
    LineShape.of t =
      match t.dropWhile isBlank with
      | [] => .trailing (t.takeWhile isBlank).length
      | u :: _ =>
        if u == lineFeed then .blank ((t.takeWhile isBlank).length + 1) else .filled := by
  rw [← drop_length_takeWhile]
  rfl

/-- One more unit in front of a text makes its first line longer, unless it ends it. -/
theorem of_cons (u : CodeUnit) (t : Text) :
    LineShape.of (u :: t) =
      if isBlank u then
        match LineShape.of t with
        | .blank w => .blank (w + 1)
        | .trailing w => .trailing (w + 1)
        | .filled => .filled
      else if u == lineFeed then .blank 1 else .filled := by
  rw [of_eq, of_eq]
  by_cases hu : isBlank u = true
  · rw [List.dropWhile_cons_of_pos hu, List.takeWhile_cons_of_pos hu, if_pos hu]
    cases t.dropWhile isBlank with
    | nil => rfl
    | cons v _ => by_cases hv : v == lineFeed <;> simp [hv]
  · rw [List.dropWhile_cons_of_neg hu, List.takeWhile_cons_of_neg hu, if_neg hu]
    rfl

/-- A blank line is a run of blanks and a line feed. -/
theorem exists_of_blank {t : Text} {w : Nat} (h : LineShape.of t = .blank w) :
    ∃ gap more, t = gap ++ lineFeed :: more ∧ (∀ u ∈ gap, isBlank u = true) ∧
      w = gap.length + 1 := by
  rw [of_eq] at h
  split at h
  · cases h
  · rename_i u more hdrop
    split at h
    · rename_i hu
      cases h
      refine ⟨t.takeWhile isBlank, more, ?_, fun v hv => List.mem_takeWhile_imp hv, rfl⟩
      rw [← beq_iff_eq.1 hu, ← hdrop, List.takeWhile_append_dropWhile]
    · cases h

/-- Trailing blanks reach the end of the source. -/
theorem eq_length_of_trailing {t : Text} {w : Nat} (h : LineShape.of t = .trailing w) :
    w = t.length ∧ ∀ u ∈ t, isBlank u = true := by
  rw [of_eq] at h
  split at h
  · rename_i hdrop
    cases h
    have htake : t.takeWhile isBlank = t := by
      have := List.takeWhile_append_dropWhile (p := isBlank) (l := t)
      rwa [hdrop, List.append_nil] at this
    exact ⟨by rw [htake], fun u hu => List.mem_takeWhile_imp (htake.symm ▸ hu)⟩
  · split at h <;> cases h

/-- Blanks up to the end of the source are trailing ones. -/
theorem of_eq_trailing {t : Text} (h : ∀ u ∈ t, isBlank u = true) :
    LineShape.of t = .trailing t.length := by
  rw [of_eq, List.dropWhile_eq_nil_iff.2 h, List.takeWhile_eq_self_iff.2 h]

/-- A filled line is one with a unit on it that is no space. -/
theorem of_eq_filled_iff {t : Text} :
    LineShape.of t = .filled ↔ ∃ u ∈ t.takeWhile (· != lineFeed), isSpace u = false := by
  rw [of_eq]
  induction t with
  | nil => simp
  | cons v t ih =>
    by_cases hv : v = lineFeed
    · subst hv
      simp [isBlank]
    by_cases hspace : isSpace v = true
    · have hblank : isBlank v = true := by simp [isBlank, hspace, hv]
      have hne : (v != lineFeed) = true := by simpa using hv
      rw [List.dropWhile_cons_of_pos hblank, List.takeWhile_cons_of_pos hblank,
        List.takeWhile_cons_of_pos (p := (· != lineFeed)) hne]
      simp only [List.mem_cons, exists_eq_or_imp, hspace, Bool.true_eq_false, false_or]
      rw [← ih]
      cases t.dropWhile isBlank with
      | nil => simp
      | cons w _ => by_cases hw : w == lineFeed <;> simp [hw]
    · have hspace' : isSpace v = false := by simpa using hspace
      have hblank : ¬isBlank v = true := by simp [isBlank, hspace']
      rw [List.dropWhile_cons_of_neg hblank]
      simp [hv, hspace']

end LineShape

/-- Two runs diverge nowhere when one of them continues the other. -/
theorem Text.divergence?_eq_none_iff {a b : Text} :
    Text.divergence? a b = none ↔ a <+: b ∨ b <+: a := by
  fun_induction Text.divergence? a b with
  | case1 x xs y ys hxy ih =>
    rw [Option.map_eq_none_iff, ih, beq_iff_eq.1 hxy, List.prefix_cons_inj, List.prefix_cons_inj]
  | case2 x xs y ys hxy =>
    have hne : x ≠ y := by simpa using hxy
    simp [List.cons_prefix_cons, hne, hne.symm]
  | case3 a b h =>
    cases a with
    | nil => simp
    | cons x xs =>
      cases b with
      | nil => simp
      | cons y ys => exact absurd rfl (h x xs y ys rfl)

/-! ## Lexemes -/

namespace Cursor

/-- A read takes the next `n` units: the cursor is left behind them, and the token, if
there is one, is a lexeme made of exactly these units.  A fault is never one of
indentation. -/
structure Takes (c : Cursor) (r : Reading Token) (n : Nat) : Prop where
  le : n ≤ c.rest.length
  after : r.2 = c.skip n
  token : ∀ t, r.1 = .ok t → ∃ kind : TokenKind, kind.isLexeme = true ∧ t = c.cut kind n
  fault : ∀ f, r.1 = .error f → f.code ≠ .inconsistentIndentation

/-- A read that succeeds with the next `n` units as its token. -/
theorem takes_cut {c : Cursor} {kind : TokenKind} {n : Nat} (hkind : kind.isLexeme = true)
    (hn : n ≤ c.rest.length) : c.Takes (.ok (c.cut kind n), c.skip n) n := by
  refine ⟨hn, rfl, ?_, ?_⟩
  · intro t ht
    cases ht
    exact ⟨kind, hkind, rfl⟩
  · intro f hf
    cases hf

/-- A read that fails behind the next `n` units. -/
theorem takes_error {c : Cursor} {fault : Fault} {n : Nat} (hn : n ≤ c.rest.length)
    (hcode : fault.code ≠ .inconsistentIndentation) : c.Takes (.error fault, c.skip n) n := by
  refine ⟨hn, rfl, ?_, ?_⟩
  · intro t ht
    cases ht
  · intro f hf
    cases hf
    exact hcode

theorem length_run_le (c : Cursor) (p : CodeUnit → Bool) : (c.run p).length ≤ c.rest.length :=
  (List.takeWhile_sublist p).length_le

theorem takes_readRun (c : Cursor) {kind : TokenKind} (hkind : kind.isLexeme = true)
    (p : CodeUnit → Bool) : ∃ n, c.Takes (c.readRun kind p) n :=
  ⟨_, takes_cut hkind (length_run_le c p)⟩

theorem scanString_le (quote : CodeUnit) (t : Text) : (scanString quote t).1 ≤ t.length := by
  fun_induction scanString quote t with
  | case1 => exact Nat.le_refl _
  | case2 => exact Nat.le_refl _
  | case3 u v rest _ n ending hscan ih =>
    rw [hscan] at ih
    simp only [List.length_cons]
    omega
  | case4 | case5 =>
    simp only [List.length_cons]
    omega
  | case6 u rest _ _ _ n ending hscan ih =>
    rw [hscan] at ih
    simp only [List.length_cons]
    omega

theorem takes_readString (c : Cursor) : ∃ n, c.Takes c.readString n := by
  unfold readString
  split
  · exact ⟨0, takes_error (Nat.zero_le _) nofun⟩
  · rename_i quote rest hrest
    have hle : (scanString quote rest).1 + 1 ≤ c.rest.length := by
      rw [hrest, List.length_cons]
      exact Nat.succ_le_succ (scanString_le quote rest)
    refine ⟨(scanString quote rest).1 + 1, ?_⟩
    dsimp only
    split
    · exact takes_cut rfl hle
    · exact takes_error hle nofun
    · exact takes_error hle nofun

theorem takes_readNewline (c : Cursor) : ∃ n, c.Takes c.readNewline n := by
  unfold readNewline
  split
  · exact ⟨0, takes_error (Nat.zero_le _) nofun⟩
  · rename_i u rest hrest
    have hone : 1 ≤ c.rest.length := by simp [hrest]
    split
    · split
      · rename_i hfeed
        have htwo : 2 ≤ c.rest.length := by
          cases rest with
          | nil => simp at hfeed
          | cons v rest => simp [hrest]
        exact ⟨2, takes_cut rfl htwo⟩
      · exact ⟨1, takes_error hone nofun⟩
    · exact ⟨1, takes_cut rfl hone⟩

theorem length_headSymbol_le (t : Text) : (Text.headSymbol t).length ≤ t.length := by
  unfold Text.headSymbol
  split
  · exact Nat.le_refl _
  · exact Nat.le_refl _
  · split <;> simp

theorem takes_readSymbol (c : Cursor) : ∃ n, c.Takes c.readSymbol n := by
  unfold readSymbol
  split
  · exact ⟨0, takes_error (Nat.zero_le _) nofun⟩
  · split
    · exact ⟨0, takes_error (Nat.zero_le _) nofun⟩
    · exact ⟨_, takes_cut rfl (length_headSymbol_le c.rest)⟩

/-- Whatever unit it begins with, a lexeme is cut from the units that were read. -/
theorem takes_readLexeme (c : Cursor) (u : CodeUnit) : ∃ n, c.Takes (c.readLexeme u) n := by
  unfold readLexeme
  split
  · exact takes_readRun c rfl _
  split
  · exact takes_readRun c rfl _
  split
  · exact takes_readRun c rfl _
  split
  · exact takes_readString c
  split
  · exact takes_readNewline c
  · exact takes_readSymbol c

end Cursor

namespace Lexer

/-! ## Leading runs -/

/-- The run of spaces and tabs at the cursor. -/
def leading (lx : Lexer) : Text := lx.cursor.run isHorizontal

/-- The text behind the leading run. -/
def behind (lx : Lexer) : Text := lx.cursor.rest.drop lx.leading.length

theorem leading_append_behind (lx : Lexer) : lx.leading ++ lx.behind = lx.cursor.rest := by
  rw [behind, leading, Cursor.run, drop_length_takeWhile, List.takeWhile_append_dropWhile]

theorem isHorizontal_of_mem_leading {lx : Lexer} {u : CodeUnit} (h : u ∈ lx.leading) :
    isHorizontal u = true :=
  List.mem_takeWhile_imp h

theorem length_leading_le (lx : Lexer) : lx.leading.length ≤ lx.cursor.rest.length :=
  Cursor.length_run_le lx.cursor isHorizontal

/-- The run is as long as it can be. -/
theorem not_isHorizontal_behind {lx : Lexer} {u : CodeUnit} {more : Text}
    (h : lx.behind = u :: more) : isHorizontal u = false := by
  have hdrop : lx.cursor.rest.dropWhile isHorizontal = u :: more := by
    rw [← drop_length_takeWhile]
    exact h
  have hne : lx.cursor.rest.dropWhile isHorizontal ≠ [] := by simp [hdrop]
  have := List.head_dropWhile_not isHorizontal hne
  simpa [hdrop] using this

/-- A line with text in it has a unit behind its leading run. -/
theorem behind_ne_nil_of_filled {lx : Lexer} (h : LineShape.of lx.cursor.rest = .filled) :
    ∃ u more, lx.behind = u :: more := by
  cases hbehind : lx.behind with
  | cons u more => exact ⟨u, more, rfl⟩
  | nil =>
    obtain ⟨u, hu, hspace⟩ := LineShape.of_eq_filled_iff.1 h
    have hmem : u ∈ lx.cursor.rest := (List.takeWhile_sublist _).mem hu
    rw [← leading_append_behind, hbehind, List.append_nil] at hmem
    have hblank := isBlank_of_isHorizontal (isHorizontal_of_mem_leading hmem)
    rw [isBlank_eq_false_of_isSpace hspace] at hblank
    cases hblank

/-- An empty leading run shows in the first unit of the line. -/
theorem leading_eq_nil_iff {lx : Lexer} (h : lx.cursor.rest ≠ []) :
    lx.leading = [] ↔ (lx.cursor.rest.head?.any fun u => !isHorizontal u) = true := by
  unfold leading Cursor.run
  cases hrest : lx.cursor.rest with
  | nil => exact absurd hrest h
  | cons u rest => cases hu : isHorizontal u <;> simp [hu]

@[simp]
theorem skip_cursor (lx : Lexer) (n : Nat) : (lx.skip n).cursor = lx.cursor.skip n := rfl

@[simp]
theorem skip_blocks (lx : Lexer) (n : Nat) : (lx.skip n).blocks = lx.blocks := rfl

/-- There is no second run behind the leading one. -/
theorem leading_skip_leading (lx : Lexer) : (lx.skip lx.leading.length).leading = [] := by
  have hrest : (lx.skip lx.leading.length).cursor.rest = lx.behind := by
    rw [skip_cursor, Cursor.rest_skip, behind]
  rw [leading, Cursor.run, hrest]
  cases hbehind : lx.behind with
  | nil => rfl
  | cons u more =>
    exact List.takeWhile_cons_of_neg (by rw [not_isHorizontal_behind hbehind]; decide)

theorem behind_skip_leading (lx : Lexer) : (lx.skip lx.leading.length).behind = lx.behind := by
  rw [behind, leading_skip_leading, List.length_nil, List.drop_zero, skip_cursor,
    Cursor.rest_skip, behind]

/-! ## Equations of a step inside a line -/

/-- Spaces and tabs up to the end of the source lead to its end. -/
theorem readInLine_of_horizontal {lx : Lexer}
    (h : ∀ u ∈ lx.cursor.rest, isHorizontal u = true) :
    lx.readInLine =
      (.ok (lx.skip lx.cursor.rest.length).readEndOfInput.1,
        (lx.skip lx.cursor.rest.length).readEndOfInput.2) := by
  have hrun : lx.cursor.run isHorizontal = lx.cursor.rest := List.takeWhile_eq_self_iff.2 h
  simp only [readInLine, Cursor.skipWhile, hrun, Cursor.rest_skip, List.drop_length]
  rfl

/-- Behind the leading run the lexeme is read. -/
theorem readInLine_of_behind {lx : Lexer} {u : CodeUnit} {more : Text}
    (h : lx.behind = u :: more) :
    lx.readInLine = (lx.skip lx.leading.length).onCursor (·.readLexeme u) := by
  have hrest : (lx.cursor.skipWhile isHorizontal).rest = u :: more := by
    rw [Cursor.skipWhile, Cursor.rest_skip]
    exact h
  unfold readInLine
  simp only [hrest]
  rfl

theorem next_of_column_ne_zero {lx : Lexer} (h : lx.cursor.column ≠ 0) :
    lx.next = lx.readInLine := by
  simp [next, h]

theorem next_of_rest_nil {lx : Lexer} (h : lx.cursor.rest = []) : lx.next = lx.readInLine := by
  simp [next, Cursor.atEnd, h]

/-- At the end of the source there is a marker, and the cursor stays. -/
theorem readEndOfInput_eq_mark (lx : Lexer) :
    ∃ (kind : TokenKind) (value : Text), lx.readEndOfInput.1 = lx.cursor.mark kind value ∧
      lx.readEndOfInput.2.cursor = lx.cursor ∧ (kind ≠ .dedent → value = []) := by
  unfold readEndOfInput
  split
  · exact ⟨.endOfStream, [], rfl, rfl, fun _ => rfl⟩
  · exact ⟨.dedent, _, rfl, rfl, fun h => absurd rfl h⟩

theorem kind_readEndOfInput (lx : Lexer) :
    lx.readEndOfInput.1.kind = .dedent ∨ lx.readEndOfInput.1.kind = .endOfStream := by
  unfold readEndOfInput
  split
  · exact .inr rfl
  · exact .inl rfl

/-! ## Equations of a step at the start of a line -/

/-- How a step goes on from the start of a line: its token is the outcome, and without
one the line is read. -/
def afterLineStart : Step (Option Token) → Step Token
  | (.ok none, inner) => inner.readInLine
  | (.ok (some token), after) => (.ok token, after)
  | (.error fault, after) => (.error fault, after)

/-- A filled line is not empty. -/
theorem rest_ne_nil_of_filled {lx : Lexer} (h : LineShape.of lx.cursor.rest = .filled) :
    lx.cursor.rest ≠ [] := by
  intro hnil
  simp [hnil, LineShape.of_eq] at h

/-- The comparison of a leading run, in terms of the run and of what follows it. -/
theorem readIndentation_eq (lx : Lexer) :
    lx.readIndentation =
      if lx.behind.head? == some hash then (.ok none, lx)
      else
        match Text.divergence? lx.leading lx.indent with
        | some i =>
          (.error (.inconsistentIndentation
            ⟨lx.cursor.location, lx.cursor.locationAhead lx.leading.length⟩
            (lx.cursor.locationAhead i) lx.indent lx.leading), lx)
        | none =>
          if lx.leading.length < lx.indent.length then (.ok (some lx.dedent.1), lx.dedent.2)
          else if lx.indent.length < lx.leading.length then
            (.ok (some (lx.cursor.cut .indent lx.leading.length)),
              (lx.skip lx.leading.length).openBlock lx.leading)
          else (.ok none, lx.skip lx.leading.length) := rfl

section LineStart

variable {lx : Lexer} (hcolumn : lx.cursor.column = 0)
include hcolumn

theorem next_of_line_start (h : lx.cursor.rest ≠ []) :
    lx.next = afterLineStart lx.readLineStart := by
  simp only [next, Cursor.atEnd, hcolumn, beq_self_eq_true, Bool.true_and, Bool.not_eq_true',
    List.isEmpty_eq_false_iff.2 h, if_true]
  rfl

theorem next_of_blank {w : Nat} (h : LineShape.of lx.cursor.rest = .blank w) :
    lx.next = (.ok (lx.cursor.cut .newline w), lx.skip w) := by
  have hne : lx.cursor.rest ≠ [] := by
    intro hnil
    simp [hnil, LineShape.of_eq] at h
  rw [next_of_line_start hcolumn hne, readLineStart, h]
  rfl

theorem next_of_trailing {w : Nat} (hne : lx.cursor.rest ≠ [])
    (h : LineShape.of lx.cursor.rest = .trailing w) :
    lx.next =
      (.ok (lx.skip lx.cursor.rest.length).readEndOfInput.1,
        (lx.skip lx.cursor.rest.length).readEndOfInput.2) := by
  rw [next_of_line_start hcolumn hne, readLineStart, h, (LineShape.eq_length_of_trailing h).1]
  have hend : (lx.skip lx.cursor.rest.length).cursor.rest = [] := by simp
  have hread : (lx.skip lx.cursor.rest.length).readInLine = _ :=
    readInLine_of_horizontal (by simp)
  rw [hend] at hread
  exact hread

variable (hfilled : LineShape.of lx.cursor.rest = .filled)
include hfilled

/-- A filled line closes a block at once if it has no leading run. -/
theorem next_of_close_at_once (hrun : lx.leading = []) (hblocks : lx.blocks ≠ []) :
    lx.next = (.ok lx.dedent.1, lx.dedent.2) := by
  have hne := rest_ne_nil_of_filled hfilled
  have hclose := (leading_eq_nil_iff hne).1 hrun
  rw [next_of_line_start hcolumn hne, readLineStart, hfilled]
  simp [readFilledLine, hclose, hblocks, afterLineStart]

/-- Otherwise its leading run is compared with the innermost block. -/
theorem next_of_compare (hrun : lx.leading = [] → lx.blocks = []) :
    lx.next = afterLineStart lx.readIndentation := by
  have hne := rest_ne_nil_of_filled hfilled
  have hclose : ¬((lx.cursor.rest.head?.any fun u => !isHorizontal u) &&
      !lx.blocks.isEmpty) = true := by
    rw [Bool.and_eq_true, ← leading_eq_nil_iff hne]
    rintro ⟨hnil, hb⟩
    simp [hrun hnil] at hb
  rw [next_of_line_start hcolumn hne, readLineStart, hfilled]
  simp only [readFilledLine, hclose, if_false, Bool.false_eq_true]

/-- A leading run that disagrees with the innermost block is a fault, and nothing moves. -/
theorem next_of_diverge {i : Nat} (hhash : lx.behind.head? ≠ some hash)
    (h : Text.divergence? lx.leading lx.indent = some i) :
    lx.next =
      (.error (.inconsistentIndentation
        ⟨lx.cursor.location, lx.cursor.locationAhead lx.leading.length⟩
        (lx.cursor.locationAhead i) lx.indent lx.leading), lx) := by
  have hrun : lx.leading = [] → lx.blocks = [] := by
    intro hnil
    simp [hnil, Text.divergence?] at h
  rw [next_of_compare hcolumn hfilled hrun, readIndentation_eq, if_neg (by simpa using hhash), h]
  rfl

/-- A leading run that the innermost block continues closes the block. -/
theorem next_of_close (hblocks : lx.blocks ≠ [])
    (hhash : lx.leading = [] ∨ lx.behind.head? ≠ some hash) (hrun : lx.leading <+: lx.indent)
    (hlt : lx.leading = [] ∨ lx.leading.length < lx.indent.length) :
    lx.next = (.ok lx.dedent.1, lx.dedent.2) := by
  by_cases hnil : lx.leading = []
  · exact next_of_close_at_once hcolumn hfilled hnil hblocks
  · rw [next_of_compare hcolumn hfilled (fun h => absurd h hnil), readIndentation_eq,
      if_neg (by simpa using hhash.resolve_left hnil),
      Text.divergence?_eq_none_iff.2 (Or.inl hrun)]
    simp only [hlt.resolve_left hnil, if_true]
    rfl

/-- A leading run that continues the innermost block opens one. -/
theorem next_of_open (hhash : lx.behind.head? ≠ some hash) (hrun : lx.indent <+: lx.leading)
    (hlt : lx.indent.length < lx.leading.length) :
    lx.next =
      (.ok (lx.cursor.cut .indent lx.leading.length),
        (lx.skip lx.leading.length).openBlock lx.leading) := by
  have hne : lx.leading = [] → lx.blocks = [] := by
    intro hnil
    simp [hnil] at hlt
  rw [next_of_compare hcolumn hfilled hne, readIndentation_eq, if_neg (by simpa using hhash),
    Text.divergence?_eq_none_iff.2 (Or.inr hrun)]
  simp only [Nat.lt_asymm hlt, hlt, if_false, if_true]
  rfl

/-- A comment behind a run, or a run equal to the innermost block, is no structure: the
line is read behind the run. -/
theorem next_of_stay {u : CodeUnit} {more : Text} (hbehind : lx.behind = u :: more)
    (hrun : lx.leading = [] → lx.blocks = []) (h : u = hash ∨ lx.leading = lx.indent) :
    lx.next = (lx.skip lx.leading.length).onCursor (·.readLexeme u) := by
  rw [next_of_compare hcolumn hfilled hrun, readIndentation_eq, hbehind]
  by_cases hu : u = hash
  · simp only [hu, List.head?_cons, beq_self_eq_true, if_true, afterLineStart]
    exact readInLine_of_behind (hu ▸ hbehind)
  · have heq := h.resolve_left hu
    have hdiv : Text.divergence? lx.leading lx.indent = none :=
      Text.divergence?_eq_none_iff.2 (Or.inl (heq ▸ List.prefix_rfl))
    have hread := readInLine_of_behind ((behind_skip_leading lx).trans hbehind)
    rw [leading_skip_leading] at hread
    rw [if_neg (by simpa using hu), hdiv]
    simp only [heq, Nat.lt_irrefl, if_false]
    rw [← heq]
    exact hread

end LineStart

/-! ## All the ways in which a step can go -/

/-- The outcomes of a step and the states that it leaves behind. -/
inductive Outcome (lx : Lexer) : Except Fault Token → Lexer → Prop
  /-- A blank line is one token. -/
  | blank {w : Nat} (hcolumn : lx.cursor.column = 0)
      (hshape : LineShape.of lx.cursor.rest = .blank w) :
      Outcome lx (.ok (lx.cursor.cut .newline w)) (lx.skip w)
  /-- A shorter run closes the innermost block, and the cursor stays. -/
  | closing (hcolumn : lx.cursor.column = 0) (hshape : LineShape.of lx.cursor.rest = .filled)
      (hblocks : lx.blocks ≠ []) (hhash : lx.leading = [] ∨ lx.behind.head? ≠ some hash)
      (hrun : lx.leading <+: lx.indent)
      (hlt : lx.leading = [] ∨ lx.leading.length < lx.indent.length) :
      Outcome lx (.ok lx.dedent.1) lx.dedent.2
  /-- A longer run opens a block. -/
  | opening (hcolumn : lx.cursor.column = 0) (hshape : LineShape.of lx.cursor.rest = .filled)
      (hhash : lx.behind.head? ≠ some hash) (hrun : lx.indent <+: lx.leading)
      (hlt : lx.indent.length < lx.leading.length) :
      Outcome lx (.ok (lx.cursor.cut .indent lx.leading.length))
        ((lx.skip lx.leading.length).openBlock lx.leading)
  /-- A run that disagrees with the innermost block is a fault, and nothing moves. -/
  | divergence {i : Nat} (hcolumn : lx.cursor.column = 0)
      (hshape : LineShape.of lx.cursor.rest = .filled) (hhash : lx.behind.head? ≠ some hash)
      (hdiv : Text.divergence? lx.leading lx.indent = some i) :
      Outcome lx
        (.error (.inconsistentIndentation
          ⟨lx.cursor.location, lx.cursor.locationAhead lx.leading.length⟩
          (lx.cursor.locationAhead i) lx.indent lx.leading)) lx
  /-- Nothing but whitespace is left: spaces and tabs, or, on a line of its own, any. -/
  | ending
      (hgap : (∀ u ∈ lx.cursor.rest, isHorizontal u = true) ∨
        lx.cursor.column = 0 ∧ ∀ u ∈ lx.cursor.rest, isBlank u = true) :
      Outcome lx (.ok (lx.skip lx.cursor.rest.length).readEndOfInput.1)
        (lx.skip lx.cursor.rest.length).readEndOfInput.2
  /-- The lexeme behind the leading run is read.  At the start of a line the run has no
  structure: a comment follows it, or it is equal to the innermost block. -/
  | lexeme {u : CodeUnit} {more : Text} (hbehind : lx.behind = u :: more)
      (hstay : lx.cursor.column = 0 → LineShape.of lx.cursor.rest = .filled ∧
        (lx.leading = [] → lx.blocks = []) ∧ (u = hash ∨ lx.leading = lx.indent)) :
      Outcome lx ((lx.cursor.skip lx.leading.length).readLexeme u).1
        { lx with cursor := ((lx.cursor.skip lx.leading.length).readLexeme u).2 }

/-- What is passed over before the end of the source is blank. -/
theorem isBlank_of_gap {lx : Lexer}
    (hgap : (∀ u ∈ lx.cursor.rest, isHorizontal u = true) ∨
      lx.cursor.column = 0 ∧ ∀ u ∈ lx.cursor.rest, isBlank u = true) :
    ∀ u ∈ lx.cursor.rest, isBlank u = true := by
  intro u hu
  rcases hgap with hgap | ⟨-, hgap⟩
  · exact isBlank_of_isHorizontal (hgap u hu)
  · exact hgap u hu

/-- Inside a line a lexeme is read, or the end of the source. -/
theorem readInLine_outcome {lx : Lexer} (h : lx.cursor.column ≠ 0 ∨ lx.cursor.rest = []) :
    Outcome lx lx.readInLine.1 lx.readInLine.2 := by
  cases hbehind : lx.behind with
  | nil =>
    have hall : ∀ u ∈ lx.cursor.rest, isHorizontal u = true := by
      rw [← leading_append_behind, hbehind, List.append_nil]
      exact fun u hu => isHorizontal_of_mem_leading hu
    rw [readInLine_of_horizontal hall]
    exact .ending (Or.inl hall)
  | cons u more =>
    rw [readInLine_of_behind hbehind]
    refine .lexeme hbehind fun hzero => ?_
    have hnil := h.resolve_left (fun hne => hne hzero)
    rw [← leading_append_behind, hbehind] at hnil
    simp at hnil

/-- At the start of a filled line the leading run decides. -/
theorem next_outcome_of_filled {lx : Lexer} (hcolumn : lx.cursor.column = 0)
    (hshape : LineShape.of lx.cursor.rest = .filled) : Outcome lx lx.next.1 lx.next.2 := by
  obtain ⟨u, more, hbehind⟩ := behind_ne_nil_of_filled hshape
  by_cases hclose : lx.leading = [] ∧ lx.blocks ≠ []
  · rw [next_of_close_at_once hcolumn hshape hclose.1 hclose.2]
    exact .closing hcolumn hshape hclose.2 (Or.inl hclose.1)
      (hclose.1 ▸ List.nil_prefix) (Or.inl hclose.1)
  have hrun : lx.leading = [] → lx.blocks = [] := by
    intro hnil
    by_contra hne
    exact hclose ⟨hnil, hne⟩
  by_cases hu : u = hash
  · rw [next_of_stay hcolumn hshape hbehind hrun (Or.inl hu)]
    exact .lexeme hbehind fun _ => ⟨hshape, hrun, Or.inl hu⟩
  have hhash : lx.behind.head? ≠ some hash := by simpa [hbehind] using hu
  cases hdiv : Text.divergence? lx.leading lx.indent with
  | some i =>
    rw [next_of_diverge hcolumn hshape hhash hdiv]
    exact .divergence hcolumn hshape hhash hdiv
  | none =>
    have hone := Text.divergence?_eq_none_iff.1 hdiv
    rcases Nat.lt_trichotomy lx.leading.length lx.indent.length with hlt | hlen | hgt
    · have hpre : lx.leading <+: lx.indent :=
        hone.resolve_right fun h => absurd h.length_le (by omega)
      have hblocks := blocks_ne_nil_of_lt_indent hlt
      rw [next_of_close hcolumn hshape hblocks (Or.inr hhash) hpre (Or.inr hlt)]
      exact .closing hcolumn hshape hblocks (Or.inr hhash) hpre (Or.inr hlt)
    · have heq : lx.leading = lx.indent := by
        rcases hone with h | h
        · exact h.eq_of_length hlen
        · exact (h.eq_of_length hlen.symm).symm
      rw [next_of_stay hcolumn hshape hbehind hrun (Or.inr heq)]
      exact .lexeme hbehind fun _ => ⟨hshape, hrun, Or.inr heq⟩
    · have hpre : lx.indent <+: lx.leading :=
        hone.resolve_left fun h => absurd h.length_le (by omega)
      rw [next_of_open hcolumn hshape hhash hpre hgt]
      exact .opening hcolumn hshape hhash hpre hgt

/-- A step goes in one of the ways of `Outcome`. -/
theorem next_outcome (lx : Lexer) : Outcome lx lx.next.1 lx.next.2 := by
  by_cases hline : lx.cursor.column = 0 ∧ lx.cursor.rest ≠ []
  · obtain ⟨hcolumn, hne⟩ := hline
    cases hshape : LineShape.of lx.cursor.rest with
    | blank w =>
      rw [next_of_blank hcolumn hshape]
      exact .blank hcolumn hshape
    | trailing w =>
      rw [next_of_trailing hcolumn hne hshape]
      exact .ending (Or.inr ⟨hcolumn, (LineShape.eq_length_of_trailing hshape).2⟩)
    | filled => exact next_outcome_of_filled hcolumn hshape
  · have hin : lx.cursor.column ≠ 0 ∨ lx.cursor.rest = [] := by
      by_contra hboth
      rw [not_or] at hboth
      exact hline ⟨by_contra hboth.1, hboth.2⟩
    have heq : lx.next = lx.readInLine := by
      rcases hin with h | h
      · exact next_of_column_ne_zero h
      · exact next_of_rest_nil h
    rw [heq]
    exact readInLine_outcome hin

/-- A state has one outcome only: each of the ways excludes the others. -/
theorem next_of_outcome {lx after : Lexer} {r : Except Fault Token} (h : Outcome lx r after) :
    lx.next = (r, after) := by
  cases h with
  | blank hcolumn hshape => exact next_of_blank hcolumn hshape
  | closing hcolumn hshape hblocks hhash hrun hlt =>
    exact next_of_close hcolumn hshape hblocks hhash hrun hlt
  | opening hcolumn hshape hhash hrun hlt => exact next_of_open hcolumn hshape hhash hrun hlt
  | divergence hcolumn hshape hhash hdiv => exact next_of_diverge hcolumn hshape hhash hdiv
  | ending hgap =>
    by_cases hline : lx.cursor.column = 0 ∧ lx.cursor.rest ≠ []
    · exact next_of_trailing hline.1 hline.2 (LineShape.of_eq_trailing (isBlank_of_gap hgap))
    · -- Inside a line only spaces and tabs can be left.
      by_cases hrest : lx.cursor.rest = []
      · rw [next_of_rest_nil hrest]
        exact readInLine_of_horizontal (by simp [hrest])
      · have hcolumn : lx.cursor.column ≠ 0 := fun hzero => hline ⟨hzero, hrest⟩
        rw [next_of_column_ne_zero hcolumn]
        exact readInLine_of_horizontal (hgap.resolve_right fun hzero => hcolumn hzero.1)
  | @lexeme u more hbehind hstay =>
    by_cases hcolumn : lx.cursor.column = 0
    · obtain ⟨hshape, hrun, hequal⟩ := hstay hcolumn
      rw [next_of_stay hcolumn hshape hbehind hrun hequal]
      rfl
    · rw [next_of_column_ne_zero hcolumn, readInLine_of_behind hbehind]
      rfl

theorem outcome_of_next {lx after : Lexer} {r : Except Fault Token} (h : lx.next = (r, after)) :
    Outcome lx r after := by
  have hout := next_outcome lx
  rw [h] at hout
  exact hout

end Lexer

end SceneTokens
