import Mathlib.Data.List.Basic
import SceneTokens.Proofs.Diagnosis

/-!
# Reading behind a fault

A stream may be read again after a read that has failed.  What comes of it depends on how much
the failed read has taken.

* A string that is not closed and a bare carriage return have been read when they are reported.
  The cursor is behind what is wrong, and the blocks are the same: reading goes on there.
* A leading run that disagrees with its block and whitespace that separates no tokens have not.
  The spaces and tabs in front of the whitespace are passed over once; from then on every read
  fails in the same way and nothing moves.

`Cursor.Cause.moved_or_whitespace` tells the two apart at the text of a line, and
`Lexer.cases_of_next_error` for a whole step.  A fault that is raised again at once is raised
for ever, `Stream.reads_of_next`.

Main statement: `Stream.moves_on_or_stays`.
-/

namespace SceneTokens

open CodeUnit

/-- All causes but one take some text. -/
theorem Cursor.Cause.moved_or_whitespace {c : Cursor} {fault : Fault} {n : Nat}
    (h : c.Cause fault n) (hne : c.rest ≠ []) :
    0 < n ∧ fault.code ∈ [.unterminatedString, .unexpectedEnd, .bareCarriageReturn] ∨
      n = 0 ∧ fault.code = .unsupportedWhitespace := by
  cases h with
  | ended h => exact absurd h hne
  | lineBreak => exact .inl ⟨by omega, by simp [Fault.code]⟩
  | exhausted => exact .inl ⟨List.length_pos_iff.2 hne, by simp [Fault.code]⟩
  | bareReturn => exact .inl ⟨by omega, by simp [Fault.code]⟩
  | whitespace => exact .inr ⟨rfl, rfl⟩

namespace Lexer

variable {lx after : Lexer} {fault : Fault}

/-- A failed step stays where it is, or passes over the leading run and stays there, or takes
more than that. -/
theorem cases_of_next_error (h : lx.next = (.error fault, after)) :
    fault.code = .inconsistentIndentation ∧ after = lx ∨
      (fault.code = .unsupportedWhitespace ∧ after = lx.skip lx.leading.length ∧
        ∃ u more, lx.behind = u :: more ∧
          after.onCursor (·.readLexeme u) = (.error fault, after)) ∨
      (fault.code ∈ [.unterminatedString, .unexpectedEnd, .bareCarriageReturn] ∧
        ∃ n, 0 < n ∧ n ≤ lx.cursor.rest.length ∧ after = lx.skip n) := by
  have hout := outcome_of_next h
  generalize hr : (Except.error fault : Except Fault Token) = r at hout
  cases hout with
  | blank | closing | opening | ending => cases hr
  | divergence =>
    cases hr
    exact .inl ⟨rfl, rfl⟩
  | @lexeme u more hbehind =>
    have hrest : (lx.cursor.skip lx.leading.length).rest = u :: more := by
      rw [Cursor.rest_skip]
      exact hbehind
    have hne : (lx.cursor.skip lx.leading.length).rest ≠ [] := by
      rw [hrest]
      exact List.cons_ne_nil u more
    obtain ⟨c, hread⟩ : ∃ c, (lx.cursor.skip lx.leading.length).readLexeme u = (.error fault, c) :=
      ⟨_, Prod.ext hr.symm rfl⟩
    obtain ⟨n, hcause, rfl, -⟩ := Cursor.cause_readLexeme hrest hread
    rw [hread]
    rcases hcause.moved_or_whitespace hne with ⟨hpos, hcode⟩ | ⟨rfl, hcode⟩
    · refine .inr (.inr ⟨hcode, lx.leading.length + n, by omega, ?_, ?_⟩)
      · have hle := hcause.le
        have hrun := lx.length_leading_le
        rw [Cursor.rest_skip, List.length_drop] at hle
        omega
      · rw [← Cursor.skip_add]
        rfl
    · refine .inr (.inl ⟨hcode, rfl, u, more, hbehind, ?_⟩)
      rw [Cursor.skip_zero] at hread ⊢
      simp only [onCursor, hread]

/-- Behind the leading run a lexeme is read as it is from in front of the run. -/
theorem next_skip_leading {u : CodeUnit} {more : Text} (hbehind : lx.behind = u :: more)
    (hrun : lx.leading ≠ []) :
    (lx.skip lx.leading.length).next =
      (lx.skip lx.leading.length).onCursor (·.readLexeme u) := by
  have hpos := List.length_pos_iff.2 hrun
  have hcolumn := (Cursor.line_column_skip_of_notMem lx.length_leading_le
    (lx.lineFeed_notMem_take_leading (Nat.le_refl _))).2
  have hread := readInLine_of_behind ((behind_skip_leading lx).trans hbehind)
  rw [leading_skip_leading] at hread
  rw [next_of_column_ne_zero (by rw [skip_cursor]; omega), hread]
  rfl

/-- What has been read is left behind. -/
theorem offset_lt_of_next_error (h : lx.next = (.error fault, after))
    (hcode : fault.code ∈ [.unterminatedString, .unexpectedEnd, .bareCarriageReturn]) :
    lx.cursor.offset < after.cursor.offset ∧ after.blocks = lx.blocks := by
  rcases cases_of_next_error h with ⟨hother, -⟩ | ⟨hother, -⟩ | ⟨-, n, hpos, hn, rfl⟩
  · simp [hother] at hcode
  · simp [hother] at hcode
  · rw [skip_cursor, Cursor.offset_skip hn]
    exact ⟨by omega, rfl⟩

/-- What has not been read is met again at once, and nothing moves any more. -/
theorem next_again_of_next_error (h : lx.next = (.error fault, after))
    (hcode : fault.code ∈ [.inconsistentIndentation, .unsupportedWhitespace]) :
    after.next = (.error fault, after) := by
  rcases cases_of_next_error h with ⟨-, rfl⟩ | ⟨-, rfl, u, more, hbehind, hread⟩ | ⟨hother, -⟩
  · exact h
  · by_cases hrun : lx.leading = []
    · rw [hrun] at h ⊢
      exact h
    · rw [next_skip_leading hbehind hrun]
      exact hread
  · generalize fault.code = code at hcode hother
    cases code <;> simp at hcode hother

theorem eq_of_next_error (h : lx.next = (.error fault, after))
    (hcode : fault.code = .inconsistentIndentation) : after = lx := by
  rcases cases_of_next_error h with ⟨-, hafter⟩ | ⟨hother, -⟩ | ⟨hother, -⟩
  · exact hafter
  · rw [hcode] at hother
    cases hother
  · simp [hcode] at hother

end Lexer

/-- A report is of one of two kinds, as the fault is. -/
theorem Report.kind_ofFault (f : Fault) :
    (Report.ofFault f).kind = if f.isLexical then .lexer else .contract := by
  cases f <;> rfl

namespace Stream

/-- The stream behind a number of reads, whatever comes of them. -/
def reads (s : Stream) : Nat → Stream
  | 0 => s
  | k + 1 => s.next.2.reads k

/-- A stream that a read leaves as it is stays so. -/
theorem reads_of_next {s : Stream} {r : Except Fault Token} (h : s.next = (r, s)) (k : Nat) :
    s.reads k = s := by
  induction k with
  | zero => rfl
  | succ k ih => rw [reads, h, ih]

/-- A read of a stream is a step of its lexer. -/
theorem lexer_of_next {s after : Stream} {r : Except Fault Token} (h : s.next = (r, after)) :
    s.lexer.next = (r, after.lexer) ∧ after = { s with lexer := after.lexer } := by
  rw [next_eq] at h
  cases h
  exact ⟨rfl, rfl⟩

theorem tryNext_of_ok {s after : Stream} {t : Token} (h : s.next = (.ok t, after)) :
    s.tryNext = (.ok (.ok t), after) := by
  rw [tryNext, h]

/-- A fault is an answer if its report is a lexer report, and otherwise a failure. -/
theorem tryNext_of_error {s after : Stream} {fault : Fault} (h : s.next = (.error fault, after)) :
    (Report.ofFault fault).kind = .lexer ∧ s.tryNext = (.ok (.error fault), after) ∨
      (Report.ofFault fault).kind = .contract ∧ s.tryNext = (.error fault, after) := by
  have hkind := Report.kind_ofFault fault
  rw [tryNext, h]
  dsimp only
  split
  · rename_i hlexical
    rw [if_pos hlexical] at hkind
    exact .inl ⟨hkind, rfl⟩
  · rename_i hlexical
    rw [if_neg hlexical] at hkind
    exact .inr ⟨hkind, rfl⟩

end Stream

theorem ErrorCode.id_injective : Function.Injective ErrorCode.id := by
  intro a b h
  have hfind : ∀ code : ErrorCode, ErrorCode.ofId? code.id = some code := by
    intro code
    cases code <;> decide +kernel
  have hsome := hfind a
  rw [h, hfind b] at hsome
  exact (Option.some.inj hsome).symm

/-- After a fault a stream either moves on or stays where it is for good.

* Behind an unterminated or unfinished string and behind a bare carriage return the cursor is
  further along, and the same blocks are open.
* Inconsistent indentation and unsupported whitespace are reported again by every later read,
  and nothing changes any more; the former leaves even the first stream as it was.
* There are no other faults.

Reading by `tryNext` takes the stream to the same place.  A fault with a lexer report is an
answer, and only one with a contract report is a failure. -/
theorem Stream.moves_on_or_stays (s : Stream) :
    (∀ fault after, s.next = (.error fault, after) →
      fault.code.id ∈ (["SCN-L001", "SCN-L003", "SCN-C001", "SCN-L002", "SCN-C002"] : List Text) ∧
      (fault.code.id ∈ (["SCN-L001", "SCN-L003", "SCN-C001"] : List Text) →
        s.lexer.cursor.offset < after.lexer.cursor.offset ∧
          after.lexer.indents = s.lexer.indents) ∧
      (fault.code.id ∈ (["SCN-L002", "SCN-C002"] : List Text) →
        ∀ k, after.reads k = after ∧ (after.reads k).next = (.error fault, after)) ∧
      (fault.code.id = "SCN-L002" → after = s)) ∧
    s.tryNext.2 = s.next.2 ∧
    (∀ t after, s.next = (.ok t, after) → s.tryNext = (.ok (.ok t), after)) ∧
    (∀ fault after, s.next = (.error fault, after) →
      (Report.ofFault fault).kind = .lexer ∧ s.tryNext = (.ok (.error fault), after) ∨
      (Report.ofFault fault).kind = .contract ∧ s.tryNext = (.error fault, after)) := by
  refine ⟨?_, s.snd_tryNext, fun _ _ h => tryNext_of_ok h, fun _ _ h => tryNext_of_error h⟩
  intro fault after h
  obtain ⟨hstep, hafter⟩ := lexer_of_next h
  refine ⟨?_, ?_, ?_, ?_⟩
  · have hcode : fault.code ∈ [.unterminatedString, .unexpectedEnd, .bareCarriageReturn,
        .inconsistentIndentation, .unsupportedWhitespace] := by
      rcases Lexer.cases_of_next_error hstep with ⟨hcode, -⟩ | ⟨hcode, -⟩ | ⟨hcode, -⟩
      · simp [hcode]
      · simp [hcode]
      · exact List.mem_append_left _ hcode
    exact List.mem_map_of_mem hcode
  · intro hcode
    obtain ⟨hoffset, hblocks⟩ := Lexer.offset_lt_of_next_error hstep
      ((List.mem_map_of_injective ErrorCode.id_injective).1 hcode)
    rw [Lexer.indents, hblocks]
    exact ⟨hoffset, rfl⟩
  · intro hcode k
    have hagain := next_of_lexer (Lexer.next_again_of_next_error hstep
      ((List.mem_map_of_injective ErrorCode.id_injective).1 hcode))
    rw [reads_of_next hagain]
    exact ⟨rfl, hagain⟩
  · intro hcode
    rw [hafter, Lexer.eq_of_next_error hstep (ErrorCode.id_injective hcode)]

/-- A no-break space behind a name and a space: the space is passed over once, and the no-break
space is never passed. -/
theorem Stream.moves_on_or_stays_noBreakSpace :
    let s := (Stream.ofSource 0 [0x61, 0x20, 0xA0, 0x62]).next.2
    let fault : Fault := .unsupportedWhitespace ⟨1, 2, 2⟩ [0xA0]
    let after := s.next.2
    s.next = (.error fault, after) ∧ fault.code.id = "SCN-C002" ∧ after ≠ s ∧
      (∀ k, after.reads k = after ∧ (after.reads k).next = (.error fault, after)) ∧
      s.tryNext = (.error fault, after) := by
  intro s fault after
  have hfault : s.next.1 = .error fault := by decide +kernel
  have hnext : s.next = (.error fault, after) := Prod.ext hfault rfl
  have hmoved : after ≠ s := by decide +kernel
  clear_value s
  obtain ⟨hstays, -, -, htry⟩ := s.moves_on_or_stays
  obtain ⟨-, -, hagain, -⟩ := hstays fault after hnext
  refine ⟨hnext, rfl, hmoved, hagain (by decide +kernel), ?_⟩
  rcases htry fault after hnext with ⟨hkind, -⟩ | ⟨-, htry⟩
  · cases hkind
  · exact htry

end SceneTokens
