import SceneTokens.Proofs.Snapshots
import SceneTokens.Proofs.Step

/-!
# Looking ahead

A look ahead by `k` is the same as reading on by `k + 1` tokens, and leaves no trace:
`Stream.peek_transparent`.  Both directions are stated against consecutive calls of
`Stream.next` (`Calls`), for the token and for the first fault.

Reading itself looks ahead too, over a line that may turn out to be blank.  Here that
look ahead is the function `LineShape.of`; `Stream.nextInScope` does it by moving the
stream unit by unit in a scope of its own, which is committed at a line feed and at the
end of the source and taken back at any other unit.  `nextInScope_eq` shows that the
two ways of reading agree on every stream, whatever snapshots are open on it.
-/

namespace SceneTokens

open CodeUnit

/-- Consecutive steps that all succeed: their answers in order, and the state behind the
last of them. -/
inductive Calls {σ α : Type} (step : σ → Except Fault α × σ) : σ → List α → σ → Prop
  | nil (s : σ) : Calls step s [] s
  | cons {s mid after : σ} {a : α} {rest : List α} (hstep : step s = (.ok a, mid))
      (hrest : Calls step mid rest after) : Calls step s (a :: rest) after

/-- One more step behind consecutive ones. -/
theorem Calls.snoc {σ α : Type} {step : σ → Except Fault α × σ} {s mid after : σ} {a : α}
    {answers : List α} (h : Calls step s answers mid) (hstep : step mid = (.ok a, after)) :
    Calls step s (answers ++ [a]) after := by
  induction h with
  | nil s => exact .cons hstep (.nil after)
  | cons hfirst _ ih => exact .cons hfirst (ih hstep)

/-- Consecutive steps in two parts. -/
theorem Calls.split {σ α : Type} {step : σ → Except Fault α × σ} {s after : σ}
    {first rest : List α} (h : Calls step s (first ++ rest) after) :
    ∃ mid, Calls step s first mid ∧ Calls step mid rest after := by
  induction first generalizing s with
  | nil => exact ⟨s, .nil s, h⟩
  | cons a first ih =>
    cases h with
    | cons hstep hrest =>
      obtain ⟨mid, hfirst, hmore⟩ := ih hrest
      exact ⟨mid, .cons hstep hfirst, hmore⟩

namespace Stream

/-! ## Reading on -/

theorem next_eq (s : Stream) : s.next = (s.lexer.next.1, { s with lexer := s.lexer.next.2 }) :=
  rfl

theorem next_of_lexer {s : Stream} {r : Except Fault Token} {after : Lexer}
    (h : s.lexer.next = (r, after)) : s.next = (r, { s with lexer := after }) := by
  rw [next_eq, h]

/-- The step that `nextAfter` takes for every token before the last. -/
theorem nextAfter_succ_of_ok {s mid : Stream} {t : Token} (k : Nat) (h : s.next = (.ok t, mid)) :
    s.nextAfter (k + 1) = mid.nextAfter k := by
  rw [nextAfter, h]

theorem nextAfter_of_error {s mid : Stream} {fault : Fault} (k : Nat)
    (h : s.next = (.error fault, mid)) : s.nextAfter k = (.error fault, mid) := by
  cases k with
  | zero => exact h
  | succ k => rw [nextAfter, h]

/-- Reading on depends on the lexer alone and changes the lexer alone. -/
theorem nextAfter_eq_with (s : Stream) (k taken : Nat) (snapshots : List Snapshot) :
    ({ s with snapshots := snapshots, taken := taken } : Stream).nextAfter k =
      ((s.nextAfter k).1,
        { s with lexer := (s.nextAfter k).2.lexer, snapshots := snapshots, taken := taken }) := by
  induction k generalizing s with
  | zero => rfl
  | succ k ih =>
    rcases hlexer : s.lexer.next with ⟨outcome, after⟩
    have hnext : ∀ (snapshots : List Snapshot) (taken : Nat),
        ({ s with snapshots := snapshots, taken := taken } : Stream).next =
          (outcome, { s with lexer := after, snapshots := snapshots, taken := taken }) := by
      intro snapshots taken
      rw [next_eq]
      simp only [hlexer]
    cases outcome with
    | error fault =>
      rw [nextAfter_of_error _ (hnext snapshots taken),
        nextAfter_of_error _ (hnext s.snapshots s.taken)]
    | ok t =>
      rw [nextAfter_succ_of_ok k (hnext snapshots taken),
        nextAfter_succ_of_ok k (hnext s.snapshots s.taken)]
      exact ih { s with lexer := after }

/-- Reading on succeeds when so many calls do, and the last one has the token. -/
theorem nextAfter_eq_ok_iff {s : Stream} {k : Nat} {t : Token} :
    (s.nextAfter k).1 = .ok t ↔
      ∃ before after, before.length = k ∧ Calls next s (before ++ [t]) after := by
  induction k generalizing s with
  | zero =>
    constructor
    · intro h
      exact ⟨[], s.next.2, rfl, .cons (Prod.ext h rfl) (.nil _)⟩
    · rintro ⟨before, after, hlen, hcalls⟩
      rw [List.length_eq_zero_iff.1 hlen] at hcalls
      cases hcalls with
      | cons hstep _ => exact congrArg Prod.fst hstep
  | succ k ih =>
    constructor
    · intro h
      rcases hnext : s.next with ⟨_ | token, mid⟩
      · rw [nextAfter_of_error _ hnext] at h
        cases h
      · rw [nextAfter_succ_of_ok k hnext] at h
        obtain ⟨before, after, hlen, hcalls⟩ := ih.1 h
        exact ⟨token :: before, after, by rw [List.length_cons, hlen], .cons hnext hcalls⟩
    · rintro ⟨before, after, hlen, hcalls⟩
      obtain ⟨token, before, rfl⟩ := List.exists_cons_of_length_eq_add_one hlen
      cases hcalls with
      | cons hstep hrest =>
        rw [nextAfter_succ_of_ok k hstep]
        exact ih.2 ⟨before, after, Nat.succ.inj hlen, hrest⟩

/-- Reading on fails when one of the calls does, the first such. -/
theorem nextAfter_eq_error_iff {s : Stream} {k : Nat} {fault : Fault} :
    (s.nextAfter k).1 = .error fault ↔
      ∃ before mid after, before.length ≤ k ∧ Calls next s before mid ∧
        mid.next = (.error fault, after) := by
  induction k generalizing s with
  | zero =>
    constructor
    · intro h
      exact ⟨[], s, s.next.2, Nat.le_refl _, .nil s, Prod.ext h rfl⟩
    · rintro ⟨before, mid, after, hlen, hcalls, hfault⟩
      rw [List.length_eq_zero_iff.1 (Nat.le_zero.1 hlen)] at hcalls
      cases hcalls
      exact congrArg Prod.fst hfault
  | succ k ih =>
    constructor
    · intro h
      rcases hnext : s.next with ⟨f | token, mid⟩
      · rw [nextAfter_of_error _ hnext] at h
        cases h
        exact ⟨[], s, mid, Nat.zero_le _, .nil s, hnext⟩
      · rw [nextAfter_succ_of_ok k hnext] at h
        obtain ⟨before, last, after, hlen, hcalls, hfault⟩ := ih.1 h
        exact ⟨token :: before, last, after, Nat.succ_le_succ hlen, .cons hnext hcalls, hfault⟩
    · rintro ⟨before, mid, after, hlen, hcalls, hfault⟩
      cases hcalls with
      | nil => rw [nextAfter_of_error _ hfault]
      | cons hstep hrest =>
        rw [nextAfter_succ_of_ok k hstep]
        exact ih.2 ⟨_, mid, after, Nat.le_of_succ_le_succ hlen, hrest, hfault⟩

/-- A look ahead has the outcome of reading on, and counts one more snapshot as taken. -/
theorem peek_eq (s : Stream) (k : Nat) :
    s.peek k = ((s.nextAfter k).1, { s with taken := s.taken + 1 }) := by
  have hread : s.capture.2.nextAfter k =
      ((s.nextAfter k).1, { s.capture.2 with lexer := (s.nextAfter k).2.lexer }) :=
    nextAfter_eq_with s k (s.taken + 1) s.capture.2.snapshots
  unfold peek
  rw [peeking_eq s _ (by simp only [hread])]
  simp only [hread, Bool.and_false]
  rfl

/-! ## Looking for a blank line in a scope -/

/-- Moves over the units ahead, up to the first that is no blank.  The scope around it is
to be committed at a line feed, which ends a blank line, and at the end of the source. -/
def passBlank (start : Cursor) (s : Stream) : Text → Except Fault (Option Token) × Bool × Stream
  | [] => (.ok none, true, s)
  | u :: ahead =>
    let after : Stream := { s with lexer := s.lexer.skip 1 }
    if u == lineFeed then
      let width := after.lexer.cursor.offset - start.offset
      let span : Span := ⟨start.location, after.lexer.cursor.location⟩
      (.ok (some ⟨.newline, start.rest.take width, span⟩), true, after)
    else if isSpace u then after.passBlank start ahead
    else (.ok none, false, after)

/-- Reads a blank line in a scope of its own. -/
def readBlankLine (s : Stream) : Except Fault (Option Token) × Stream :=
  s.peeking fun inner => inner.passBlank s.lexer.cursor inner.lexer.cursor.rest

/-- Reads the next token, looking for a blank line in a scope. -/
def nextInScope (s : Stream) : Except Fault Token × Stream :=
  if s.lexer.cursor.column == 0 && !s.lexer.cursor.atEnd then
    match s.readBlankLine with
    | (.ok none, after) =>
      if after.lexer.cursor.atEnd then after.onLexer Lexer.readInLine
      else after.onLexer fun lx => Lexer.afterLineStart lx.readFilledLine
    | (.ok (some token), after) => (.ok token, after)
    | (.error fault, after) => (.error fault, after)
  else s.onLexer Lexer.readInLine

/-- Moving unit by unit finds the shape of the line. -/
theorem passBlank_eq (start : Cursor) {s : Stream} {ahead : Text}
    (h : s.lexer.cursor.rest = ahead) :
    match LineShape.of ahead with
    | .blank w =>
      s.passBlank start ahead =
        (.ok (some ⟨.newline, start.rest.take ((s.lexer.cursor.skip w).offset - start.offset),
          ⟨start.location, (s.lexer.cursor.skip w).location⟩⟩), true,
          { s with lexer := s.lexer.skip w })
    | .trailing w =>
      s.passBlank start ahead = (.ok none, true, { s with lexer := s.lexer.skip w })
    | .filled => ∃ lx, s.passBlank start ahead = (.ok none, false, { s with lexer := lx }) := by
  induction ahead generalizing s with
  | nil => rfl
  | cons u ahead ih =>
    have hahead : ({ s with lexer := s.lexer.skip 1 } : Stream).lexer.cursor.rest = ahead := by
      rw [Lexer.skip_cursor, Cursor.rest_skip, h, List.drop_one, List.tail_cons]
    rw [LineShape.of_cons]
    by_cases hfeed : (u == lineFeed) = true
    · have hblank : ¬isBlank u = true := by simp [isBlank, beq_iff_eq.1 hfeed]
      rw [if_neg hblank, if_pos hfeed]
      simp only [passBlank, hfeed, if_true]
      rfl
    by_cases hspace : isSpace u = true
    · have hblank : isBlank u = true := by simpa [isBlank, hspace] using hfeed
      have hpass : s.passBlank start (u :: ahead) =
          ({ s with lexer := s.lexer.skip 1 } : Stream).passBlank start ahead := by
        simp only [passBlank, hfeed, hspace, if_true, if_false, Bool.false_eq_true]
      rw [if_pos hblank, hpass]
      have hshape := ih hahead
      cases hof : LineShape.of ahead with
      | blank w =>
        rw [hof] at hshape
        exact hshape
      | trailing w =>
        rw [hof] at hshape
        exact hshape
      | filled =>
        rw [hof] at hshape
        exact hshape
    · have hblank : ¬isBlank u = true := by
        simpa [isBlank] using fun h => absurd h hspace
      rw [if_neg hblank, if_neg hfeed]
      refine ⟨s.lexer.skip 1, ?_⟩
      simp only [passBlank, hfeed, hspace, if_false, Bool.false_eq_true]

/-- The scope keeps a blank line and trailing blanks, and takes back any other line. -/
theorem readBlankLine_eq (s : Stream) :
    s.readBlankLine =
      match LineShape.of s.lexer.cursor.rest with
      | .blank w =>
        (.ok (some (s.lexer.cursor.cut .newline w)),
          { s with lexer := s.lexer.skip w, taken := s.taken + 1 })
      | .trailing w => (.ok none, { s with lexer := s.lexer.skip w, taken := s.taken + 1 })
      | .filled => (.ok none, { s with taken := s.taken + 1 }) := by
  have hpass := passBlank_eq s.lexer.cursor (s := s.capture.2) rfl
  unfold readBlankLine
  cases hshape : LineShape.of s.lexer.cursor.rest with
  | blank w =>
    have hwidth : (s.lexer.cursor.skip w).offset - s.lexer.cursor.offset = w := by
      obtain ⟨gap, more, hrest, -, hw⟩ := LineShape.exists_of_blank hshape
      rw [Cursor.offset_skip (by simp [hrest, hw]), Nat.add_sub_cancel_left]
    have hbody : s.capture.2.passBlank s.lexer.cursor s.capture.2.lexer.cursor.rest =
        (.ok (some (s.lexer.cursor.cut .newline w)), true,
          { s.capture.2 with lexer := s.lexer.skip w }) := by
      rw [show LineShape.of s.capture.2.lexer.cursor.rest = .blank w from hshape] at hpass
      refine hpass.trans ?_
      rw [show (s.capture.2.lexer.cursor.skip w).offset - s.lexer.cursor.offset = w from hwidth]
      rfl
    rw [peeking_eq s _ (by simp only [hbody])]
    simp only [hbody]
    rfl
  | trailing w =>
    have hbody : s.capture.2.passBlank s.lexer.cursor s.capture.2.lexer.cursor.rest =
        (.ok none, true, { s.capture.2 with lexer := s.lexer.skip w }) := by
      rw [show LineShape.of s.capture.2.lexer.cursor.rest = .trailing w from hshape] at hpass
      exact hpass
    rw [peeking_eq s _ (by simp only [hbody])]
    simp only [hbody]
    rfl
  | filled =>
    obtain ⟨lx, hbody⟩ : ∃ lx, s.capture.2.passBlank s.lexer.cursor
        s.capture.2.lexer.cursor.rest = (.ok none, false, { s.capture.2 with lexer := lx }) := by
      rw [show LineShape.of s.capture.2.lexer.cursor.rest = .filled from hshape] at hpass
      exact hpass
    rw [peeking_eq s _ (by simp only [hbody])]
    simp only [hbody]
    rfl

/-- Reading with a scope for blank lines and reading without one are the same, but for the
number of snapshots ever taken. -/
theorem nextInScope_eq (s : Stream) :
    ∃ taken, s.nextInScope = (s.next.1, { s.next.2 with taken := taken }) := by
  unfold nextInScope
  by_cases hstart : (s.lexer.cursor.column == 0 && !s.lexer.cursor.atEnd) = true
  · obtain ⟨hcolumn, hne⟩ : s.lexer.cursor.column = 0 ∧ s.lexer.cursor.rest ≠ [] := by
      simpa [Cursor.atEnd] using hstart
    refine ⟨s.taken + 1, ?_⟩
    rw [if_pos hstart, readBlankLine_eq, next_eq, Lexer.next_of_line_start hcolumn hne]
    unfold Lexer.readLineStart
    cases hshape : LineShape.of s.lexer.cursor.rest with
    | blank w => rfl
    | trailing w =>
      have hend : (s.lexer.skip w).cursor.atEnd = true := by
        rw [(LineShape.eq_length_of_trailing hshape).1]
        simp [Cursor.atEnd]
      simp only [hend, if_true]
      rfl
    | filled =>
      have hend : s.lexer.cursor.atEnd = false := by simpa [Cursor.atEnd] using hne
      simp only [hend, if_false, Bool.false_eq_true]
      rfl
  · refine ⟨s.taken, ?_⟩
    rw [if_neg hstart, next_eq]
    simp only [Lexer.next, hstart, if_false, Bool.false_eq_true]
    rfl

/-! ## Transparency -/

/-- A look ahead by `k` shows what `k + 1` calls would read: the last token if they all
succeed, and otherwise the first fault.  It leaves the place, the blocks and the open
snapshots as they were.  Reading neither depends on the open snapshots nor changes them,
also when it looks for blank lines in scopes of its own. -/
theorem peek_transparent (s : Stream) (k : Nat) :
    (∀ t, (s.peek k).1 = .ok t ↔
      ∃ before after, before.length = k ∧ Calls next s (before ++ [t]) after) ∧
    (∀ fault, (s.peek k).1 = .error fault ↔
      ∃ before mid after, before.length ≤ k ∧ Calls next s before mid ∧
        mid.next = (.error fault, after)) ∧
    (s.peek k).2.lexer = s.lexer ∧ (s.peek k).2.snapshots = s.snapshots ∧
    (∀ snapshots, ({ s with snapshots := snapshots } : Stream).next =
      (s.next.1, { s.next.2 with snapshots := snapshots })) ∧
    s.next.2.snapshots = s.snapshots ∧
    s.nextInScope.1 = s.next.1 ∧ s.nextInScope.2.lexer = s.next.2.lexer ∧
      s.nextInScope.2.snapshots = s.snapshots := by
  obtain ⟨taken, hscope⟩ := nextInScope_eq s
  rw [peek_eq, hscope]
  exact ⟨fun t => nextAfter_eq_ok_iff, fun fault => nextAfter_eq_error_iff, rfl, rfl,
    fun snapshots => rfl, rfl, rfl, rfl, rfl⟩

end Stream

end SceneTokens
