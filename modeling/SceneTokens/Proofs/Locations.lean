import SceneTokens.Proofs.Causes
import SceneTokens.Proofs.Reach

/-!
# Exact locations

The line and the column of a place are functions of its offset (`Text.locationAt`): the
line counts the line feeds before it, and the column the units since the last of them.
This module shows that every location is such a place, wherever it comes from.

* Cursors count along as they move, `Cursor.location_ofOffset`.  A cursor only moves by
  `Cursor.skip`, and is taken back only to a place where it was before, so it is always
  `At` some offset of its source (`Session.Operations.at`).
* Tokens and most faults take their locations from the cursors before and behind what was
  read (`Cursor.At.span`).  A fault of indentation is located ahead of the cursor without
  moving there, which is the same as long as no line feed comes between
  (`Cursor.locationAhead_eq`).

Main statement: `Session.locations_exact`.
-/

namespace SceneTokens

open CodeUnit Relation

/-! ## The location of an offset -/

/-- The offset just behind the last line feed before `n`, and zero if there is none. -/
def Text.lineStart (t : Text) : Nat → Nat
  | 0 => 0
  | n + 1 => if t[n]? = some lineFeed then n + 1 else lineStart t n

/-- The location of an offset. -/
def Text.locationAt (t : Text) (n : Nat) : Location where
  line := 1 + (t.take n).count lineFeed
  column := (n : Int) - t.lineStart n
  offset := n

/-- A location is a place of a source, and its line and column are those of its offset. -/
def Location.Exact (l : Location) (source : Text) : Prop :=
  ∃ n ≤ source.length, l = source.locationAt n

/-- Both ends of a span are exact and in order. -/
structure Span.Exact (s : Span) (source : Text) : Prop where
  start : s.start.Exact source
  stop : s.stop.Exact source
  ordered : s.start.offset ≤ s.stop.offset

/-- The span of a token is exact. -/
def Token.Exact (t : Token) (source : Text) : Prop := t.span.Exact source

/-- The location of a fault is exact.  So is its span, if it has one, and the location lies
inside it. -/
structure Fault.Exact (f : Fault) (source : Text) : Prop where
  location : f.location.Exact source
  span : ∀ s, f.span = some s →
    s.Exact source ∧ s.start.offset ≤ f.location.offset ∧ f.location.offset ≤ s.stop.offset

/-- The units since the last line feed lie behind the start of the line. -/
theorem Text.lineStart_add_length {t : Text} {n : Nat} (h : n ≤ t.length) :
    t.lineStart n + ((t.take n).reverse.takeWhile (· != lineFeed)).length = n := by
  induction n with
  | zero => simp [lineStart]
  | succ n ih =>
    have hget : t[n]? = some t[n] := List.getElem?_eq_getElem h
    have hline := ih (by omega)
    rw [lineStart, List.take_add_one, hget, List.reverse_append]
    simp only [Option.toList_some, List.reverse_singleton, List.singleton_append]
    by_cases hu : t[n] = lineFeed
    · simp [hu]
    · simp [hu]
      omega

namespace Cursor

/-- The line counts the line feeds moved over. -/
theorem line_skip (c : Cursor) (n : Nat) :
    (c.skip n).line = c.line + (c.rest.take n).count lineFeed := by
  induction n generalizing c with
  | zero => simp
  | succ n ih =>
    rw [skip, ih, rest_advance]
    cases hrest : c.rest with
    | nil => simp [advance, hrest]
    | cons u rest =>
      by_cases hu : u = lineFeed
      · simp [advance, hrest, hu]
        omega
      · simp [advance, hrest, hu]

/-- A cursor counts its line, its column and its offset right. -/
theorem location_ofOffset {source : Text} {n : Nat} (h : n ≤ source.length) :
    (ofOffset source n).location = source.locationAt n := by
  have hline : (ofOffset source n).line = 1 + (source.take n).count lineFeed :=
    line_skip (ofSource source) n
  have hcolumn := column_ofOffset source n
  have hoffset := offset_ofOffset h
  have hstart := Text.lineStart_add_length h
  simp only [location, Text.locationAt, Location.mk.injEq]
  omega

/-- The location further along a line is where the cursor comes to. -/
theorem locationAhead_eq {c : Cursor} {n : Nat} (hn : n ≤ c.rest.length)
    (h : lineFeed ∉ c.rest.take n) : c.locationAhead n = (c.skip n).location := by
  obtain ⟨hline, hcolumn⟩ := line_column_skip_of_notMem hn h
  have hoffset := offset_skip hn
  simp only [locationAhead, location, Location.mk.injEq]
  omega

/-! ## Cursors of a source -/

/-- The cursor is at some offset of the source. -/
def At (c : Cursor) (source : Text) : Prop := ∃ n ≤ source.length, c = ofOffset source n

namespace At

variable {c : Cursor} {source : Text} (h : c.At source)
include h

theorem skip {n : Nat} (hn : n ≤ c.rest.length) : (c.skip n).At source := by
  obtain ⟨e, he, rfl⟩ := h
  rw [rest_ofOffset, List.length_drop] at hn
  exact ⟨e + n, by omega, skip_ofOffset source e n⟩

theorem location : c.location.Exact source := by
  obtain ⟨e, he, rfl⟩ := h
  exact ⟨e, he, location_ofOffset he⟩

theorem source_eq : c.source = source := by
  obtain ⟨e, he, rfl⟩ := h
  simp [Cursor.source]

theorem rest_eq : c.rest = source.drop c.offset := by
  obtain ⟨e, he, rfl⟩ := h
  rw [rest_ofOffset, offset_ofOffset he]

theorem offset_add_length : c.offset + c.rest.length = source.length := by
  obtain ⟨e, he, rfl⟩ := h
  rw [rest_ofOffset, offset_ofOffset he, List.length_drop]
  omega

/-- The span between two places ahead. -/
theorem span {m n : Nat} (hmn : m ≤ n) (hn : n ≤ c.rest.length) :
    Span.Exact ⟨(c.skip m).location, (c.skip n).location⟩ source := by
  refine ⟨(h.skip (by omega)).location, (h.skip hn).location, ?_⟩
  show ((c.skip m).offset : Int) ≤ (c.skip n).offset
  rw [offset_skip (by omega), offset_skip hn]
  omega

theorem cut (kind : TokenKind) {n : Nat} (hn : n ≤ c.rest.length) : (c.cut kind n).Exact source :=
  h.span (Nat.zero_le n) hn

theorem mark (kind : TokenKind) (value : Text) : (c.mark kind value).Exact source :=
  h.span (Nat.le_refl 0) (Nat.zero_le _)

/-- A fault that is located at one place ahead and spans others. -/
theorem fault {fault : Fault} {k m n : Nat} (hmk : m ≤ k) (hkn : k ≤ n) (hn : n ≤ c.rest.length)
    (hlocation : fault.location = (c.skip k).location)
    (hspan : ∀ s, fault.span = some s → s = ⟨(c.skip m).location, (c.skip n).location⟩) :
    fault.Exact source := by
  refine ⟨hlocation ▸ (h.skip (by omega)).location, ?_⟩
  intro s hs
  rw [hspan s hs, hlocation]
  have hleft := h.span hmk (by omega)
  have hright := h.span hkn hn
  exact ⟨h.span (by omega) hn, hleft.ordered, hright.ordered⟩

/-- A fault without a span is exact where its cursor is. -/
theorem fault_here {fault : Fault} (hlocation : fault.location = c.location)
    (hspan : ∀ s, fault.span = some s → s = Span.point c.location) : fault.Exact source :=
  h.fault (Nat.le_refl 0) (Nat.le_refl 0) (Nat.zero_le _) hlocation hspan

/-- The readers fail at exact places. -/
theorem cause {fault : Fault} {n : Nat} (hcause : c.Cause fault n) : fault.Exact source := by
  have hle := hcause.le
  cases hcause with
  | ended => exact h.fault_here rfl (by rintro s ⟨⟩; rfl)
  | lineBreak =>
    exact h.fault (Nat.le_refl 0) (Nat.zero_le _) hle rfl (by rintro s ⟨⟩; rfl)
  | exhausted =>
    exact h.fault (Nat.zero_le _) (Nat.le_refl _) hle rfl (by rintro s ⟨⟩; rfl)
  | bareReturn => exact h.fault_here rfl (by rintro s ⟨⟩)
  | whitespace => exact h.fault_here rfl (by rintro s ⟨⟩)

end At

end Cursor

/-! ## Outcomes of reading -/

/-- An outcome hands out exact locations only: those of what was read, or of the fault. -/
def Located (source : Text) {α : Type} (exact : α → Prop) : Except Fault α → Prop
  | .ok a => exact a
  | .error fault => fault.Exact source

/-- A token that there may be or not. -/
def Token.ExactIfAny (source : Text) (t : Option Token) : Prop :=
  ∀ token, t = some token → token.Exact source

theorem Cursor.Takes.located {c : Cursor} {source : Text} {r : Reading Token} {n : Nat}
    (h : c.At source) (htakes : c.Takes r n)
    (hfault : ∀ fault after, r = (.error fault, after) → fault.Exact source) :
    Located source (·.Exact source) r.1 := by
  rcases r with ⟨fault | token, after⟩
  · exact hfault fault after rfl
  · obtain ⟨kind, -, rfl⟩ := htakes.token token rfl
    exact h.cut kind htakes.le

namespace Cursor

variable {c : Cursor} {source : Text} (h : c.At source)
include h

theorem located_readRun (kind : TokenKind) (p : CodeUnit → Bool) :
    Located source (·.Exact source) (c.readRun kind p).1 :=
  h.cut kind (length_run_le c p)

theorem located_readString : Located source (·.Exact source) c.readString.1 := by
  obtain ⟨n, htakes⟩ := c.takes_readString
  refine htakes.located h ?_
  intro fault after hread
  obtain ⟨_, hcause, _⟩ := cause_readString hread
  exact h.cause hcause

theorem located_readNewline : Located source (·.Exact source) c.readNewline.1 := by
  obtain ⟨n, htakes⟩ := c.takes_readNewline
  refine htakes.located h ?_
  intro fault after hread
  obtain ⟨_, hcause, _⟩ := cause_readNewline hread
  exact h.cause hcause

theorem located_readSymbol : Located source (·.Exact source) c.readSymbol.1 := by
  obtain ⟨n, htakes⟩ := c.takes_readSymbol
  refine htakes.located h ?_
  intro fault after hread
  obtain ⟨_, hcause, _⟩ := cause_readSymbol hread
  exact h.cause hcause

theorem located_readLexeme (u : CodeUnit) :
    Located source (·.Exact source) (c.readLexeme u).1 := by
  unfold readLexeme
  split
  · exact located_readRun h _ _
  split
  · exact located_readRun h _ _
  split
  · exact located_readRun h _ _
  split
  · exact located_readString h
  split
  · exact located_readNewline h
  · exact located_readSymbol h

theorem located_readUnit : Located source (fun _ => True) c.readUnit.1 := by
  cases hread : c.readUnit with
  | mk outcome after =>
    cases outcome with
    | ok u => trivial
    | error fault =>
      obtain ⟨_, hcause, _⟩ := cause_readUnit hread
      exact h.cause hcause

end Cursor

/-! ## Steps of the lexer -/

namespace Lexer

theorem Move.cursor_at {lx after : Lexer} {source : Text} (h : lx.cursor.At source)
    (hmove : lx.Move after) : after.cursor.At source := by
  cases hmove with
  | skip hn => exact h.skip hn
  | closeBlock => exact h
  | openBlock => exact h

theorem Moves.cursor_at {lx after : Lexer} {source : Text} (h : lx.cursor.At source)
    (hmoves : lx.Moves after) : after.cursor.At source := by
  induction hmoves with
  | refl => exact h
  | tail _ hmove ih => exact hmove.cursor_at ih

/-- A leading run has no line feed. -/
theorem lineFeed_notMem_take_leading (lx : Lexer) {n : Nat} (hn : n ≤ lx.leading.length) :
    lineFeed ∉ lx.cursor.rest.take n := by
  intro hmem
  rw [← leading_append_behind, List.take_append_of_le_length hn] at hmem
  exact absurd (isHorizontal_of_mem_leading (List.mem_of_mem_take hmem)) (by decide)

theorem locationAhead_of_le_leading (lx : Lexer) {n : Nat} (hn : n ≤ lx.leading.length) :
    lx.cursor.locationAhead n = (lx.cursor.skip n).location :=
  Cursor.locationAhead_eq (Nat.le_trans hn lx.length_leading_le)
    (lx.lineFeed_notMem_take_leading hn)

variable {lx : Lexer} {source : Text} (h : lx.cursor.At source)
include h

theorem exact_readEndOfInput : lx.readEndOfInput.1.Exact source := by
  obtain ⟨kind, value, hmark, -⟩ := lx.readEndOfInput_eq_mark
  rw [hmark]
  exact h.mark kind value

theorem located_readIndentation :
    Located source (Token.ExactIfAny source) lx.readIndentation.1 := by
  rw [readIndentation_eq]
  split
  · rintro token ⟨⟩
  split
  · -- Both the place of the difference and the end of the run are on the line.
    rename_i i hdiv
    have hi : i < lx.leading.length := Text.lt_length_of_divergence? hdiv
    have hplace := lx.locationAhead_of_le_leading (Nat.le_of_lt hi)
    have hstop := lx.locationAhead_of_le_leading (Nat.le_refl _)
    refine h.fault (Nat.zero_le i) (Nat.le_of_lt hi) lx.length_leading_le hplace ?_
    rintro s ⟨⟩
    rw [hstop]
    rfl
  · split
    · rintro token ⟨⟩
      exact h.mark _ _
    split
    · rintro token ⟨⟩
      exact h.cut _ lx.length_leading_le
    · rintro token ⟨⟩

theorem located_readLineStart : Located source (Token.ExactIfAny source) lx.readLineStart.1 := by
  unfold readLineStart
  split
  · rename_i w hshape
    obtain ⟨gap, more, hrest, -, hw⟩ := LineShape.exists_of_blank hshape
    rintro token ⟨⟩
    exact h.cut _ (by simp [hrest, hw])
  · rintro token ⟨⟩
  · unfold readFilledLine
    split
    · rintro token ⟨⟩
      exact h.mark _ _
    · exact located_readIndentation h

theorem located_readInLine : Located source (·.Exact source) lx.readInLine.1 := by
  have hinner : (lx.cursor.skipWhile isHorizontal).At source :=
    h.skip (Cursor.length_run_le _ isHorizontal)
  unfold readInLine
  dsimp only
  split
  · exact @exact_readEndOfInput { lx with cursor := lx.cursor.skipWhile isHorizontal } source hinner
  · exact Cursor.located_readLexeme hinner _

theorem located_next : Located source (·.Exact source) lx.next.1 := by
  by_cases hline : lx.cursor.column = 0 ∧ lx.cursor.rest ≠ []
  · rw [next_of_line_start hline.1 hline.2]
    have hmoves := lx.moves_readLineStart
    have hstart := located_readLineStart h
    rcases hread : lx.readLineStart with ⟨fault | _ | token, after⟩ <;>
      rw [hread] at hmoves hstart
    · exact hstart
    · exact located_readInLine (hmoves.cursor_at h)
    · exact hstart token rfl
  · have heq : lx.next = lx.readInLine := by
      rcases Classical.not_and_iff_not_or_not.1 hline with h | h
      · exact next_of_column_ne_zero h
      · exact next_of_rest_nil (by_contra h)
    rw [heq]
    exact located_readInLine h

omit h in
theorem cursor_at_next {after : Lexer} {r : Except Fault Token} (h : lx.cursor.At source)
    (hnext : lx.next = (r, after)) : after.cursor.At source := by
  have hmoves := lx.moves_next
  rw [hnext] at hmoves
  exact hmoves.cursor_at h

omit h in
theorem cursor_at_calls {after : Lexer} {tokens : List Token} (h : lx.cursor.At source)
    (hcalls : Calls Lexer.next lx tokens after) : after.cursor.At source := by
  induction hcalls with
  | nil => exact h
  | cons hstep _ ih => exact ih (cursor_at_next h hstep)

end Lexer

/-- A scan hands out exact locations only. -/
structure Scan.Exact (s : Scan) (source : Text) : Prop where
  tokens : ∀ t ∈ s.tokens, t.Exact source
  fault : ∀ f, s.fault = some f → f.Exact source

namespace Scan.Exact

variable {source : Text}

theorem failed {fault : Fault} (final : Lexer) (h : fault.Exact source) :
    Scan.Exact ⟨[], some fault, final⟩ source := by
  refine ⟨by simp, ?_⟩
  rintro f ⟨⟩
  exact h

theorem ended {tokens : List Token} (final : Lexer) (h : ∀ t ∈ tokens, t.Exact source) :
    Scan.Exact ⟨tokens, none, final⟩ source :=
  ⟨h, by simp⟩

theorem cons {t : Token} {s : Scan} (ht : t.Exact source) (h : s.Exact source) :
    (s.cons t).Exact source := by
  refine ⟨?_, h.fault⟩
  intro p hp
  rcases List.mem_cons.1 hp with rfl | hp
  · exact ht
  · exact h.tokens p hp

theorem located {s : Scan} (h : s.Exact source) :
    Located source (fun tokens => ∀ t ∈ tokens, t.Exact source) s.result := by
  unfold Scan.result
  split
  · rename_i fault hfault
    exact h.fault fault hfault
  · exact h.tokens

end Scan.Exact

namespace Lexer

variable {source : Text}

theorem exact_scan {lx : Lexer} (h : lx.cursor.At source) : lx.scan.Exact source := by
  fun_induction scan lx with
  | case1 lx fault after hnext =>
    have hread := located_next h
    rw [hnext] at hread
    exact .failed after hread
  | case2 lx token after hnext hkind =>
    have hread := located_next h
    rw [hnext] at hread
    exact .ended after (List.forall_mem_singleton.2 hread)
  | case3 lx token after hnext hkind ih =>
    have hread := located_next h
    rw [hnext] at hread
    exact .cons hread (ih (cursor_at_next h hnext))

/-- The fault of a source is located in it exactly. -/
theorem exact_of_scan_fault {fault : Fault} (h : (ofSource source).scan.fault = some fault) :
    fault.Exact source :=
  (exact_scan ⟨0, Nat.zero_le _, rfl⟩).fault fault h

theorem exact_scanUpTo {lx : Lexer} (h : lx.cursor.At source) (limit : Nat) :
    (lx.scanUpTo limit).Exact source := by
  induction limit generalizing lx with
  | zero => exact .ended lx (by simp)
  | succ limit ih =>
    have hread := located_next h
    unfold scanUpTo
    rcases hnext : lx.next with ⟨fault | token, after⟩ <;> rw [hnext] at hread
    · exact .failed after hread
    · dsimp only
      split
      · exact .ended after (List.forall_mem_singleton.2 hread)
      · exact .cons hread (ih (cursor_at_next h hnext))

end Lexer

theorem Reader.located_read {lx : Lexer} {source : Text} (h : lx.cursor.At source)
    (reader : Reader) : Located source (Token.ExactIfAny source) (reader.read lx).1 := by
  have halways : ∀ step : Step Token, Located source (·.Exact source) step.1 →
      Located source (Token.ExactIfAny source) (Reader.read.always step).1 := by
    rintro ⟨fault | token, after⟩ hstep
    · exact hstep
    · rintro t ⟨⟩
      exact hstep
  cases reader with
  | comment => exact halways _ (Cursor.located_readRun h _ _)
  | integer => exact halways _ (Cursor.located_readRun h _ _)
  | identifier => exact halways _ (Cursor.located_readRun h _ _)
  | string => exact halways _ (Cursor.located_readString h)
  | newline => exact halways _ (Cursor.located_readNewline h)
  | symbol => exact halways _ (Cursor.located_readSymbol h)
  | lineStart => exact Lexer.located_readLineStart h
  | endOfInput =>
    rintro t ⟨⟩
    exact Lexer.exact_readEndOfInput h
  | token => exact halways _ (Lexer.located_next h)

/-! ## Streams -/

namespace Stream

variable {s : Stream} {source : Text} (h : s.lexer.cursor.At source)
include h

theorem located_tryNext : Located source (Located source (·.Exact source)) s.tryNext.1 := by
  have hread : Located source (·.Exact source) s.next.1 := Lexer.located_next h
  unfold tryNext
  rcases hnext : s.next with ⟨fault | token, after⟩ <;> rw [hnext] at hread
  · dsimp only
    split <;> exact hread
  · exact hread

theorem located_nextAfter (k : Nat) : Located source (·.Exact source) (s.nextAfter k).1 := by
  induction k generalizing s with
  | zero => exact Lexer.located_next h
  | succ k ih =>
    have hread : Located source (·.Exact source) s.next.1 := Lexer.located_next h
    rcases hnext : s.next with ⟨fault | token, after⟩ <;> rw [hnext] at hread
    · rw [nextAfter_of_error _ hnext]
      exact hread
    · rw [nextAfter_succ_of_ok k hnext]
      have hafter : s.next.2 = after := by rw [hnext]
      apply ih
      rw [← hafter]
      exact s.lexer.moves_next.cursor_at h

theorem located_peek (k : Nat) : Located source (·.Exact source) (s.peek k).1 := by
  rw [peek_eq]
  exact located_nextAfter h k

/-- A snapshot is refused where the cursor is. -/
theorem exact_of_close {x : Snapshot} {fault : Fault} (hclose : s.close x = .error fault) :
    fault.Exact source := by
  unfold close at hclose
  split at hclose
  · cases hclose
  · cases hclose
    exact h.fault_here rfl (by rintro s ⟨⟩)

theorem exact_of_restore {x : Snapshot} {fault : Fault} (hrestore : s.restore x = .error fault) :
    fault.Exact source := by
  unfold restore at hrestore
  cases hclose : s.close x with
  | ok after =>
    rw [hclose] at hrestore
    cases hrestore
  | error refused =>
    rw [hclose] at hrestore
    cases hrestore
    exact exact_of_close h hclose

theorem located_leave (x : Snapshot) (committed : Bool) :
    Located source (fun _ => True) (s.leave x committed).1 := by
  unfold leave
  split
  · trivial
  · rename_i fault hfault
    split at hfault
    · exact exact_of_close h hfault
    · exact exact_of_restore h hfault

end Stream

/-! ## Sessions -/

/-- An answer shows exact locations only. -/
def Answer.Exact (source : Text) : Answer → Prop
  | .token t => Token.ExactIfAny source t
  | .attempt outcome => Located source (·.Exact source) outcome
  | .tokens ts => ∀ t ∈ ts, t.Exact source
  | .done | .count _ | .flag _ | .text _ => True

/-- An outcome of an action shows exact locations only. -/
def Answer.Shown (source : Text) : Except Failure Answer → Prop
  | .ok answer => answer.Exact source
  | .error (.fault fault) => fault.Exact source
  | .error (.peekOffset _) | .error (.thrown _) => True

theorem Answer.Shown.exact {source : Text} {outcome : Except Failure Answer} {fault : Fault}
    (h : Answer.Shown source outcome) (hfault : outcome = .error (.fault fault)) :
    fault.Exact source := by
  subst hfault
  exact h

namespace Session

variable {source : Text}

theorem shown_reading {α : Type} (w : Session) (i : Nat) {answer : α → Answer}
    {r : Except Fault α × Stream} {exact : α → Prop} (h : Located source exact r.1)
    (hanswer : ∀ a, exact a → (answer a).Exact source) :
    Answer.Shown source (w.reading i answer r).1 := by
  rcases r with ⟨fault | a, after⟩
  · exact h
  · exact hanswer a h

theorem shown_closing {w : Session} {i : Nat} (name : Text)
    {close : Stream → Snapshot → Except Fault Stream}
    (hclose : ∀ {x fault}, close (w.stream i) x = .error fault → fault.Exact source) :
    Answer.Shown source (w.closing i name close).1 := by
  unfold closing
  split
  · trivial
  · split
    · trivial
    · rename_i fault hfault
      exact hclose hfault

/-- Whatever action is performed on a stream, it shows exact locations only. -/
theorem shown_perform {w : Session} {i : Nat} (h : (w.stream i).lexer.cursor.At source)
    (action : Action) : Answer.Shown source (w.perform i action).1 := by
  have htoken : ∀ t : Token, t.Exact source → (Answer.token (some t)).Exact source := by
    rintro t ht _ ⟨⟩
    exact ht
  cases action with
  | next => exact shown_reading w i (Lexer.located_next h) htoken
  | tryNext => exact shown_reading w i (Stream.located_tryNext h) fun _ ha => ha
  | peek offset =>
    unfold perform
    dsimp only
    split
    · exact shown_reading w i (Stream.located_peek h _) htoken
    · trivial
  | iterate limit =>
    cases limit with
    | none => exact shown_reading w i (Lexer.exact_scan h).located fun _ ha => ha
    | some n => exact shown_reading w i (Lexer.exact_scanUpTo h n).located fun _ ha => ha
  | innermost name =>
    unfold perform
    dsimp only
    split <;> trivial
  | restore name => exact shown_closing name (Stream.exact_of_restore h)
  | release name => exact shown_closing name (Stream.exact_of_close h)
  | advance => exact shown_reading w i (Cursor.located_readUnit h) fun _ _ => trivial
  | read reader => exact shown_reading w i (reader.located_read h) fun _ ha => ha
  | depth | capture | commit | throw | peekUnit | atEnd | indent | pushIndent | consume =>
    trivial

/-- At the start the stream of a number reads the source of that number. -/
theorem stream_ofSources_of_getElem? {sources : List Text} {i : Nat}
    (h : sources[i]? = some source) :
    (ofSources sources).stream i = Stream.ofSource i source := by
  unfold stream ofSources
  rw [List.getElem?_map, List.getElem?_zipIdx, h]
  simp

/-- A stream stays in its source, and so does every state that it can be taken back to. -/
theorem Operations.at {allowed : Action → Prop} {sources : List Text} {w : Session} {i : Nat}
    (h : Operations allowed (ofSources sources) w) (hi : sources[i]? = some source) :
    (w.stream i).Keeps (·.cursor.At source) := by
  have hstart : ((ofSources sources).stream i).Keeps (·.cursor.At source) := by
    rw [stream_ofSources_of_getElem? hi]
    exact .ofSource ⟨0, Nat.zero_le _, rfl⟩
  refine hstart.moves ?_ ?_ (h.stream i)
  · intro lx after hat hmove
    exact hmove.cursor_at hat
  · intro lx run _ hat
    exact hat

/-- Locations are exact, after any operations on the streams of some sources.

* The line and the column of a stream are those of its offset, and so are those of every
  state that it can be taken back to.
* Whatever action comes next, the locations of its tokens or of its fault are exact; spans
  are in order, and a fault is located inside its span.
* The same is true of the fault that ends a scope, whichever snapshot the scope has. -/
theorem locations_exact {sources : List Text} {w : Session} {i : Nat}
    (hw : Operations (fun _ => True) (ofSources sources) w) (hi : sources[i]? = some source) :
    (w.stream i).lexer.cursor.location.Exact source ∧
    (w.stream i).lexer.cursor.source = source ∧
    (∀ x ∈ (w.stream i).snapshots, x.saved.cursor.location.Exact source) ∧
    (∀ action, Answer.Shown source (w.perform i action).1) ∧
    (∀ x committed fault, ((w.stream i).leave x committed).1 = .error fault →
      fault.Exact source) := by
  obtain ⟨hnow, hsaved⟩ := hw.at hi
  refine ⟨hnow.location, hnow.source_eq, ?_, shown_perform hnow, ?_⟩
  · intro x hx
    exact (hsaved x hx).location
  · intro x committed fault hfault
    have hleave := Stream.located_leave hnow x committed
    rw [hfault] at hleave
    exact hleave

theorem perform_next_of_error {w : Session} {i : Nat} {fault : Fault}
    (h : (w.stream i).lexer.next.1 = .error fault) :
    (w.perform i .next).1 = .error (.fault fault) := by
  show ((w.stream i).lexer.next.1.map (Answer.token ∘ some)).mapError Failure.fault = _
  rw [h]
  rfl

/-- A string over an escaped line feed, a symbol of two units, a line ended by two units and
an indented quote have been read under a snapshot.  The string that the quote opens is
never closed, and its fault spans the rest of the source. -/
theorem locations_exact_unfinished_string :
    let source : Text :=
      [0x22, 0x61, 0x5C, 0x0A, 0x62, 0x22, 0x20, 0xD83C, 0xDFAC, 0x0D, 0x0A, 0x09, 0x22, 0x78]
    let w := (((ofSources [source]).perform 0 (.capture [0x6F])).2.perform 0
      (.iterate (some 4))).2
    let fault : Fault := .unfinishedString ⟨⟨3, 1, 12⟩, ⟨3, 3, 14⟩⟩
    Operations (fun _ => True) (ofSources [source]) w ∧ [source][0]? = some source ∧
      (w.stream 0).lexer.cursor.location = ⟨3, 1, 12⟩ ∧
      (w.perform 0 .next).1 = .error (.fault fault) ∧ fault.Exact source := by
  intro source w fault
  have hcapture : Operation (fun _ => True) (ofSources [source])
      ((ofSources [source]).perform 0 (.capture [0x6F])).2 := .move (.act 0 trivial)
  have hw : Operations (fun _ => True) (ofSources [source]) w :=
    (ReflTransGen.single hcapture).tail (.move (.act 0 trivial))
  have hlocation : (w.stream 0).lexer.cursor.location = ⟨3, 1, 12⟩ := by decide +kernel
  have hnext : (w.stream 0).lexer.next.1 = .error fault := by decide +kernel
  clear_value w
  have hfail : (w.perform 0 .next).1 = .error (.fault fault) := perform_next_of_error hnext
  obtain ⟨-, -, -, hshown, -⟩ := @locations_exact source [source] w 0 hw rfl
  exact ⟨hw, rfl, hlocation, hfail, (hshown .next).exact hfail⟩

end Session

end SceneTokens
