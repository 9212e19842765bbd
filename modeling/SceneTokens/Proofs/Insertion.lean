import SceneTokens.Proofs.Append
import SceneTokens.Proofs.Causes
import SceneTokens.Proofs.Grammar
import SceneTokens.Proofs.LineStart

/-!
# Lines without structure

A blank line and an indented line with nothing but a comment may stand between any two lines
of a source.  Their own tokens are added there, and all others stay as they are: the blocks
that the next line closes or opens are the same ones.

* The tokens of whole lines depend on these lines alone.  `Lexer.next_of_append` takes the
  text behind the source away again that `Lexer.next_append` puts there, and
  `Lexer.calls_of_append` does so for all the tokens up to the end of a line.
* `Text.Aside` has the lines without structure and the tokens that they are read as, and
  `Lexer.calls_of_aside` reads them in any state at the start of a line.
* Behind the added line the rest of the source is the same text in the same blocks, at
  another place: `Cursor.eq_shift_of_at`.

Main statement: `tokenize_insert`.
-/

namespace SceneTokens

open CodeUnit

/-! ## Without the text behind -/

namespace Lexer

variable {lx after : Lexer} {t : Token} {q : Text}

/-- A step that gives a token with a text behind the source, and not from that text, gives it
without the text. -/
theorem next_of_append (hfeed : lineFeed ∈ lx.cursor.rest)
    (h : (lx.append q).next = (.ok t, after)) (hle : q.length ≤ after.cursor.rest.length) :
    ∃ mid, lx.next = (.ok t, mid) ∧ after = mid.append q := by
  obtain ⟨mid, hmid, hnext⟩ := next_change hfeed (by decide) h hle fun _ => .inl hfeed
  rw [lx.append_nil, mid.append_nil] at hnext
  exact ⟨mid, hnext, hmid⟩

/-- What is ahead behind some tokens was ahead before them. -/
theorem rest_suffix_calls {tokens : List Token} (h : Calls Lexer.next lx tokens after) :
    after.cursor.rest <:+ lx.cursor.rest := by
  induction h with
  | nil => exact List.suffix_rfl
  | cons hstep _ ih =>
    obtain ⟨gap, width, hcovers⟩ := next_covers hstep
    rw [hcovers.after, Cursor.rest_skip] at ih
    exact ih.trans (List.drop_suffix _ _)

/-- The tokens of whole lines are read without the text behind these lines. -/
theorem calls_of_append {p : Text} (hp : p.EndsLine) {whole : Lexer} {tokens : List Token}
    (h : Calls Lexer.next whole tokens after) (hwhole : whole = lx.append q)
    (hat : lx.cursor.At p) (hrest : after.cursor.rest = q)
    (hlast : ∀ t ∈ tokens.getLast?, t.kind = .newline) :
    ∃ mid, Calls Lexer.next lx tokens mid ∧ after = mid.append q ∧
      ∀ t ∈ tokens, t.isTail p.length = false ∧ t.kind ≠ .endOfStream := by
  induction h generalizing lx with
  | nil => exact ⟨lx, .nil lx, hwhole, by simp⟩
  | @cons whole next after t tokens hstep hmore ih =>
    -- The end of the last line is still ahead, with its line feed.
    have hne : lx.cursor.rest ≠ [] := by
      intro hnil
      have hcount := count_lineFeed_calls (.cons hstep hmore)
      have hahead : whole.cursor.rest = q := by
        rw [hwhole]
        simp [append, Cursor.append, hnil]
      have hmem := List.getLast?_eq_some_getLast (List.cons_ne_nil t tokens)
      have hpos : 0 < (t :: tokens).countP (·.kind == .newline) := by
        rw [List.countP_pos_iff]
        exact ⟨_, List.mem_of_getLast? hmem, by simp [hlast _ hmem]⟩
      rw [hrest, hahead] at hcount
      omega
    have hfeed := lineFeed_mem_of_at hp hat hne
    have hle := (rest_suffix_calls hmore).length_le
    rw [hrest] at hle
    rw [hwhole] at hstep
    obtain ⟨mid, hnext, hmid⟩ := next_of_append hfeed hstep hle
    have hlast' : ∀ t ∈ tokens.getLast?, t.kind = .newline := by
      intro last hmem
      apply hlast
      rw [List.getLast?_cons, hmem]
      rfl
    obtain ⟨final, hcalls, hfinal, htokens⟩ :=
      ih hmid (cursor_at_next hat hnext) hrest hlast'
    exact ⟨final, .cons hnext hcalls, hfinal,
      List.forall_mem_cons.2 ⟨not_isTail_of_next hat hfeed hnext, htokens⟩⟩

end Lexer

/-! ## Lines without structure -/

/-- What a token is, apart from where it stands. -/
def Token.entry (t : Token) : TokenKind × Text := (t.kind, t.value)

/-- The lines that stand aside from the structure, and what is read from each of them: the
line feed of a blank line together with all that is before it, or a comment and the end of
its line. -/
inductive Text.Aside : Text → List (TokenKind × Text) → Prop
  | blank {gap : Text} (hgap : ∀ u ∈ gap, isSpace u = true ∧ u ≠ lineFeed) :
      Aside (gap ++ [lineFeed]) [(.newline, gap ++ [lineFeed])]
  | comment {run body stop : Text} (hne : run ≠ []) (hrun : ∀ u ∈ run, u = space ∨ u = tab)
      (hbody : ∀ u ∈ body, u ≠ carriageReturn ∧ u ≠ lineFeed)
      (hstop : stop = [lineFeed] ∨ stop = [carriageReturn, lineFeed]) :
      Aside (run ++ hash :: body ++ stop) [(.comment, hash :: body), (.newline, stop)]

theorem Text.Aside.endsLine {l : Text} {entries : List (TokenKind × Text)} (h : l.Aside entries) :
    l.getLast? = some lineFeed := by
  cases h with
  | blank => simp
  | @comment run body stop hne hrun hbody hstop =>
    have hlast : stop.getLast? = some lineFeed := by
      rcases hstop with rfl | rfl <;> rfl
    rw [List.getLast?_append, hlast]
    rfl

theorem Text.Aside.ne_endOfStream {l : Text} {entries : List (TokenKind × Text)}
    (h : l.Aside entries) : ∀ e ∈ entries, e.1 ≠ .endOfStream := by
  cases h <;> simp

theorem LineShape.of_blank {gap : Text} (hgap : ∀ u ∈ gap, isBlank u = true) (q : Text) :
    LineShape.of (gap ++ lineFeed :: q) = .blank (gap.length + 1) := by
  rw [of_eq, List.dropWhile_append_of_pos hgap, List.takeWhile_append_of_pos hgap]
  simp [isBlank]

namespace Cursor

variable {c : Cursor} {q : Text}

theorem entry_cut (kind : TokenKind) {value : Text} (hrest : c.rest = value ++ q) :
    (c.cut kind value.length).entry = (kind, value) := by
  rw [Token.entry, cut, hrest, List.take_left]

theorem readComment_of_rest {value stop : Text}
    (hvalue : ∀ u ∈ value, (!isLineTerminator u) = true)
    (hstop : stop = [lineFeed] ∨ stop = [carriageReturn, lineFeed])
    (hrest : c.rest = value ++ (stop ++ q)) :
    c.readComment = (.ok (c.cut .comment value.length), c.skip value.length) := by
  have hrun : c.run (!isLineTerminator ·) = value := by
    rw [run, hrest, List.takeWhile_append_of_pos hvalue]
    rcases hstop with rfl | rfl <;> exact List.append_nil value
  rw [readComment, readRun, hrun]

theorem readNewline_of_rest {stop : Text}
    (hstop : stop = [lineFeed] ∨ stop = [carriageReturn, lineFeed]) (hrest : c.rest = stop ++ q) :
    c.readNewline = (.ok (c.cut .newline stop.length), c.skip stop.length) := by
  unfold readNewline
  rcases hstop with rfl | rfl <;> rw [hrest] <;> rfl

end Cursor

namespace Lexer

variable {lx : Lexer} {q : Text}

/-- Inside a line its end is the next token. -/
theorem next_line_end {stop : Text} (hcolumn : lx.cursor.column ≠ 0)
    (hstop : stop = [lineFeed] ∨ stop = [carriageReturn, lineFeed])
    (hrest : lx.cursor.rest = stop ++ q) :
    lx.next = (.ok (lx.cursor.cut .newline stop.length), lx.skip stop.length) := by
  have hread := Cursor.readNewline_of_rest hstop hrest
  have hleading : lx.leading = [] := by
    rw [leading, Cursor.run, hrest]
    rcases hstop with rfl | rfl <;> rfl
  have hbehind : lx.behind = stop ++ q := by
    rw [behind, hleading, hrest]
    rfl
  have hlexeme : lx.readInLine = lx.onCursor Cursor.readNewline := by
    rcases hstop with rfl | rfl <;>
    · rw [readInLine_of_behind hbehind, hleading]
      rfl
  rw [next_of_column_ne_zero hcolumn, hlexeme, onCursor, hread]
  rfl

/-- At the start of a line a comment behind a run is read up to the end of the line. -/
theorem next_indented_comment {run body stop : Text} (hcolumn : lx.cursor.column = 0)
    (hne : run ≠ []) (hrun : ∀ u ∈ run, u = space ∨ u = tab)
    (hbody : ∀ u ∈ body, u ≠ carriageReturn ∧ u ≠ lineFeed)
    (hstop : stop = [lineFeed] ∨ stop = [carriageReturn, lineFeed])
    (hrest : lx.cursor.rest = run ++ (hash :: body ++ (stop ++ q))) :
    lx.next = (.ok ((lx.skip run.length).cursor.cut .comment (hash :: body).length),
      (lx.skip run.length).skip (hash :: body).length) := by
  have hspace : ∀ u ∈ run, isHorizontal u = true := by
    intro u hu
    simpa [isHorizontal] using hrun u hu
  have hinside : ∀ u ∈ hash :: body, (!isLineTerminator u) = true := by
    refine List.forall_mem_cons.2 ⟨by decide, fun u hu => ?_⟩
    obtain ⟨hreturn, hfeed⟩ := hbody u hu
    simp [isLineTerminator, hreturn, hfeed]
  have hleading : lx.leading = run := by
    rw [leading, Cursor.run, hrest, List.takeWhile_append_of_pos hspace]
    exact List.append_nil run
  have hbehind : lx.behind = hash :: (body ++ (stop ++ q)) := by
    rw [behind, hleading, hrest, List.drop_left]
    rfl
  have hfilled : LineShape.of lx.cursor.rest = .filled := by
    have hblank : ∀ u ∈ run, isBlank u = true := fun u hu => isBlank_of_isHorizontal (hspace u hu)
    rw [hrest, LineShape.of_append_eq_filled_iff hblank]
    exact LineShape.of_cons _ _
  have hcomment : (lx.skip run.length).cursor.rest = hash :: body ++ (stop ++ q) := by
    rw [skip_cursor, Cursor.rest_skip, hrest, List.drop_left]
  rw [next_comment hcolumn hfilled hbehind (hleading ▸ hne), hleading, onCursor,
    Cursor.readComment_of_rest hinside hstop hcomment]
  rfl

/-- A line that stands aside is read at every start of a line, and it leaves the blocks as
they are. -/
theorem calls_of_aside {l : Text} {entries : List (TokenKind × Text)} (hl : l.Aside entries)
    (hcolumn : lx.cursor.column = 0) (hrest : lx.cursor.rest = l ++ q) :
    ∃ tokens after, Calls Lexer.next lx tokens after ∧ tokens.map Token.entry = entries ∧
      after.cursor.rest = q ∧ after.blocks = lx.blocks := by
  cases hl with
  | @blank gap hgap =>
    have hblank : ∀ u ∈ gap, isBlank u = true := by
      intro u hu
      simpa [isBlank] using hgap u hu
    have hshape : LineShape.of lx.cursor.rest = .blank (gap ++ [lineFeed]).length := by
      rw [hrest, List.append_assoc, List.length_append]
      exact LineShape.of_blank hblank q
    refine ⟨_, _, .cons (next_of_blank hcolumn hshape) (.nil _), ?_, ?_, rfl⟩
    · rw [List.map_singleton, Cursor.entry_cut _ hrest]
    · rw [skip_cursor, Cursor.rest_skip, hrest, List.drop_left]
  | @comment run body stop hne hrun hbody hstop =>
    have hsplit : lx.cursor.rest = run ++ (hash :: body ++ (stop ++ q)) := by
      rw [hrest]
      simp
    have hfirst := next_indented_comment hcolumn hne hrun hbody hstop hsplit
    have hcomment : (lx.skip run.length).cursor.rest = hash :: body ++ (stop ++ q) := by
      rw [skip_cursor, Cursor.rest_skip, hsplit, List.drop_left]
    have hend : ((lx.skip run.length).skip (hash :: body).length).cursor.rest = stop ++ q := by
      rw [skip_cursor, Cursor.rest_skip, hcomment, List.drop_left]
    have hinner := (behind_of_next hfirst).inside_line (by simp [Cursor.cut])
      (by simp [Cursor.cut]) (by simp [Cursor.cut])
    have hsecond := next_line_end hinner hstop hend
    refine ⟨_, _, .cons hfirst (.cons hsecond (.nil _)), ?_, ?_, rfl⟩
    · rw [List.map_cons, List.map_singleton, Cursor.entry_cut _ hcomment, Cursor.entry_cut _ hend]
    · rw [skip_cursor, Cursor.rest_skip, hend, List.drop_left]

end Lexer

/-! ## Between two lines -/

/-- In column zero the text before the cursor ends a line. -/
theorem Cursor.At.endsLine_take {source : Text} {c : Cursor} (h : c.At source)
    (hcolumn : c.column = 0) : Text.EndsLine (source.take c.offset) := by
  obtain ⟨n, hn, rfl⟩ := h
  rw [offset_ofOffset hn]
  rcases (column_ofOffset_eq_zero_iff hn).1 hcolumn with rfl | hfeed
  · exact .inl rfl
  · by_cases hzero : n = 0
    · exact .inl (by rw [hzero, List.take_zero])
    · refine .inr ?_
      rw [List.getLast?_take, if_neg hzero, hfeed]
      rfl

/-- Behind a first part that ends a line the second begins, shifted by the first. -/
theorem Cursor.eq_shift_of_at {p q : Text} (hp : p.EndsLine) {c : Cursor} (hat : c.At (p ++ q))
    (hrest : c.rest = q) : c = (Cursor.ofSource q).shift p := by
  have hoffset : c.offset = p.length := by
    have hsum := hat.offset_add_length
    rw [hrest, List.length_append] at hsum
    omega
  obtain ⟨n, hn, rfl⟩ := hat
  rw [offset_ofOffset hn] at hoffset
  subst hoffset
  have hend : (ofOffset p p.length).At p := ⟨p.length, Nat.le_refl _, rfl⟩
  have hnil : (ofOffset p p.length).rest = [] := by simp
  rw [← append_eq_shift hp hend hnil q]
  have hwhole : ofSource (p ++ q) = (ofSource p).append q := rfl
  rw [ofOffset, hwhole]
  exact skip_append q (Nat.le_refl _)

/-- The tokens are those of the lines before an offset. -/
def Token.LineEndsAt (o : Nat) (tokens : List Token) : Prop :=
  o = 0 ∧ tokens = [] ∨
    ∃ t, tokens.getLast? = some t ∧ t.kind = .newline ∧ t.span.stop.offset = o

theorem Token.LineEndsAt.kind_getLast {o : Nat} {tokens : List Token}
    (h : Token.LineEndsAt o tokens) : ∀ t ∈ tokens.getLast?, t.kind = .newline := by
  intro t ht
  rcases h with ⟨-, rfl⟩ | ⟨last, hlast, hkind, -⟩
  · cases ht
  · rw [hlast] at ht
    cases ht
    exact hkind

theorem Scan.entry_shift (s : Scan) (p : Text) :
    (s.shift p).tokens.map Token.entry = s.tokens.map Token.entry := by
  simp [Scan.shift, Token.entry, Token.shift, Token.relocate]

namespace Lexer

/-- A token ends where the cursor comes to. -/
theorem stop_of_next {lx after : Lexer} {t : Token} (h : lx.next = (.ok t, after)) :
    t.span.stop = after.cursor.location := by
  obtain ⟨gap, width, hcovers⟩ := next_covers h
  rw [hcovers.span, hcovers.after]

/-- The tokens of a source up to the end of a line. -/
theorem exists_calls_of_line {source : Text} {tokens : List Token} {final : Lexer} {o : Nat}
    (h : Calls Lexer.next (ofSource source) tokens final)
    (ho : o = 0 ∨ ∃ t ∈ tokens, t.kind = .newline ∧ t.span.stop.offset = o) :
    ∃ before mid, Token.LineEndsAt o before ∧ Calls Lexer.next (ofSource source) before mid ∧
      mid.cursor.offset = o ∧ mid.cursor.column = 0 := by
  rcases ho with rfl | ⟨t, ht, hkind, hstop⟩
  · exact ⟨[], ofSource source, .inl ⟨rfl, rfl⟩, .nil _, rfl, rfl⟩
  · obtain ⟨before, after, rfl⟩ := List.append_of_mem ht
    obtain ⟨lx, hbefore, hrest⟩ := h.split
    cases hrest with
    | @cons _ mid _ _ _ hstep _ =>
      have hoffset : mid.cursor.offset = o := by
        rw [stop_of_next hstep] at hstop
        exact Int.ofNat.inj hstop
      refine ⟨before ++ [t], mid, .inr ⟨t, by simp, hkind, hstop⟩, hbefore.snoc hstep, hoffset, ?_⟩
      exact ((behind_of_next hstep).column (by simp [hkind]) (by simp [hkind])).2 hkind

/-- Behind a first part that ends a line the scan is the one of the second, shifted. -/
theorem scan_eq_shift {p q : Text} {lx : Lexer} (hp : p.EndsLine)
    (hat : lx.cursor.At (p ++ q)) (hrest : lx.cursor.rest = q) :
    lx.scan = (resume q lx.blocks).scan.shift p := by
  have hlexer : lx = (resume q lx.blocks).shift p := by
    show lx = ⟨(Cursor.ofSource q).shift p, lx.blocks⟩
    rw [← Cursor.eq_shift_of_at hp hat hrest]
  rw [← scan_shift, ← hlexer]

/-- The tokens of the first lines are read in front of any text that may follow these lines,
and a line that stands aside is read behind them. -/
theorem calls_insert {p q l : Text} {entries : List (TokenKind × Text)} {before : List Token}
    {mid : Lexer} (hp : p.EndsLine) (hl : l.Aside entries)
    (hcalls : Calls Lexer.next (ofSource (p ++ q)) before mid) (hrest : mid.cursor.rest = q)
    (hcolumn : mid.cursor.column = 0) (hlast : ∀ t ∈ before.getLast?, t.kind = .newline) :
    (∀ t ∈ before, t.isTail p.length = false ∧ t.kind ≠ .endOfStream) ∧
      ∃ inner tokens after, Calls Lexer.next (ofSource (p ++ l ++ q)) before inner ∧
        Calls Lexer.next inner tokens after ∧ tokens.map Token.entry = entries ∧
        after.cursor.rest = q ∧ after.blocks = mid.blocks := by
  have hat : (ofSource p).cursor.At p := ⟨0, Nat.zero_le _, rfl⟩
  have hwhole : ofSource (p ++ q) = (ofSource p).append q := rfl
  obtain ⟨first, hfirst, rfl, hbefore⟩ := calls_of_append hp hcalls hwhole hat hrest hlast
  have hnil : first.cursor.rest = [] := List.append_left_eq_self.1 hrest
  have hline := calls_append hp hat hfirst (fun t ht => (hbefore t ht).1) (l ++ q)
  have hahead : (first.append (l ++ q)).cursor.rest = l ++ q := by
    show first.cursor.rest ++ (l ++ q) = l ++ q
    rw [hnil, List.nil_append]
  have hcolumn : (first.append (l ++ q)).cursor.column = 0 := hcolumn
  obtain ⟨tokens, after, haside, hentries, hafter, hblocks⟩ := calls_of_aside hl hcolumn hahead
  refine ⟨hbefore, first.append (l ++ q), tokens, after, ?_, haside, hentries, hafter, hblocks⟩
  rw [List.append_assoc]
  exact hline

/-- The scan goes on behind the added line as it did without it. -/
theorem scan_insert {p q l : Text} {entries : List (TokenKind × Text)} {before : List Token}
    {mid : Lexer} (hp : p.EndsLine) (hl : l.Aside entries)
    (hcalls : Calls Lexer.next (ofSource (p ++ q)) before mid) (hrest : mid.cursor.rest = q)
    (hcolumn : mid.cursor.column = 0) (hlast : ∀ t ∈ before.getLast?, t.kind = .newline)
    (hfault : (ofSource (p ++ q)).scan.fault = none) :
    ∃ after, (ofSource (p ++ q)).scan.tokens = before ++ after ∧
      (∀ t ∈ before, t.isTail p.length = false) ∧
      (ofSource (p ++ l ++ q)).scan.fault = none ∧
      (ofSource (p ++ l ++ q)).scan.tokens.map Token.entry =
        before.map Token.entry ++ entries ++ after.map Token.entry := by
  obtain ⟨hbefore, inner, added, behind, hfirst, hadded, hentries, hbehind, hblocks⟩ :=
    calls_insert hp hl hcalls hrest hcolumn hlast
  have hends : ∀ t ∈ added, t.kind ≠ .endOfStream := by
    intro t ht
    have hmem : t.entry ∈ entries := hentries ▸ List.mem_map_of_mem ht
    exact hl.ne_endOfStream t.entry hmem
  have hpl : (p ++ l).EndsLine := .inr (by rw [List.getLast?_append, hl.endsLine]; rfl)
  have hstart : ∀ source, (ofSource source).cursor.At source := fun _ => ⟨0, Nat.zero_le _, rfl⟩
  have hat := cursor_at_calls (cursor_at_calls (hstart _) hfirst) hadded
  -- Both scans go on with the same text in the same blocks.
  have hold := scan_of_calls hcalls fun t ht => (hbefore t ht).2
  have hnew := scan_of_calls hfirst fun t ht => (hbefore t ht).2
  rw [scan_eq_shift hp (cursor_at_calls (hstart _) hcalls) hrest] at hold
  rw [scan_of_calls hadded hends, scan_eq_shift hpl hat hbehind, hblocks] at hnew
  rw [hold] at hfault
  rw [hold, hnew]
  refine ⟨_, rfl, fun t ht => (hbefore t ht).1, ?_, ?_⟩
  · exact Option.map_eq_none_iff.2 (Option.map_eq_none_iff.1 hfault)
  · rw [List.map_append, List.map_append, hentries, Scan.entry_shift, Scan.entry_shift,
      List.append_assoc]

end Lexer

/-- A line that stands aside may be added in front of a source and behind each of its lines.

* The source still has tokens.
* What is read from the line comes right behind the line end at that place, and so before
  every block that is closed there.
* All other tokens are the same, up to their places. -/
theorem tokenize_insert {source l : Text} {tokens : List Token}
    {entries : List (TokenKind × Text)} {o : Nat} (h : tokenize source true = .ok tokens)
    (ho : o = 0 ∨ ∃ t ∈ tokens, t.kind = .newline ∧ t.span.stop.offset = o)
    (hl : l.Aside entries) :
    ∃ before after result, tokens = before ++ after ∧ Token.LineEndsAt o before ∧
      (∀ t ∈ before, t.kind = .dedent → t.span.start.offset ≠ o) ∧
      tokenize (source.take o ++ l ++ source.drop o) true = .ok result ∧
      result.map Token.entry = before.map Token.entry ++ entries ++ after.map Token.entry := by
  obtain ⟨hfault, rfl⟩ := tokenize_eq_ok_iff.1 h
  have htiles : Tiling source 0 (Lexer.ofSource source).scan.tokens :=
    Lexer.scan_tiles (Lexer.ofSource source) (Nat.zero_le _) rfl hfault
  obtain ⟨hcalls, -⟩ := Lexer.calls_of_scan_end hfault
  obtain ⟨before, mid, hline, hbefore, hoffset, hcolumn⟩ := Lexer.exists_calls_of_line hcalls ho
  have hat := Lexer.cursor_at_calls ⟨0, Nat.zero_le _, rfl⟩ hbefore
  have hlen := hat.offset_add_length
  have hp := hat.endsLine_take hcolumn
  have hrest := hat.rest_eq
  obtain ⟨p, q, rfl, rfl⟩ : ∃ p q, source = p ++ q ∧ o = p.length := by
    refine ⟨source.take o, source.drop o, (List.take_append_drop o source).symm, ?_⟩
    rw [List.length_take]
    omega
  rw [hoffset, List.take_left] at hp
  rw [hoffset, List.drop_left] at hrest
  obtain ⟨after, hsplit, hinner, hnone, hentries⟩ :=
    Lexer.scan_insert hp hl hbefore hrest hcolumn hline.kind_getLast hfault
  rw [List.take_left, List.drop_left]
  refine ⟨before, after, _, hsplit, hline, ?_, tokenize_eq_ok_iff.2 ⟨hnone, rfl⟩, hentries⟩
  intro t ht hkind hstart
  have hmem : t ∈ (Lexer.ofSource (p ++ q)).scan.tokens := by
    rw [hsplit]
    exact List.mem_append_left after ht
  have hpoint := htiles.mark t hmem (.inl hkind)
  have htail := hinner t ht
  simp [Token.isTail, hkind, ← hpoint, hstart] at htail

/-- A comment that is indented by a tab stands between a line in two blocks and the line that
closes both. -/
theorem tokenize_insert_before_closed_blocks :
    let source : Text := "a\n b\n  c\nd"
    let l : Text := "\t# x\r\n"
    let entries : List (TokenKind × Text) := [(.comment, "# x"), (.newline, "\r\n")]
    let tokens := (Lexer.ofSource source).scan.tokens
    let result := (Lexer.ofSource (source.take 9 ++ l ++ source.drop 9)).scan.tokens
    tokenize source true = .ok tokens ∧
      (9 = 0 ∨ ∃ t ∈ tokens, t.kind = .newline ∧ t.span.stop.offset = (9 : Nat)) ∧
      l.Aside entries ∧
      result.map (·.kind) =
        [.identifier, .newline, .indent, .identifier, .newline, .indent, .identifier, .newline,
          .comment, .newline, .dedent, .dedent, .identifier, .endOfStream] ∧
      ∃ before after, tokens = before ++ after ∧ Token.LineEndsAt 9 before ∧
        (∀ t ∈ before, t.kind = .dedent → t.span.start.offset ≠ (9 : Nat)) ∧
        tokenize (source.take 9 ++ l ++ source.drop 9) true = .ok result ∧
        result.map Token.entry =
          before.map Token.entry ++ entries ++ after.map Token.entry := by
  intro source l entries tokens result
  have h : tokenize source true = .ok tokens := by decide +kernel
  have ho : 9 = 0 ∨ ∃ t ∈ tokens, t.kind = .newline ∧ t.span.stop.offset = (9 : Nat) := by
    decide +kernel
  have hbody : ∀ u ∈ ([space, 0x78] : Text), u ≠ carriageReturn ∧ u ≠ lineFeed :=
    List.forall_mem_cons.2 ⟨by decide, List.forall_mem_singleton.2 (by decide)⟩
  have hl : l.Aside entries :=
    @Text.Aside.comment [tab] [space, 0x78] [carriageReturn, lineFeed] (by decide)
      (List.forall_mem_singleton.2 (.inr rfl)) hbody (.inr rfl)
  have hkinds : result.map (·.kind) =
      [.identifier, .newline, .indent, .identifier, .newline, .indent, .identifier, .newline,
        .comment, .newline, .dedent, .dedent, .identifier, .endOfStream] := by decide +kernel
  obtain ⟨before, after, more, hsplit, hline, hdedent, hmore, hentries⟩ :=
    tokenize_insert h ho hl
  have hresult : result = more := (tokenize_eq_ok_iff.1 hmore).2
  rw [← hresult] at hmore hentries
  exact ⟨h, ho, hl, hkinds, before, after, hsplit, hline, hdedent, hmore, hentries⟩

end SceneTokens
