import SceneTokens.Proofs.Insertion
import SceneTokens.Proofs.Spelling

/-!
# Space behind a token

Spaces and tabs inside a line separate tokens and do nothing else.  They may be added behind
any token with which a line goes on; the tokens stay the same, and those behind the added
space are further along.

* In front of the space nothing changes: no such token goes on with a space or a tab
  (`TokenKind.stops_of_isHorizontal`), and so the tokens up to it are read as before,
  `Lexer.calls_change`.
* The space itself is passed over, `Lexer.readInLine_skip`.
* Behind it the same text is ahead in the same blocks.  All places are moved by the width of the
  space, the columns on its own line only: `Cursor.Pushed.mirrors` and `Lexer.scan_push`.

Main statement: `tokenize_inner_space`.
-/

namespace SceneTokens

open CodeUnit

/-! ## In front of the space -/

theorem TokenKind.stops_of_isHorizontal {kind : TokenKind} {v : CodeUnit}
    (hkind : kind.isContent = true) (hv : isHorizontal v = true) : kind.stops v = true := by
  rw [isHorizontal, Bool.or_eq_true, beq_iff_eq, beq_iff_eq] at hv
  cases kind with
  | identifier | integer | string | symbol => rcases hv with rfl | rfl <;> decide
  | endOfStream | newline | indent | dedent | comment => cases hkind

theorem TokenKind.isLexeme_of_isContent {kind : TokenKind} (h : kind.isContent = true) :
    kind.isLexeme = true := by
  cases kind with
  | identifier | integer | string | symbol => rfl
  | endOfStream | newline | indent | dedent | comment => cases h

theorem TokenKind.ne_of_isContent {kind : TokenKind} (h : kind.isContent = true) :
    kind ≠ .newline ∧ kind ≠ .dedent ∧ kind ≠ .endOfStream := by
  cases kind with
  | identifier | integer | string | symbol => exact ⟨nofun, nofun, nofun⟩
  | endOfStream | newline | indent | dedent | comment => cases h

theorem isSpace_of_isIdentifierPart {u : CodeUnit} (h : isIdentifierPart u = true) :
    isSpace u = false := by
  simp only [isIdentifierPart, isIdentifierStart, isLetter, isDigit, isSpace, Bool.or_eq_true,
    Bool.and_eq_true, decide_eq_true_eq, beq_iff_eq, Bool.or_eq_false_iff, Bool.and_eq_false_iff,
    decide_eq_false_iff_not, beq_eq_false_iff_ne, UInt16.le_iff_toNat_le, ← UInt16.toNat_inj,
    ne_eq, underscore, dollar, UInt16.reduceToNat] at h ⊢
  omega

theorem isSpace_of_isPair {u v : CodeUnit} (h : isPair u v = true) : isSpace u = false := by
  simp only [isPair, isHighSurrogate, isSpace, Bool.and_eq_true, decide_eq_true_eq,
    Bool.or_eq_false_iff, Bool.and_eq_false_iff, decide_eq_false_iff_not, beq_eq_false_iff_ne,
    UInt16.le_iff_toNat_le, ← UInt16.toNat_inj, ne_eq, UInt16.reduceToNat] at h ⊢
  omega

/-- A token with which a line goes on has something on the line. -/
theorem TokenKind.Spelling.exists_not_isBlank {column : Int} {before after : Option CodeUnit}
    {kind : TokenKind} {t : Text} (h : kind.Spelling column before after t)
    (hkind : kind.isContent = true) : ∃ v ∈ t, isBlank v = false := by
  obtain ⟨v, hmem, hspace⟩ : ∃ v ∈ t, isSpace v = false := by
    cases h with
    | @identifier u rest hstart =>
      refine ⟨u, List.mem_cons_self, isSpace_of_isIdentifierPart ?_⟩
      rw [isIdentifierPart, hstart, Bool.true_or]
    | @integer u rest hdigits =>
      refine ⟨u, List.mem_cons_self, isSpace_of_isIdentifierPart ?_⟩
      rw [isIdentifierPart, hdigits u List.mem_cons_self, Bool.or_true]
    | @string quote body hquote => exact ⟨quote, List.mem_cons_self, isSpace_of_isQuote hquote⟩
    | @pair high low hpair => exact ⟨high, List.mem_cons_self, isSpace_of_isPair hpair⟩
    | @unit u _ _ hspace => exact ⟨u, List.mem_cons_self, hspace⟩
    | comment | lineEnd | blankLine => cases hkind
  exact ⟨v, hmem, isBlank_eq_false_of_isSpace hspace⟩

namespace Lexer

variable {lx whole last : Lexer} {q : Text}

/-- With something on a line still to be read in front of a text, the tokens are read in front of
any other text. -/
theorem calls_change {tokens : List Token} {r : Text} {v : CodeUnit}
    (h : Calls Lexer.next whole tokens last) (hwhole : whole = lx.append q)
    (hrest : last.cursor.rest = r ++ q) (hmem : v ∈ r) (hv : isBlank v = false) (q' : Text) :
    ∃ mid : Lexer, last = mid.append q ∧
      Calls Lexer.next (lx.append q') tokens (mid.append q') := by
  induction h generalizing lx with
  | nil => exact ⟨lx, hwhole, .nil _⟩
  | @cons whole next last t tokens hstep hmore ih =>
    have hpos := List.length_pos_of_mem hmem
    have hlen : r.length + q.length ≤ next.cursor.rest.length := by
      rw [← List.length_append, ← hrest]
      exact (rest_suffix_calls hmore).length_le
    have hahead : v ∈ lx.cursor.rest := by
      obtain ⟨first, hfirst⟩ := rest_suffix_calls (.cons hstep hmore)
      rw [hrest, hwhole, ← List.append_assoc] at hfirst
      rw [← List.append_cancel_right hfirst]
      exact List.mem_append_right first hmem
    rw [hwhole] at hstep
    obtain ⟨mid, hmid, hnext⟩ := next_change hahead hv hstep (by omega) fun hlast => by omega
    obtain ⟨final, hfinal, hcalls⟩ := ih hmid hrest
    exact ⟨final, hfinal, .cons hnext hcalls⟩

end Lexer

/-! ## Behind the space -/

/-- Where a place is once `width` units are added in front of it, in the line `row`.  Only in
that line its column changes. -/
def Location.pushed (row : Int) (width : Nat) (l : Location) : Location where
  line := l.line
  column := if l.line = row then l.column + width else l.column
  offset := l.offset + width

/-- The two cursors have the same text ahead.  The second is further along by `width` units that
were added in the line `row`, and as long as it is in that line so is its column. -/
structure Cursor.Pushed (row width : Nat) (c c' : Cursor) : Prop where
  rest : c'.rest = c.rest
  line : c'.line = c.line
  offset : c'.offset = c.offset + width
  column : c.line = row ∧ c.column ≠ 0 ∧ c'.column = c.column + width ∨
    row < c.line ∧ c'.column = c.column

namespace Cursor.Pushed

variable {row width : Nat} {c c' : Cursor} (h : c.Pushed row width c')
include h

theorem advance : c.advance.Pushed row width c'.advance := by
  obtain ⟨hrest, hline, hoffset, hcolumn⟩ := h
  unfold Cursor.advance
  rw [hrest]
  cases c.rest with
  | nil => exact ⟨hrest, hline, hoffset, hcolumn⟩
  | cons u rest =>
    by_cases hu : (u == lineFeed) = true
    · -- The next line is a later one.
      simp only [hu, if_true]
      refine ⟨rfl, ?_, ?_, .inr ⟨?_, rfl⟩⟩ <;> dsimp only <;> omega
    · simp only [hu, if_false, Bool.false_eq_true]
      refine ⟨rfl, hline, ?_, ?_⟩ <;> dsimp only <;> omega

theorem skip (n : Nat) : (c.skip n).Pushed row width (c'.skip n) := by
  induction n generalizing c c' with
  | zero => exact h
  | succ n ih => exact ih h.advance

theorem location : c'.location = c.location.pushed row width := by
  obtain ⟨-, hline, hoffset, hcolumn⟩ := h
  unfold Cursor.location Location.pushed
  rw [hline, hoffset]
  rcases hcolumn with ⟨hrow, -, hcolumn⟩ | ⟨hrow, hcolumn⟩
  · rw [if_pos (by dsimp only; omega), hcolumn]
    rfl
  · rw [if_neg (by dsimp only; omega), hcolumn]
    rfl

theorem mirrors : c.Mirrors (·.pushed row width) c' := by
  refine ⟨h.rest, ?_, ?_⟩
  · intro n _
    exact (h.skip n).location
  · intro n _
    have hcolumn := (h.skip n).column
    omega

end Cursor.Pushed

namespace Lexer

variable {lx : Lexer}

theorem scan_congr {lx' : Lexer} (h : lx.next = lx'.next) : lx.scan = lx'.scan := by
  rcases hnext : lx'.next with ⟨fault | t, after⟩
  · rw [scan_of_error (h.trans hnext), scan_of_error hnext]
  · rw [scan_of_ok (h.trans hnext), scan_of_ok hnext]

/-- Spaces and tabs are passed over together with the run behind them. -/
theorem readInLine_skip {w q : Text} (hw : ∀ u ∈ w, isHorizontal u = true)
    (hrest : lx.cursor.rest = w ++ q) : (lx.skip w.length).readInLine = lx.readInLine := by
  have hskip : (lx.skip w.length).cursor.skipWhile isHorizontal =
      lx.cursor.skipWhile isHorizontal := by
    unfold Cursor.skipWhile Cursor.run
    rw [skip_cursor, Cursor.rest_skip, hrest, List.drop_left, List.takeWhile_append_of_pos hw,
      List.length_append, Cursor.skip_add]
  rw [readInLine, readInLine, hskip]
  rfl

/-- Behind a token inside a line, added spaces and tabs push along what is read. -/
theorem scan_push {w q : Text} (hcolumn : lx.cursor.column ≠ 0) (hend : lx.cursor.rest = [])
    (hw : ∀ u ∈ w, isHorizontal u = true) :
    let move : Location → Location := (·.pushed lx.cursor.line w.length)
    (lx.append (w ++ q)).scan.tokens = (lx.append q).scan.tokens.map (·.relocate move) ∧
      (lx.append (w ++ q)).scan.fault = (lx.append q).scan.fault.map (·.relocate move) := by
  intro move
  have hrest : (lx.append (w ++ q)).cursor.rest = w ++ q := by
    rw [cursor_append, Cursor.append, hend]
    rfl
  have hn : w.length ≤ (lx.append (w ++ q)).cursor.rest.length := by
    rw [hrest, List.length_append]
    omega
  have hfeed : lineFeed ∉ (lx.append (w ++ q)).cursor.rest.take w.length := by
    rw [hrest, List.take_left]
    intro hmem
    exact absurd (hw _ hmem) (by decide)
  obtain ⟨hline, hplace⟩ := Cursor.line_column_skip_of_notMem hn hfeed
  have hinner : (lx.append (w ++ q)).cursor.column ≠ 0 := hcolumn
  have hnext : (lx.append (w ++ q)).next = ((lx.append (w ++ q)).skip w.length).next := by
    rw [next_of_column_ne_zero hinner, next_of_column_ne_zero (by rw [skip_cursor]; omega),
      readInLine_skip hw hrest]
  have hpushed : (lx.append q).cursor.Pushed lx.cursor.line w.length
      ((lx.append (w ++ q)).skip w.length).cursor := by
    refine ⟨?_, hline, Cursor.offset_skip hn, .inl ⟨rfl, hcolumn, hplace⟩⟩
    rw [skip_cursor, Cursor.rest_skip, hrest, List.drop_left, cursor_append, Cursor.append, hend]
    rfl
  have hmirrors : (lx.append q).Mirrors move ((lx.append (w ++ q)).skip w.length) :=
    ⟨hpushed.mirrors, rfl⟩
  obtain ⟨n, -, -, hscan⟩ := scan_relocate hmirrors
  rw [scan_congr hnext, hscan]
  exact ⟨rfl, rfl⟩

end Lexer

/-! ## Behind a token -/

namespace Lexer

/-- The steps up to a token of a source, and the one that gives it. -/
theorem exists_calls_of_scan {lx : Lexer} {before after : List Token} {t : Token}
    (hfault : lx.scan.fault = none) (htokens : lx.scan.tokens = before ++ t :: after)
    (hkind : t.kind ≠ .endOfStream) :
    ∃ mid inner, Calls Lexer.next lx before mid ∧ mid.next = (.ok t, inner) ∧
      inner.scan.tokens = after ∧ inner.scan.fault = none ∧
      ∀ s ∈ before ++ [t], s.kind ≠ .endOfStream := by
  obtain ⟨hcalls, body, last, hbody, hlast, hends⟩ := calls_of_scan_end hfault
  rw [htokens] at hcalls hbody
  obtain ⟨mid, hbefore, hmore⟩ := hcalls.split
  cases hmore with
  | @cons _ inner _ _ _ hstep _ =>
    -- Only the last token of all is the end of the stream, and `t` is before it.
    have hkinds : ∀ s ∈ before ++ [t], s.kind ≠ .endOfStream := by
      have hpart : before ++ [t] <+: body ++ [last] := ⟨after, by rw [← hbody]; simp⟩
      rcases List.prefix_concat_iff.1 hpart with heq | hpart
      · obtain ⟨-, hsame⟩ := List.append_inj' heq rfl
        rw [List.singleton_inj.1 hsame] at hkind
        exact absurd hlast hkind
      · exact fun s hs => hends s (hpart.subset hs)
    have hscan := scan_of_calls (hbefore.snoc hstep) hkinds
    rw [hscan] at hfault htokens
    refine ⟨mid, inner, hbefore, hstep, ?_, hfault, hkinds⟩
    simpa using htokens

/-- The units of a token are ahead in front of it and not behind it. -/
theorem exists_rest_of_next {lx after : Lexer} {t : Token} (hstep : lx.next = (.ok t, after))
    (hdedent : t.kind ≠ .dedent) {v : CodeUnit} (hmem : v ∈ t.value) :
    ∃ r, lx.cursor.rest = r ++ after.cursor.rest ∧ v ∈ r := by
  obtain ⟨gap, width, hcovers⟩ := next_covers hstep
  refine ⟨lx.cursor.rest.take (gap + width), ?_, ?_⟩
  · rw [hcovers.after, Cursor.rest_skip, List.take_append_drop]
  · rw [hcovers.value hdedent] at hmem
    rw [List.take_add]
    exact List.mem_append_right _ hmem

/-- The tokens up to one with which a line goes on are read in front of added space. -/
theorem calls_push {p q w : Text} {before : List Token} {t : Token} {last after : Lexer}
    (hcalls : Calls Lexer.next (ofSource (p ++ q)) before last)
    (hstep : last.next = (.ok t, after)) (hkind : t.kind.isContent = true)
    (hrest : after.cursor.rest = q) (hw : ∀ u ∈ w, isHorizontal u = true) :
    ∃ mid : Lexer, after = mid.append q ∧ mid.cursor.rest = [] ∧
      Calls Lexer.next (ofSource (p ++ (w ++ q))) (before ++ [t]) (mid.append (w ++ q)) := by
  cases w with
  | nil =>
    -- Nothing is added, and the steps are the old ones.
    have hafter : after = Lexer.append ⟨{ after.cursor with rest := [] }, after.blocks⟩ q := by
      rw [← hrest]
      rfl
    exact ⟨_, hafter, rfl, hafter ▸ hcalls.snoc hstep⟩
  | cons u w =>
    -- The token has a unit that is not blank.  It is ahead of every step up to the token, so no
    -- line start is looked over as far as the place of the space.
    have hspelled : t.SpelledIn (p ++ q) :=
      spelledIn_of_calls ⟨0, Nat.zero_le _, rfl⟩ (fun u hu => by cases hu) (hcalls.snoc hstep) t
        List.mem_concat_self (TokenKind.isLexeme_of_isContent hkind)
    obtain ⟨v, hmem, hv⟩ := hspelled.spelling.exists_not_isBlank hkind
    obtain ⟨r, hsplit, hmem⟩ :=
      exists_rest_of_next hstep (TokenKind.ne_of_isContent hkind).2.1 hmem
    rw [hrest] at hsplit
    have hwhole : ofSource (p ++ q) = (ofSource p).append q := rfl
    obtain ⟨lx, rfl, hfirst⟩ := calls_change hcalls hwhole hsplit hmem hv (u :: w ++ q)
    have hahead : v ∈ lx.cursor.rest := by
      rw [List.append_cancel_right hsplit]
      exact hmem
    have hstop : ∀ v ∈ (u :: w ++ q).head?, t.kind.stops v = true := by
      rintro _ ⟨⟩
      exact TokenKind.stops_of_isHorizontal hkind (hw u List.mem_cons_self)
    obtain ⟨mid, rfl, hnext⟩ := next_change hahead hv hstep (Nat.le_of_eq (by rw [hrest]))
      fun _ => .inr hstop
    exact ⟨mid, rfl, List.append_left_eq_self.1 hrest, hfirst.snoc hnext⟩

/-- The scan of a source with space added behind a token with which a line goes on. -/
theorem scan_ofSource_push {p q w : Text} {before after : List Token} {t : Token}
    (hfault : (ofSource (p ++ q)).scan.fault = none)
    (htokens : (ofSource (p ++ q)).scan.tokens = before ++ t :: after)
    (hkind : t.kind.isContent = true) (hstop : t.span.stop.offset = p.length)
    (hw : ∀ u ∈ w, isHorizontal u = true) :
    (ofSource (p ++ (w ++ q))).scan.fault = none ∧
      (ofSource (p ++ (w ++ q))).scan.tokens =
        before ++ t :: after.map (·.relocate (·.pushed t.span.stop.line w.length)) := by
  obtain ⟨hnewline, hdedent, hend⟩ := TokenKind.ne_of_isContent hkind
  obtain ⟨last, behind, hcalls, hstep, hafter, hnone, hkinds⟩ :=
    exists_calls_of_scan hfault htokens hend
  have hat := cursor_at_calls ⟨0, Nat.zero_le _, rfl⟩ (hcalls.snoc hstep)
  have hcolumn := (behind_of_next hstep).inside_line hnewline hdedent hend
  have hplace := stop_of_next hstep
  have hrest : behind.cursor.rest = q := by
    rw [hplace] at hstop
    have hoffset : behind.cursor.offset = p.length := Int.ofNat.inj hstop
    rw [hat.rest_eq, hoffset, List.drop_left]
  obtain ⟨mid, rfl, hnil, hnew⟩ := calls_push hcalls hstep hkind hrest hw
  have hinner : mid.cursor.column ≠ 0 := hcolumn
  obtain ⟨hmoved, hfaultless⟩ := scan_push (q := q) hinner hnil hw
  rw [scan_of_calls hnew hkinds, hmoved, hfaultless, hnone, hafter, hplace, List.append_assoc]
  exact ⟨rfl, rfl⟩

end Lexer

/-- Spaces and tabs may be added behind every token with which a line goes on.

* The source still has tokens, of the same kinds and with the same values.
* Up to the token behind which the space is, nothing moves.
* All later offsets are moved by the width of the space.  So are the columns on the line where
  the space is, and no line changes. -/
theorem tokenize_inner_space {source w : Text} {before after : List Token} {t : Token} {o : Nat}
    (h : tokenize source true = .ok (before ++ t :: after)) (hkind : t.kind.isContent = true)
    (ho : t.span.stop.offset = o) (hw : ∀ u ∈ w, u = space ∨ u = tab) :
    tokenize (source.take o ++ w ++ source.drop o) true =
      .ok (before ++ t :: after.map (·.relocate (·.pushed t.span.stop.line w.length))) := by
  obtain ⟨hfault, htokens⟩ := tokenize_eq_ok_iff.1 h
  have hexact : (Lexer.ofSource source).scan.Exact source :=
    Lexer.exact_scan ⟨0, Nat.zero_le _, rfl⟩
  obtain ⟨n, hn, hplace⟩ := (hexact.tokens t (by rw [htokens]; simp)).stop
  have hoffset : o = n := by
    rw [hplace] at ho
    exact (Int.ofNat.inj ho).symm
  obtain ⟨p, q, rfl, rfl⟩ : ∃ p q, source = p ++ q ∧ o = p.length := by
    refine ⟨source.take o, source.drop o, (List.take_append_drop o source).symm, ?_⟩
    rw [List.length_take]
    omega
  have hspace : ∀ u ∈ w, isHorizontal u = true := by
    intro u hu
    rcases hw u hu with rfl | rfl <;> decide
  rw [List.take_left, List.drop_left, List.append_assoc]
  exact tokenize_eq_ok_iff.2 (Lexer.scan_ofSource_push hfault htokens hkind ho hspace)

/-- Space behind a string over two lines.  The token behind the string is in its last line and
moves to the right, and the next line keeps its columns. -/
theorem tokenize_inner_space_two_lines :
    let source : Text := "x 'a\\\nb'c\n d"
    let w : Text := " \t"
    let literal : Token := ⟨.string, "'a\\\nb'", ⟨⟨1, 2, 2⟩, ⟨2, 2, 8⟩⟩⟩
    let name : Token := ⟨.identifier, "c", ⟨⟨2, 2, 8⟩, ⟨2, 3, 9⟩⟩⟩
    let before := (Lexer.ofSource source).scan.tokens.take 1
    let after := (Lexer.ofSource source).scan.tokens.drop 3
    let moved := (name :: after).map (·.relocate (·.pushed 2 2))
    tokenize source true = .ok (before ++ literal :: name :: after) ∧
      moved.map (·.span.start) =
        [⟨2, 4, 10⟩, ⟨2, 5, 11⟩, ⟨3, 0, 12⟩, ⟨3, 1, 13⟩, ⟨3, 2, 14⟩, ⟨3, 2, 14⟩] ∧
      tokenize (source.take 8 ++ w ++ source.drop 8) true = .ok (before ++ literal :: moved) := by
  intro source w literal name before after moved
  have h : tokenize source true = .ok (before ++ literal :: name :: after) := by decide +kernel
  have hmoved : moved.map (·.span.start) =
      [⟨2, 4, 10⟩, ⟨2, 5, 11⟩, ⟨3, 0, 12⟩, ⟨3, 1, 13⟩, ⟨3, 2, 14⟩, ⟨3, 2, 14⟩] := by
    decide +kernel
  have hw : ∀ u ∈ w, u = space ∨ u = tab :=
    List.forall_mem_cons.2 ⟨.inl rfl, List.forall_mem_singleton.2 (.inr rfl)⟩
  exact ⟨h, hmoved, tokenize_inner_space h rfl rfl hw⟩

end SceneTokens
