import SceneTokens.Proofs.Causes

/-!
# The text behind a token

A source is read up to a place between two tokens.  What stands behind that place may then be
another text: the tokens in front of it stay as they are, as long as the last of them does not
go on into the new text.

* `TokenKind.stops`: the units in front of which a token of a kind is at its end.
* `Cursor.append` and `Lexer.append` put a text behind the source of a state.
* `Cursor.readLexeme_change`: a lexeme that is read in front of one text is read in front of
  another.  No reader looks further than to the unit behind its token.
* `Lexer.next_change`: so does a step.  The start of a line is looked over up to the first
  unit that is not blank, so such a unit has to be ahead.
-/

namespace SceneTokens

open CodeUnit

/-- A token of the kind does not go on with the unit. -/
def TokenKind.stops : TokenKind → CodeUnit → Bool
  | .identifier, v => !isIdentifierPart v
  | .integer, v => !isDigit v
  | .comment, v => isLineTerminator v
  | .symbol, v => !isLowSurrogate v
  | .newline, _ | .string, _ | .indent, _ | .dedent, _ | .endOfStream, _ => true

/-! ## Runs -/

namespace Text

variable {p : CodeUnit → Bool} {t q : Text} {u : CodeUnit}

/-- A run that ends inside a text does not depend on what follows the text. -/
theorem takeWhile_append_of_mem (hmem : u ∈ t) (hp : p u = false) (q : Text) :
    (t ++ q).takeWhile p = t.takeWhile p := by
  rw [List.takeWhile_append, if_neg]
  intro hlen
  have hself : t.takeWhile p = t := (List.takeWhile_prefix p).eq_of_length hlen
  rw [List.takeWhile_eq_self_iff.1 hself u hmem] at hp
  cases hp

theorem dropWhile_append_of_mem (hmem : u ∈ t) (hp : p u = false) (q : Text) :
    (t ++ q).dropWhile p = t.dropWhile p ++ q := by
  have hle : (t.takeWhile p).length ≤ t.length := (List.takeWhile_sublist p).length_le
  rw [← drop_length_takeWhile, takeWhile_append_of_mem hmem hp, List.drop_append_of_le_length hle,
    drop_length_takeWhile]

/-- What is left behind the run still has the unit in it. -/
theorem mem_dropWhile (hmem : u ∈ t) (hp : p u = false) : u ∈ t.dropWhile p := by
  rw [← List.takeWhile_append_dropWhile (p := p) (l := t), List.mem_append] at hmem
  refine hmem.resolve_left fun hrun => ?_
  rw [List.mem_takeWhile_imp hrun] at hp
  cases hp

/-- A run that ends in front of a text ends there in front of any other text that it does not
go on with. -/
theorem takeWhile_change {q' : Text} (hle : ((t ++ q).takeWhile p).length ≤ t.length)
    (hstop : ((t ++ q).takeWhile p).length = t.length →
      (∃ u ∈ t, p u = false) ∨ ∀ v ∈ q'.head?, p v = false) :
    (t ++ q').takeWhile p = (t ++ q).takeWhile p := by
  by_cases hlen : (t.takeWhile p).length = t.length
  · rw [List.takeWhile_append, if_pos hlen] at hle hstop
    have hnil : q.takeWhile p = [] := by
      apply List.eq_nil_of_length_eq_zero
      rw [List.length_append] at hle
      omega
    have hnil' : q'.takeWhile p = [] := by
      rcases hstop (by rw [hnil, List.append_nil]) with ⟨u, hmem, hu⟩ | hstop
      · have hself : t.takeWhile p = t := (List.takeWhile_prefix p).eq_of_length hlen
        rw [List.takeWhile_eq_self_iff.1 hself u hmem] at hu
        cases hu
      · cases q' with
        | nil => rfl
        | cons v q' => exact List.takeWhile_cons_of_neg (by simp [hstop v rfl])
    rw [List.takeWhile_append, List.takeWhile_append, if_pos hlen, if_pos hlen, hnil, hnil']
  · rw [List.takeWhile_append, List.takeWhile_append, if_neg hlen, if_neg hlen]

/-- A unit that makes no pair with the unit behind it is a symbol. -/
theorem headSymbol_of_stop (h : ∀ v ∈ t.head?, isPair u v = false) : headSymbol (u :: t) = [u] := by
  cases t with
  | nil => rfl
  | cons v t => exact if_neg (by simp [h v rfl])

theorem headSymbol_of_length_le (h : (headSymbol (u :: t)).length ≤ 1) :
    headSymbol (u :: t) = [u] := by
  cases t with
  | nil => rfl
  | cons v t =>
    rw [headSymbol] at h ⊢
    split at h
    · simp at h
    · rename_i hpair
      rw [if_neg hpair]

end Text

theorem LineShape.of_append {t : Text} {u : CodeUnit} (h : u ∈ t) (hu : isBlank u = false)
    (q : Text) : LineShape.of (t ++ q) = LineShape.of t := by
  have hmem := Text.mem_dropWhile h hu
  rw [of_eq, of_eq, Text.dropWhile_append_of_mem h hu, Text.takeWhile_append_of_mem h hu]
  cases hdrop : t.dropWhile isBlank with
  | nil =>
    rw [hdrop] at hmem
    cases hmem
  | cons u more => rfl

/-! ## Text behind the source -/

namespace Cursor

/-- The cursor with a text behind its source. -/
def append (c : Cursor) (q : Text) : Cursor := { c with rest := c.rest ++ q }

theorem append_nil (c : Cursor) : c.append [] = c := by
  unfold append
  rw [List.append_nil]

variable {c after : Cursor} {t : Token} (q : Text)

theorem advance_append (h : 0 < c.rest.length) :
    (c.append q).advance = c.advance.append q := by
  obtain ⟨u, rest, hrest⟩ := List.exists_cons_of_length_pos h
  simp [append, advance, hrest]

theorem skip_append {n : Nat} (h : n ≤ c.rest.length) :
    (c.append q).skip n = (c.skip n).append q := by
  induction n generalizing c with
  | zero => rfl
  | succ n ih =>
    have hlen : n ≤ c.advance.rest.length := by
      rw [rest_advance, List.length_tail]
      omega
    rw [skip, skip, advance_append q (by omega), ih hlen]

theorem cut_append (kind : TokenKind) {n : Nat} (h : n ≤ c.rest.length) :
    (c.append q).cut kind n = c.cut kind n := by
  show (⟨kind, (c.rest ++ q).take n, ⟨c.location, ((c.append q).skip n).location⟩⟩ : Token) = _
  rw [skip_append q h, List.take_append_of_le_length h]
  rfl

theorem length_rest_append : (c.append q).rest.length = c.rest.length + q.length :=
  List.length_append

/-! ### Readers -/

variable {q} {q' : Text}

/-- A token of the first part is the same one in front of another text. -/
theorem cut_change (kind : TokenKind) {n : Nat} (hn : n ≤ c.rest.length) :
    ∃ mid : Cursor, (c.append q).skip n = mid.append q ∧
      ((.ok ((c.append q').cut kind n), (c.append q').skip n) : Reading Token) =
        (.ok ((c.append q).cut kind n), mid.append q') := by
  refine ⟨c.skip n, skip_append q hn, ?_⟩
  rw [cut_append q' _ hn, cut_append q _ hn, skip_append q' hn]

/-- The units in front of the text behind a source are units of the source. -/
theorem le_of_skip_append {n : Nat} (hn : n ≤ (c.append q).rest.length)
    (hle : q.length ≤ ((c.append q).skip n).rest.length) : n ≤ c.rest.length := by
  rw [rest_skip, List.length_drop] at hle
  rw [length_rest_append] at hn hle
  omega

/-- All of the source has been read when no more than the text behind it is left. -/
theorem length_skip_append {n : Nat} (hn : n = c.rest.length) :
    ((c.append q).skip n).rest.length = q.length := by
  rw [rest_skip, List.length_drop, length_rest_append]
  omega

section Readers

variable (hle : q.length ≤ after.rest.length)
variable (hstop : after.rest.length = q.length →
  lineFeed ∈ c.rest ∨ ∀ v ∈ q'.head?, t.kind.stops v = true)
include hle

include hstop in
theorem readRun_change {kind : TokenKind} {p : CodeUnit → Bool} (hp : p lineFeed = false)
    (hkind : ∀ v, kind.stops v = true → p v = false)
    (h : (c.append q).readRun kind p = (.ok t, after)) :
    ∃ mid : Cursor, after = mid.append q ∧ (c.append q').readRun kind p = (.ok t, mid.append q') := by
  cases h
  have hn := le_of_skip_append (length_run_le _ p) hle
  have hrun : (c.append q').run p = (c.append q).run p := by
    apply Text.takeWhile_change hn
    intro hlen
    rcases hstop (length_skip_append hlen) with hfeed | hstop
    · exact .inl ⟨lineFeed, hfeed, hp⟩
    · exact .inr fun v hv => hkind v (hstop v hv)
  simp only [readRun]
  rw [hrun]
  exact cut_change kind hn

theorem readString_change {quote : CodeUnit} {rest : Text} (hrest : c.rest = quote :: rest)
    (hquote : isQuote quote = true) (h : (c.append q).readString = (.ok t, after)) :
    ∃ mid : Cursor, after = mid.append q ∧ (c.append q').readString = (.ok t, mid.append q') := by
  have hwhole : ∀ q, (c.append q).rest = quote :: (rest ++ q) := by
    intro q
    simp [append, hrest]
  have hspec := scanString_spec quote (rest ++ q)
  have hbound := scanString_le quote (rest ++ q)
  unfold readString at h
  simp only [hwhole] at h
  generalize scanString quote (rest ++ q) = scanned at h hspec hbound
  cases hspec with
  | lineBreak => cases h
  | exhausted => cases h
  | @closed body more hbody hsplit =>
    cases h
    have hn : body.length + 1 + 1 ≤ c.rest.length := by
      apply le_of_skip_append _ hle
      rw [hwhole, List.length_cons]
      exact Nat.succ_le_succ hbound
    -- The closing quote is one of the first part, so it is there with any text behind.
    obtain ⟨tail, hclosed⟩ : body ++ [quote] <+: rest := by
      have hfirst : body ++ [quote] <+: rest ++ q := ⟨more, by rw [hsplit]; simp⟩
      apply List.prefix_of_prefix_length_le hfirst (List.prefix_append rest q)
      rw [hrest, List.length_cons] at hn
      rw [List.length_append, List.length_singleton]
      omega
    have hsplit' : rest ++ q' = body ++ quote :: (tail ++ q') := by
      rw [← hclosed]
      simp
    unfold readString
    simp only [hwhole, (Scanned.closed hbody hsplit').scanString_eq hquote]
    exact cut_change .string hn

theorem readNewline_change {u : CodeUnit} {rest : Text} (hrest : c.rest = u :: rest)
    (h : (c.append q).readNewline = (.ok t, after)) :
    ∃ mid : Cursor, after = mid.append q ∧ (c.append q').readNewline = (.ok t, mid.append q') := by
  have hwhole : ∀ q, (c.append q).rest = u :: (rest ++ q) := by
    intro q
    simp [append, hrest]
  have hone : 1 ≤ c.rest.length := by simp [hrest]
  unfold readNewline at h ⊢
  simp only [hwhole] at h ⊢
  by_cases hreturn : (u == carriageReturn) = true
  · rw [if_pos hreturn] at h ⊢
    split at h
    · rename_i hfeed
      cases h
      have htwo : 2 ≤ c.rest.length := by
        obtain ⟨more, hmore⟩ := List.head?_eq_some_iff.1 (beq_iff_eq.1 hfeed)
        apply le_of_skip_append _ hle
        rw [hwhole, hmore, List.length_cons, List.length_cons]
        omega
      cases rest with
      | nil => simp [hrest] at htwo
      | cons v rest =>
        rw [if_pos (by simpa using hfeed)]
        exact cut_change .newline htwo
    · cases h
  · rw [if_neg hreturn] at h ⊢
    cases h
    exact cut_change .newline hone

include hstop in
/-- Of two units that could be a pair, the second one is in the first part or stops a symbol. -/
theorem readSymbol_change {u : CodeUnit} {rest : Text} (hrest : c.rest = u :: rest)
    (hu : u ≠ lineFeed) (h : (c.append q).readSymbol = (.ok t, after)) :
    ∃ mid : Cursor, after = mid.append q ∧
      (c.append q').readSymbol = (.ok t, mid.append q') := by
  have hwhole : ∀ q, (c.append q).rest = u :: (rest ++ q) := by
    intro q
    simp [append, hrest]
  have hbound := length_headSymbol_le (c.append q).rest
  unfold readSymbol at h ⊢
  split at h
  · cases h
  rename_i hne
  split at h
  · cases h
  rename_i hspace
  cases h
  have hn := le_of_skip_append hbound hle
  have hsymbol : Text.headSymbol (c.append q').rest = Text.headSymbol (c.append q).rest := by
    rw [hwhole] at hn ⊢
    rw [hwhole]
    cases rest with
    | cons v rest => rfl
    | nil =>
      have hfirst : Text.headSymbol (u :: q) = [u] := by
        rw [hrest] at hn
        exact Text.headSymbol_of_length_le hn
      have hlast : (Text.headSymbol (c.append q).rest).length = c.rest.length := by
        rw [hwhole, hrest]
        exact congrArg List.length hfirst
      rcases hstop (length_skip_append hlast) with hfeed | hstop
      · rw [hrest, List.mem_singleton] at hfeed
        exact absurd hfeed.symm hu
      · refine (Text.headSymbol_of_stop fun v hv => ?_).trans hfirst.symm
        apply isPair_eq_false
        simpa [cut, TokenKind.stops] using hstop v hv
  rw [hsymbol]
  simp only [hspace]
  exact cut_change .symbol hn

include hstop in
/-- A lexeme that is read in front of one text is read in front of another. -/
theorem readLexeme_change {u : CodeUnit} {rest : Text} (hrest : c.rest = u :: rest)
    (h : (c.append q).readLexeme u = (.ok t, after)) :
    ∃ mid : Cursor, after = mid.append q ∧ (c.append q').readLexeme u = (.ok t, mid.append q') := by
  unfold readLexeme at h ⊢
  split at h
  · rename_i hhash
    rw [if_pos hhash]
    exact readRun_change hle hstop (by decide) (fun v hv => by simpa [TokenKind.stops] using hv) h
  rename_i hhash
  rw [if_neg hhash]
  split at h
  · rename_i hdigit
    rw [if_pos hdigit]
    exact readRun_change hle hstop (by decide) (fun v hv => by simpa [TokenKind.stops] using hv) h
  rename_i hdigit
  rw [if_neg hdigit]
  split at h
  · rename_i hstart
    rw [if_pos hstart]
    exact readRun_change hle hstop (by decide) (fun v hv => by simpa [TokenKind.stops] using hv) h
  rename_i hstart
  rw [if_neg hstart]
  split at h
  · rename_i hquote
    rw [if_pos hquote]
    exact readString_change hle hrest hquote h
  rename_i hquote
  rw [if_neg hquote]
  split at h
  · rename_i hterminator
    rw [if_pos hterminator]
    exact readNewline_change hle hrest h
  · rename_i hterminator
    rw [if_neg hterminator]
    have hu : u ≠ lineFeed := by
      rintro rfl
      exact hterminator (by decide)
    exact readSymbol_change hle hstop hrest hu h

end Readers

end Cursor

/-! ## Steps -/

namespace Lexer

/-- The state with a text behind its source. -/
def append (lx : Lexer) (q : Text) : Lexer := { lx with cursor := lx.cursor.append q }

theorem append_nil (lx : Lexer) : lx.append [] = lx := by
  unfold append
  rw [Cursor.append_nil]

variable {lx : Lexer}

theorem cursor_append (q : Text) : (lx.append q).cursor = lx.cursor.append q := rfl

theorem skip_append (q : Text) {n : Nat} (hn : n ≤ lx.cursor.rest.length) :
    (lx.append q).skip n = (lx.skip n).append q := by
  unfold skip append
  rw [Cursor.skip_append q hn]

section

variable {v : CodeUnit} (hmem : v ∈ lx.cursor.rest) (hv : isBlank v = false)
include hmem hv

omit hmem in
theorem not_isHorizontal_of_not_isBlank : isHorizontal v = false := by
  by_contra h
  rw [isBlank_of_isHorizontal (by simpa using h)] at hv
  cases hv

theorem leading_append (q : Text) : (lx.append q).leading = lx.leading :=
  Text.takeWhile_append_of_mem hmem (not_isHorizontal_of_not_isBlank hv) q

theorem behind_append (q : Text) : (lx.append q).behind = lx.behind ++ q := by
  rw [behind, leading_append hmem hv, behind]
  exact List.drop_append_of_le_length lx.length_leading_le

theorem mem_behind : v ∈ lx.behind := by
  rw [behind, leading, Cursor.run, drop_length_takeWhile]
  exact Text.mem_dropWhile hmem (not_isHorizontal_of_not_isBlank hv)

theorem head?_behind_append (q : Text) : (lx.append q).behind.head? = lx.behind.head? := by
  obtain ⟨u, more, hbehind⟩ := List.exists_cons_of_ne_nil (List.ne_nil_of_mem (mem_behind hmem hv))
  rw [behind_append hmem hv, hbehind]
  rfl

theorem shape_append (q : Text) :
    LineShape.of (lx.append q).cursor.rest = LineShape.of lx.cursor.rest :=
  LineShape.of_append hmem hv q

/-- A step that gives a token in front of one text goes the same way in front of another. -/
theorem Outcome.change {q q' : Text} {t : Token} {after : Lexer}
    (h : Outcome (lx.append q) (.ok t) after) (hle : q.length ≤ after.cursor.rest.length)
    (hstop : after.cursor.rest.length = q.length →
      lineFeed ∈ lx.cursor.rest ∨ ∀ v ∈ q'.head?, t.kind.stops v = true) :
    ∃ mid : Lexer, after = mid.append q ∧ Outcome (lx.append q') (.ok t) (mid.append q') := by
  have hlead := leading_append hmem hv
  have hhead := head?_behind_append hmem hv
  have hline := shape_append hmem hv
  have hrun := lx.length_leading_le
  generalize hr : (Except.ok t : Except Fault Token) = r at h
  cases h with
  | @blank w hcolumn hshape =>
    cases hr
    rw [hline] at hshape
    obtain ⟨gap, more, hrest, -, hw⟩ := LineShape.exists_of_blank hshape
    have hn : w ≤ lx.cursor.rest.length := by simp [hrest, hw]
    refine ⟨lx.skip w, skip_append q hn, ?_⟩
    have hout := @Outcome.blank (lx.append q') w hcolumn ((hline q').trans hshape)
    rw [cursor_append, Cursor.cut_append q' _ hn, skip_append q' hn] at hout
    rw [cursor_append, Cursor.cut_append q _ hn]
    exact hout
  | closing hcolumn hshape hblocks hhash hprefix hlt =>
    cases hr
    rw [hlead] at hhash hprefix hlt
    rw [hhead] at hhash
    rw [hline] at hshape
    refine ⟨lx.dedent.2, rfl, ?_⟩
    have hout := @Outcome.closing (lx.append q') hcolumn ((hline q').trans hshape) hblocks
    rw [hlead, hhead] at hout
    exact hout hhash hprefix hlt
  | opening hcolumn hshape hhash hprefix hlt =>
    cases hr
    rw [hlead] at hprefix hlt ⊢
    rw [hhead] at hhash
    rw [hline] at hshape
    refine ⟨(lx.skip lx.leading.length).openBlock lx.leading, ?_, ?_⟩
    · rw [skip_append q hrun]
      rfl
    · have hout := @Outcome.opening (lx.append q') hcolumn ((hline q').trans hshape)
      rw [hlead, hhead, cursor_append, Cursor.cut_append q' _ hrun, skip_append q' hrun] at hout
      rw [cursor_append, Cursor.cut_append q _ hrun]
      exact hout hhash hprefix hlt
  | divergence => cases hr
  | ending hgap =>
    have hblank := isBlank_of_gap hgap v (List.mem_append_left q hmem)
    rw [hblank] at hv
    cases hv
  | @lexeme u more hbehind hstay =>
    rw [hlead, hline] at hstay
    obtain ⟨w, rest, hfirst⟩ := List.exists_cons_of_ne_nil (List.ne_nil_of_mem (mem_behind hmem hv))
    obtain rfl : w = u := by
      rw [behind_append hmem hv, hfirst] at hbehind
      exact (List.cons.inj hbehind).1
    have hrest : (lx.cursor.skip lx.leading.length).rest = w :: rest := by
      rw [Cursor.rest_skip]
      exact hfirst
    rw [hlead, cursor_append, Cursor.skip_append q hrun] at hr hle hstop ⊢
    generalize hread : ((lx.cursor.skip lx.leading.length).append q).readLexeme w = reading
      at hr hle hstop
    obtain ⟨outcome, c⟩ := reading
    cases hr
    have hstop' : c.rest.length = q.length →
        lineFeed ∈ (lx.cursor.skip lx.leading.length).rest ∨
          ∀ v ∈ q'.head?, t.kind.stops v = true := by
      intro hlen
      refine (hstop hlen).imp_left fun hfeed => ?_
      rw [Cursor.rest_skip]
      exact mem_behind hfeed (by decide)
    obtain ⟨mid, rfl, hread'⟩ := Cursor.readLexeme_change hle hstop' hrest hread
    have hbehind' : (lx.append q').behind = w :: (rest ++ q') := by
      rw [behind_append hmem hv, hfirst, List.cons_append]
    have hout := @Outcome.lexeme (lx.append q') w (rest ++ q') hbehind'
    rw [hlead, hline, cursor_append, Cursor.skip_append q' hrun, hread'] at hout
    exact ⟨⟨mid, lx.blocks⟩, rfl, hout hstay⟩

theorem next_change {q q' : Text} {t : Token} {after : Lexer}
    (h : (lx.append q).next = (.ok t, after)) (hle : q.length ≤ after.cursor.rest.length)
    (hstop : after.cursor.rest.length = q.length →
      lineFeed ∈ lx.cursor.rest ∨ ∀ v ∈ q'.head?, t.kind.stops v = true) :
    ∃ mid : Lexer, after = mid.append q ∧ (lx.append q').next = (.ok t, mid.append q') := by
  obtain ⟨mid, hmid, hout⟩ := (outcome_of_next h).change hmem hv hle hstop
  exact ⟨mid, hmid, next_of_outcome hout⟩

end

end Lexer

end SceneTokens
