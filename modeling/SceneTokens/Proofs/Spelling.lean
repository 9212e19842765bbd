import SceneTokens.Proofs.Diagnosis
import SceneTokens.Proofs.Grammar

/-!
# How tokens are spelled

The kind of a token says what its text looks like, and no token could go on with the unit
behind it.  `TokenKind.Spelling` has the rules, one for each kind that is read from the
text of a line, and two for line ends and for symbols.

There are three groups.

* The readers keep to the rules, when they are called at the first unit of a lexeme:
  `Cursor.spelled_readLexeme`.
* A symbol of one unit is half of no surrogate pair.  That is also a fact about the unit in
  front of it, which the reader of symbols does not look at.  `Lexer.Unsplit` is the
  invariant behind it: the cursor is never between the two halves of a pair.  Every step
  keeps it (`Lexer.unsplit_next`), because the last unit of a token and the unit behind the
  token make no pair (`TokenKind.Spelling.unsplit`).
* A `newline` token is the end of a line, or all of a blank line.  Which of the two shows in
  the column where it starts (`Lexer.spelled_of_next`).

Main statement: `tokenize_spelling`.
-/

namespace SceneTokens

open CodeUnit

/-- The unit at an offset of a text, if the text has one there. -/
def Text.unitAt (t : Text) (n : Int) : Option CodeUnit := if n < 0 then none else t[n.toNat]?

/-- The text of a token of a kind that starts in a column, where `before` is the unit in front
of the token and `after` the unit behind it. -/
inductive TokenKind.Spelling (column : Int) (before after : Option CodeUnit) :
    TokenKind → Text → Prop
  | identifier {u : CodeUnit} {rest : Text} (hstart : isIdentifierStart u = true)
      (hrest : ∀ v ∈ rest, isIdentifierPart v = true)
      (hstop : ∀ v ∈ after, isIdentifierPart v = false) :
      Spelling column before after .identifier (u :: rest)
  | integer {u : CodeUnit} {rest : Text} (hdigits : ∀ v ∈ u :: rest, isDigit v = true)
      (hstop : ∀ v ∈ after, isDigit v = false) :
      Spelling column before after .integer (u :: rest)
  /-- A comment goes up to the end of the line. -/
  | comment {rest : Text} (hrest : ∀ v ∈ rest, isLineTerminator v = false)
      (hstop : ∀ v ∈ after, isLineTerminator v = true) :
      Spelling column before after .comment (hash :: rest)
  | string {quote : CodeUnit} {body : Text} (hquote : isQuote quote = true)
      (hbody : StringBody quote body) :
      Spelling column before after .string (quote :: body ++ [quote])
  /-- The end of a line with something on it. -/
  | lineEnd {t : Text} (hcolumn : column ≠ 0)
      (ht : t = [lineFeed] ∨ t = [carriageReturn, lineFeed]) :
      Spelling column before after .newline t
  /-- A line of whitespace with its end. -/
  | blankLine {gap : Text} (hcolumn : column = 0)
      (hgap : ∀ v ∈ gap, isSpace v = true ∧ v ≠ lineFeed) :
      Spelling column before after .newline (gap ++ [lineFeed])
  | pair {high low : CodeUnit} (hpair : isPair high low = true) :
      Spelling column before after .symbol [high, low]
  /-- A unit that is half of no pair and that no other token begins with. -/
  | unit {u : CodeUnit} (hbefore : ∀ v ∈ before, isPair v u = false)
      (hafter : ∀ v ∈ after, isPair u v = false) (hspace : isSpace u = false)
      (hpart : isIdentifierPart u = false) (hhash : u ≠ hash) (hquote : isQuote u = false) :
      Spelling column before after .symbol [u]

/-! ## Surrogate pairs -/

theorem isPair_of_lt {u : CodeUnit} (h : u < 0x80) (v : CodeUnit) : isPair u v = false := by
  have hhigh : ¬(0xD800 : CodeUnit) ≤ u := UInt16.not_le.2 (UInt16.lt_trans h (by decide))
  rw [isPair, isHighSurrogate, decide_eq_false hhigh, Bool.false_and, Bool.false_and]

theorem lt_of_isIdentifierPart {u : CodeUnit} (h : isIdentifierPart u = true) : u < 0x80 := by
  simp only [isIdentifierPart, isIdentifierStart, isLetter, isDigit, Bool.or_eq_true,
    Bool.and_eq_true, decide_eq_true_eq, beq_iff_eq] at h
  rcases h with (((⟨-, hle⟩ | ⟨-, hle⟩) | rfl) | rfl) | ⟨-, hle⟩
  · exact UInt16.lt_of_le_of_lt hle (by decide)
  · exact UInt16.lt_of_le_of_lt hle (by decide)
  · decide
  · decide
  · exact UInt16.lt_of_le_of_lt hle (by decide)

theorem lt_of_isQuote {u : CodeUnit} (h : isQuote u = true) : u < 0x80 := by
  rw [isQuote, Bool.or_eq_true, beq_iff_eq, beq_iff_eq] at h
  rcases h with rfl | rfl <;> decide

theorem lt_of_isHorizontal {u : CodeUnit} (h : isHorizontal u = true) : u < 0x80 := by
  rw [isHorizontal, Bool.or_eq_true, beq_iff_eq, beq_iff_eq] at h
  rcases h with rfl | rfl <;> decide

theorem isPair_lineTerminator (u : CodeUnit) {v : CodeUnit} (h : isLineTerminator v = true) :
    isPair u v = false := by
  apply Cursor.isPair_eq_false
  rw [isLineTerminator, Bool.or_eq_true, beq_iff_eq, beq_iff_eq] at h
  rcases h with rfl | rfl <;> decide

/-- Two halves of a pair are both surrogates, and the second one begins no pair. -/
theorem isPair_of_low {high low : CodeUnit} (h : isPair high low = true) (v : CodeUnit) :
    isPair low v = false := by
  simp only [isPair, isLowSurrogate, Bool.and_eq_true, decide_eq_true_eq] at h
  have hhigh : ¬low ≤ 0xDBFF := UInt16.not_le.2 (UInt16.lt_of_lt_of_le (by decide) h.2.1)
  rw [isPair, isHighSurrogate, decide_eq_false hhigh, Bool.and_false, Bool.false_and]

/-- No pair begins in a token and ends behind it. -/
theorem TokenKind.Spelling.unsplit {column : Int} {before after : Option CodeUnit}
    {kind : TokenKind} {t : Text} (h : kind.Spelling column before after t) :
    ∀ u ∈ t.getLast?, ∀ v ∈ after, isPair u v = false := by
  intro u hu v hv
  have hmem : u ∈ t := List.mem_of_getLast? hu
  cases h with
  | identifier hstart hrest =>
    apply isPair_of_lt
    apply lt_of_isIdentifierPart
    rcases List.mem_cons.1 hmem with rfl | htail
    · rw [isIdentifierPart, hstart, Bool.true_or]
    · exact hrest u htail
  | integer hdigits =>
    apply isPair_of_lt
    apply lt_of_isIdentifierPart
    rw [isIdentifierPart, hdigits u hmem, Bool.or_true]
  | comment _ hstop => exact isPair_lineTerminator u (hstop v hv)
  | string hquote =>
    rw [List.getLast?_concat] at hu
    cases hu
    exact isPair_of_lt (lt_of_isQuote hquote) v
  | lineEnd _ ht =>
    have hlast : u = lineFeed := by
      rcases ht with rfl | rfl <;> exact (Option.some.inj hu).symm
    rw [hlast]
    exact isPair_of_lt (by decide) v
  | blankLine =>
    rw [List.getLast?_concat] at hu
    cases hu
    exact isPair_of_lt (by decide) v
  | pair hpair =>
    cases hu
    exact isPair_of_low hpair v
  | unit _ hafter =>
    cases hu
    exact hafter v hv

theorem TokenKind.Spelling.ne_nil {column : Int} {before after : Option CodeUnit}
    {kind : TokenKind} {t : Text} (h : kind.Spelling column before after t) : t ≠ [] := by
  cases h with
  | lineEnd _ ht => rcases ht with rfl | rfl <;> simp
  | identifier | integer | comment | string | blankLine | pair | unit => simp

/-! ## Readers -/

namespace Cursor

/-- The next `n` units are a token that is spelled as its kind says. -/
structure Spelled (c : Cursor) (t : Token) (after : Cursor) (n : Nat) : Prop where
  le : n ≤ c.rest.length
  token : t = c.cut t.kind n
  moved : after = c.skip n
  spelling : t.kind.Spelling c.column c.before.head? after.rest.head? t.value

theorem take_length_run (c : Cursor) (p : CodeUnit → Bool) :
    c.rest.take (c.run p).length = c.run p :=
  (List.prefix_iff_eq_take.1 (List.takeWhile_prefix p)).symm

/-- A run stops in front of a unit that is not of its class. -/
theorem head?_behind_run (c : Cursor) (p : CodeUnit → Bool) :
    ∀ v ∈ (c.skip (c.run p).length).rest.head?, p v = false := by
  intro v hv
  rw [rest_skip, run, drop_length_takeWhile] at hv
  have hstop := List.head?_dropWhile_not p c.rest
  rw [hv] at hstop
  exact hstop

/-- Behind some units the unit in front of the cursor is the last of them. -/
theorem head?_before_skip {c : Cursor} {n : Nat} (hne : c.rest.take n ≠ []) :
    (c.skip n).before.head? = (c.rest.take n).getLast? := by
  rw [before_skip, List.head?_append, List.head?_reverse, List.getLast?_eq_some_getLast hne,
    Option.some_or]

section Readers

variable {c after : Cursor} {u : CodeUnit} {more : Text} {t : Token}
variable (hrest : c.rest = u :: more)
include hrest

theorem spelled_readRun {kind : TokenKind} {p : CodeUnit → Bool} (hu : p u = true)
    (hrule : ∀ rest stop, (∀ v ∈ rest, p v = true) → (∀ v ∈ stop, p v = false) →
      kind.Spelling c.column c.before.head? stop (u :: rest))
    (h : c.readRun kind p = (.ok t, after)) : ∃ n, c.Spelled t after n := by
  cases h
  refine ⟨(c.run p).length, length_run_le c p, rfl, rfl, ?_⟩
  have hvalue : (c.cut kind (c.run p).length).value = u :: more.takeWhile p := by
    show c.rest.take (c.run p).length = _
    rw [take_length_run, run, hrest, List.takeWhile_cons_of_pos hu]
  rw [hvalue]
  exact hrule _ _ (fun v hv => List.mem_takeWhile_imp hv) (head?_behind_run c p)

theorem spelled_readString (hquote : isQuote u = true) (h : c.readString = (.ok t, after)) :
    ∃ n, c.Spelled t after n := by
  unfold readString at h
  rw [hrest] at h
  have hspec := scanString_spec u more
  dsimp only at h
  generalize scanString u more = scanned at h hspec
  cases hspec with
  | @closed body rest hbody hsplit =>
    cases h
    have htake : c.rest.take (body.length + 1 + 1) = u :: body ++ [u] := by
      rw [hrest, hsplit, List.take_succ_cons, List.take_length_add_append]
      rfl
    have hle : body.length + 1 + 1 ≤ c.rest.length := by
      simp [hrest, hsplit]
    refine ⟨body.length + 1 + 1, hle, rfl, rfl, ?_⟩
    show TokenKind.string.Spelling _ _ _ (c.rest.take (body.length + 1 + 1))
    rw [htake]
    exact .string hquote hbody
  | lineBreak => cases h
  | exhausted => cases h

/-- Behind something on its line, a line ends by one unit or by two. -/
theorem spelled_readNewline (hu : isLineTerminator u = true) (hcolumn : c.column ≠ 0)
    (h : c.readNewline = (.ok t, after)) : ∃ n, c.Spelled t after n := by
  have hcolumn' : (c.column : Int) ≠ 0 := by omega
  unfold readNewline at h
  rw [hrest] at h
  dsimp only at h
  split at h
  · rename_i hreturn
    split at h
    · rename_i hfeed
      cases h
      obtain ⟨rest, rfl⟩ := List.head?_eq_some_iff.1 (beq_iff_eq.1 hfeed)
      refine ⟨2, by simp [hrest], rfl, rfl, .lineEnd hcolumn' (.inr ?_)⟩
      show c.rest.take 2 = _
      rw [hrest, beq_iff_eq.1 hreturn]
      rfl
    · cases h
  · rename_i hreturn
    cases h
    rw [isLineTerminator, Bool.or_eq_true, beq_iff_eq] at hu
    refine ⟨1, by simp [hrest], rfl, rfl, .lineEnd hcolumn' (.inl ?_)⟩
    show c.rest.take 1 = _
    rw [hrest, hu.resolve_right hreturn]
    rfl

/-- A symbol is the pair at the cursor, or else the unit there. -/
theorem spelled_readSymbol (hbefore : ∀ v ∈ c.before.head?, isPair v u = false)
    (hpart : isIdentifierPart u = false) (hhash : u ≠ hash) (hquote : isQuote u = false)
    (h : c.readSymbol = (.ok t, after)) : ∃ n, c.Spelled t after n := by
  unfold readSymbol at h
  split at h
  · cases h
  split at h
  · cases h
  rename_i hspace
  cases h
  refine ⟨_, length_headSymbol_le c.rest, rfl, rfl, ?_⟩
  show TokenKind.symbol.Spelling _ _ _ (c.rest.take _)
  rw [← List.prefix_iff_eq_take.1 (headSymbol_begins c.rest), rest_skip]
  rw [hrest] at hspace ⊢
  -- One unit is the symbol, unless it makes a pair with the unit behind it.
  have hunit (hone : Text.headSymbol (u :: more) = [u])
      (hafter : ∀ v ∈ more.head?, isPair u v = false) :
      TokenKind.symbol.Spelling c.column c.before.head?
        ((u :: more).drop (Text.headSymbol (u :: more)).length).head?
        (Text.headSymbol (u :: more)) := by
    rw [hone] at hspace ⊢
    exact .unit hbefore hafter (by simpa [Text.isOne] using hspace) hpart hhash hquote
  cases more with
  | nil => exact hunit rfl (by simp)
  | cons v more =>
    by_cases hpair : isPair u v = true
    · rw [Text.headSymbol, if_pos hpair]
      exact .pair hpair
    · refine hunit (if_neg hpair) fun w hw => ?_
      cases hw
      simpa using hpair

/-- Every lexeme is spelled as its kind says. -/
theorem spelled_readLexeme (hbefore : ∀ v ∈ c.before.head?, isPair v u = false)
    (hcolumn : isLineTerminator u = true → c.column ≠ 0)
    (h : c.readLexeme u = (.ok t, after)) : ∃ n, c.Spelled t after n := by
  unfold readLexeme at h
  split at h
  · rename_i hhash
    rw [beq_iff_eq.1 hhash] at hrest
    refine spelled_readRun hrest (by decide) (fun rest stop hall hstop => ?_) h
    exact .comment (fun v hv => by simpa using hall v hv) (fun v hv => by simpa using hstop v hv)
  rename_i hhash
  split at h
  · rename_i hdigit
    refine spelled_readRun hrest hdigit (fun rest stop hall hstop => ?_) h
    exact .integer (List.forall_mem_cons.2 ⟨hdigit, hall⟩) hstop
  rename_i hdigit
  split at h
  · rename_i hstart
    refine spelled_readRun hrest ?_ (fun rest stop hall hstop => ?_) h
    · rw [isIdentifierPart, hstart, Bool.true_or]
    · exact .identifier hstart hall hstop
  rename_i hstart
  split at h
  · rename_i hquote
    exact spelled_readString hrest hquote h
  rename_i hquote
  split at h
  · rename_i hterminator
    exact spelled_readNewline hrest hterminator (hcolumn hterminator) h
  · have hpart : isIdentifierPart u = false := by
      simp only [isIdentifierPart, Bool.or_eq_false_iff]
      exact ⟨by simpa using hstart, by simpa using hdigit⟩
    exact spelled_readSymbol hrest hbefore hpart (by simpa using hhash) (by simpa using hquote) h

end Readers

/-- Behind a token the unit in front of the cursor is the last one of the token. -/
theorem Spelled.head?_before {c after : Cursor} {t : Token} {n : Nat}
    (h : c.Spelled t after n) : after.before.head? = t.value.getLast? := by
  have hvalue : t.value = c.rest.take n := by
    rw [h.token]
    rfl
  have hne : c.rest.take n ≠ [] := hvalue ▸ h.spelling.ne_nil
  rw [h.moved, head?_before_skip hne, hvalue]

end Cursor

/-! ## Steps -/

namespace Lexer

/-- No surrogate pair has one half in front of the cursor and one half behind it. -/
def Unsplit (lx : Lexer) : Prop :=
  ∀ u ∈ lx.cursor.before.head?, ∀ v ∈ lx.cursor.rest.head?, isPair u v = false

variable {lx after : Lexer} {t : Token}

/-- Spaces and tabs split no pair. -/
theorem unsplit_skip_leading (h : lx.Unsplit) : (lx.skip lx.leading.length).Unsplit := by
  by_cases hnil : lx.leading = []
  · rw [hnil]
    exact h
  · intro u hu v _
    have htake : lx.cursor.rest.take lx.leading.length = lx.leading :=
      Cursor.take_length_run lx.cursor isHorizontal
    have hne : lx.cursor.rest.take lx.leading.length ≠ [] := by
      rw [htake]
      exact hnil
    rw [skip_cursor, Cursor.head?_before_skip hne, htake] at hu
    have hmem : u ∈ lx.leading := List.mem_of_getLast? hu
    exact isPair_of_lt (lt_of_isHorizontal (isHorizontal_of_mem_leading hmem)) v

/-- A line terminator behind the leading run is read inside a line only: at the start of a
line it would belong to a blank one. -/
theorem column_skip_leading_ne_zero {u : CodeUnit} {more : Text} (hbehind : lx.behind = u :: more)
    (hstay : lx.cursor.column = 0 → LineShape.of lx.cursor.rest = .filled)
    (h : ((lx.cursor.skip lx.leading.length).readLexeme u).1 = .ok t)
    (hu : isLineTerminator u = true) : (lx.cursor.skip lx.leading.length).column ≠ 0 := by
  have hle := lx.length_leading_le
  have hfeed := lx.lineFeed_notMem_take_leading (Nat.le_refl lx.leading.length)
  have hcolumn := (Cursor.line_column_skip_of_notMem hle hfeed).2
  have hne : lx.cursor.column ≠ 0 := by
    intro hzero
    obtain ⟨kind, n, -, -, hlexeme⟩ := lexeme_of_outcome hbehind h
    have hblank := hlexeme.blank (hlexeme.ends hu)
    rw [Cursor.rest_skip] at hblank
    have hfilled := lx.shape_behind.1 (hstay hzero)
    rw [behind, hblank] at hfilled
    cases hfilled
  omega

/-- A token read from the text of a line is spelled as its kind says. -/
theorem spelled_of_next (hsplit : lx.Unsplit) (h : lx.next = (.ok t, after))
    (hkind : t.kind.isLexeme = true) :
    ∃ gap n, gap ≤ lx.cursor.rest.length ∧ (lx.cursor.skip gap).Spelled t after.cursor n := by
  have hout := outcome_of_next h
  generalize hr : (Except.ok t : Except Fault Token) = r at hout
  cases hout with
  | blank hcolumn hshape =>
    cases hr
    obtain ⟨gap, more, hrest, hgap, rfl⟩ := LineShape.exists_of_blank hshape
    have hvalue : lx.cursor.rest.take (gap.length + 1) = gap ++ [lineFeed] := by
      rw [hrest, List.take_length_add_append]
      rfl
    refine ⟨0, gap.length + 1, Nat.zero_le _, by simp [hrest], rfl, rfl, ?_⟩
    show TokenKind.newline.Spelling lx.cursor.column _ _ (lx.cursor.rest.take (gap.length + 1))
    rw [hvalue]
    refine .blankLine (by omega) fun v hv => ?_
    simpa [isBlank] using hgap v hv
  | closing | opening =>
    cases hr
    cases hkind
  | divergence => cases hr
  | ending =>
    cases hr
    rcases (lx.skip lx.cursor.rest.length).kind_readEndOfInput with hend | hend
    · rw [hend] at hkind
      cases hkind
    · rw [hend] at hkind
      cases hkind
  | @lexeme u more hbehind hstay =>
    have hrest : (lx.cursor.skip lx.leading.length).rest = u :: more := by
      rw [Cursor.rest_skip]
      exact hbehind
    have hbefore : ∀ v ∈ (lx.cursor.skip lx.leading.length).before.head?, isPair v u = false :=
      fun v hv => unsplit_skip_leading hsplit v hv u (by rw [skip_cursor, hrest]; rfl)
    have hcolumn := column_skip_leading_ne_zero hbehind (fun hzero => (hstay hzero).1) hr.symm
    obtain ⟨n, hspelled⟩ := Cursor.spelled_readLexeme hrest hbefore hcolumn (Prod.ext hr.symm rfl)
    exact ⟨lx.leading.length, n, lx.length_leading_le, hspelled⟩

theorem unsplit_next (hsplit : lx.Unsplit) (h : lx.next = (.ok t, after)) : after.Unsplit := by
  by_cases hkind : t.kind.isLexeme = true
  · obtain ⟨gap, n, -, hspelled⟩ := spelled_of_next hsplit h hkind
    intro u hu
    rw [hspelled.head?_before] at hu
    exact hspelled.spelling.unsplit u hu
  have hout := outcome_of_next h
  generalize hr : (Except.ok t : Except Fault Token) = r at hout
  cases hout with
  | blank =>
    cases hr
    exact absurd rfl hkind
  | closing => exact hsplit
  | opening => exact unsplit_skip_leading hsplit
  | divergence => cases hr
  | ending =>
    obtain ⟨kind, value, -, hcursor, -⟩ := (lx.skip lx.cursor.rest.length).readEndOfInput_eq_mark
    intro u _ v hv
    rw [hcursor] at hv
    simp at hv
  | @lexeme u more hbehind =>
    obtain ⟨n, htakes⟩ := (lx.cursor.skip lx.leading.length).takes_readLexeme u
    obtain ⟨kind, hlexeme, rfl⟩ := htakes.token t hr.symm
    exact absurd hlexeme hkind

end Lexer

/-! ## Whole sources -/

namespace Cursor.At

variable {c : Cursor} {source : Text} (h : c.At source)
include h

theorem unitAt_offset : source.unitAt c.offset = c.rest.head? := by
  have hunit := h.getElem?_offset 0
  rw [Nat.add_zero] at hunit
  rw [Text.unitAt, if_neg (by omega), Int.toNat_natCast, hunit, List.head?_eq_getElem?]

theorem unitAt_before : source.unitAt (c.offset - 1) = c.before.head? := by
  obtain ⟨n, hn, rfl⟩ := h
  rw [offset_ofOffset hn, before_ofOffset, List.head?_reverse]
  cases n with
  | zero => rfl
  | succ n =>
    have hlen : (source.take (n + 1)).length = n + 1 := List.length_take_of_le hn
    have hpred : (((n + 1 : Nat) : Int) - 1) = (n : Int) := by omega
    rw [hpred, Text.unitAt, if_neg (by omega), Int.toNat_natCast, List.getLast?_eq_getElem?, hlen,
      List.getElem?_take, if_pos (by omega)]
    rfl

end Cursor.At

/-- A token of a source and its text there: the token covers its value, and the value is
spelled as the kind of the token says. -/
structure Token.SpelledIn (t : Token) (source : Text) : Prop where
  value : t.value = source.slice t.span.start.offset t.span.stop.offset
  spelling : t.kind.Spelling t.span.start.column (source.unitAt (t.span.start.offset - 1))
    (source.unitAt t.span.stop.offset) t.value

theorem Cursor.Spelled.spelledIn {c after : Cursor} {source : Text} {t : Token} {n : Nat}
    (hat : c.At source) (h : c.Spelled t after n) : t.SpelledIn source := by
  have hafter : after.At source := h.moved ▸ hat.skip h.le
  have hstart : t.span.start = c.location := by
    rw [h.token]
    rfl
  have hstop : t.span.stop = after.location := by
    rw [h.token, h.moved]
    rfl
  constructor
  · rw [hstart, hstop, h.moved, hat.slice h.le, h.token]
    rfl
  · rw [hstart, hstop]
    show t.kind.Spelling c.column (source.unitAt (c.offset - 1)) (source.unitAt after.offset) _
    rw [hat.unitAt_before, hafter.unitAt_offset]
    exact h.spelling

theorem Lexer.spelledIn_of_calls {source : Text} {lx after : Lexer} {tokens : List Token}
    (hat : lx.cursor.At source) (hsplit : lx.Unsplit) (h : Calls Lexer.next lx tokens after) :
    ∀ t ∈ tokens, t.kind.isLexeme = true → t.SpelledIn source := by
  induction h with
  | nil => simp
  | @cons lx mid after t rest hstep _ ih =>
    refine List.forall_mem_cons.2 ⟨fun hkind => ?_, ?_⟩
    · obtain ⟨gap, n, hgap, hspelled⟩ := spelled_of_next hsplit hstep hkind
      exact hspelled.spelledIn (hat.skip hgap)
    · exact ih (cursor_at_next hat hstep) (unsplit_next hsplit hstep)

/-- The tokens of a source, comments included, are spelled as their kinds say, and none of them
could be longer. -/
theorem tokenize_spelling {source : Text} {tokens : List Token}
    (h : tokenize source true = .ok tokens) :
    ∀ t ∈ tokens, t.kind.isLexeme = true → t.SpelledIn source := by
  obtain ⟨hfault, rfl⟩ := tokenize_eq_ok_iff.1 h
  have hcalls := (Lexer.calls_of_scan_end hfault).1
  exact Lexer.spelledIn_of_calls ⟨0, Nat.zero_le _, rfl⟩ (fun u hu => by cases hu) hcalls

/-- A string over two lines, a comment in front of a line end of two units, a blank line with a
Unicode space, and a surrogate pair between two halves that stand alone. -/
theorem tokenize_spelling_lone_halves :
    let source : Text := Text.ofString "b_2 'x\\\n' 07# c\r\n" ++
      [0x20, 0x2003, 0x0A, 0xD83D, 0xD83C, 0xDFAC, 0xDFAC]
    let half : Token := ⟨.symbol, [0xDFAC], ⟨⟨4, 3, 23⟩, ⟨4, 4, 24⟩⟩⟩
    ∃ tokens, tokenize source true = .ok tokens ∧
      tokens.map (·.kind) =
        [.identifier, .string, .integer, .comment, .newline, .newline, .symbol, .symbol, .symbol,
          .endOfStream] ∧
      half ∈ tokens ∧ half.kind.isLexeme = true ∧ half.SpelledIn source := by
  intro source half
  have h : tokenize source true = .ok (Lexer.ofSource source).scan.tokens := by decide +kernel
  have hkinds : (Lexer.ofSource source).scan.tokens.map (·.kind) =
      [.identifier, .string, .integer, .comment, .newline, .newline, .symbol, .symbol, .symbol,
        .endOfStream] := by decide +kernel
  have hmem : half ∈ (Lexer.ofSource source).scan.tokens := by decide +kernel
  exact ⟨_, h, hkinds, hmem, rfl, tokenize_spelling h half hmem rfl⟩

end SceneTokens
