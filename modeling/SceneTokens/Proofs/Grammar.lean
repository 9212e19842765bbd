import SceneTokens.Proofs.Append
import SceneTokens.Proofs.Causes
import SceneTokens.Proofs.Tiling

/-!
# Which token may follow which

A reader of tokens relies on their order: a block is opened in front of something to read,
a comment is the last thing on its line, and lines are counted by their ends.  Nothing in
the lexer says so in one place.  It follows from what a step leaves behind.

* `TokenKind.Spells`: what the text of a token looks like, as far as line feeds go.  The
  readers keep to it (`Cursor.Lexeme`), and so does every step (`Lexer.spells_of_next`).
* `Lexer.Behind`: what the state behind a token can be, by the kind of the token.  Every
  step leaves such a state behind (`Lexer.behind_of_next`), so it is known of the state
  between any two tokens (`Lexer.behind_of_calls`).
* `Lexer.follows_indent` and so on: what can be read from such a state.
* `Lexer.count_lineFeed_calls`: the line feeds that some tokens cover.

Main statement: `tokenize_grammatical`.
-/

namespace SceneTokens

open CodeUnit

/-! ## The text of a token -/

/-- What the text of a token that covers something looks like: the end of a line has its
line feed at the end, a string ends with its quote, and nothing else has a line feed. -/
inductive TokenKind.Spells : TokenKind → Text → Prop
  | newline {gap : Text} (h : lineFeed ∉ gap) : Spells .newline (gap ++ [lineFeed])
  | string {quote : CodeUnit} {body : Text} (h : quote ≠ lineFeed) :
      Spells .string (quote :: body ++ [quote])
  | inLine {kind : TokenKind} {t : Text} (hkind : kind ≠ .newline) (hne : t ≠ [])
      (h : lineFeed ∉ t) : Spells kind t

namespace TokenKind.Spells

variable {kind : TokenKind} {t : Text} (h : kind.Spells t)
include h

theorem ne_nil : t ≠ [] := by
  cases h with
  | newline => simp
  | string => simp
  | inLine _ hne => exact hne

theorem getLast?_eq_iff : t.getLast? = some lineFeed ↔ kind = .newline := by
  cases h with
  | newline => simp
  | string hquote =>
    rw [List.getLast?_concat]
    simpa using hquote
  | inLine hkind _ hfeed =>
    refine iff_of_false (fun hlast => ?_) hkind
    exact hfeed (List.mem_of_getLast? hlast)

theorem count_lineFeed :
    t.count lineFeed =
      (if kind = .newline then 1 else 0) + (if kind = .string then t.count lineFeed else 0) := by
  cases h with
  | newline hgap => simp [List.count_eq_zero.2 hgap]
  | string => simp
  | inLine hkind _ hfeed => simp [hkind, List.count_eq_zero.2 hfeed]

theorem exists_of_newline (hkind : kind = .newline) :
    ∃ gap, t = gap ++ [lineFeed] ∧ lineFeed ∉ gap := by
  cases h with
  | newline hgap => exact ⟨_, rfl, hgap⟩
  | string => cases hkind
  | inLine hne => exact absurd hkind hne

end TokenKind.Spells

/-! ## Lexemes -/

/-- Blanks in front of a text do not change whether its line is filled. -/
theorem LineShape.of_append_eq_filled_iff {gap t : Text} (h : ∀ u ∈ gap, isBlank u = true) :
    LineShape.of (gap ++ t) = .filled ↔ LineShape.of t = .filled := by
  induction gap with
  | nil => exact Iff.rfl
  | cons u gap ih =>
    obtain ⟨hu, hgap⟩ := List.forall_mem_cons.1 h
    rw [List.cons_append, of_cons, if_pos hu, ← ih hgap]
    cases LineShape.of (gap ++ t) <;> simp

theorem not_isLineTerminator_of_mem {p : CodeUnit → Bool} {u : CodeUnit}
    (hfeed : p lineFeed = false) (hreturn : p carriageReturn = false) (hu : p u = true) :
    ¬isLineTerminator u = true := by
  rw [isLineTerminator, Bool.or_eq_true, beq_iff_eq, beq_iff_eq]
  rintro (rfl | rfl)
  · rw [hfeed] at hu
    cases hu
  · rw [hreturn] at hu
    cases hu

namespace Cursor

theorem column_advance {c : Cursor} {u : CodeUnit} {rest : Text} (h : c.rest = u :: rest) :
    c.advance.column = if u = lineFeed then 0 else c.column + 1 := by
  simp [advance, h]

/-- Behind some units the column is zero if the last of them is a line feed. -/
theorem column_skip_eq_zero_iff {c : Cursor} {n : Nat} (hn : n ≤ c.rest.length)
    (hne : c.rest.take n ≠ []) :
    (c.skip n).column = 0 ↔ (c.rest.take n).getLast? = some lineFeed := by
  cases n with
  | zero => simp at hne
  | succ m =>
    have hget : c.rest[m]? = some c.rest[m] := List.getElem?_eq_getElem hn
    have hrest : (c.skip m).rest = c.rest[m] :: c.rest.drop (m + 1) := by
      rw [rest_skip, List.drop_eq_getElem_cons hn]
    have hcolumn : (c.skip (m + 1)).column =
        if c.rest[m] = lineFeed then 0 else (c.skip m).column + 1 := by
      rw [skip_add]
      exact column_advance hrest
    rw [hcolumn, List.take_add_one, hget, Option.toList_some, List.getLast?_concat]
    split <;> simp [*]

/-- The next `n` units are a lexeme of the kind, which begins with `u`. -/
structure Lexeme (c : Cursor) (u : CodeUnit) (kind : TokenKind) (n : Nat) : Prop where
  isLexeme : kind.isLexeme = true
  spells : kind.Spells (c.rest.take n)
  /-- A comment goes from a hash to the end of the line. -/
  opens : kind = .comment → u = hash
  stops : kind = .comment → ∀ v ∈ (c.rest.drop n).head?, isLineTerminator v = true
  /-- What begins with a line terminator ends a blank line. -/
  ends : isLineTerminator u = true → kind = .newline
  blank : kind = .newline → LineShape.of c.rest = .blank n

section Readers

variable {c after : Cursor} {u : CodeUnit} {more : Text} {t : Token}
variable (hrest : c.rest = u :: more)
include hrest

/-- A run of units of a class without line terminators. -/
theorem lexeme_run {kind : TokenKind} {p : CodeUnit → Bool} (hlexeme : kind.isLexeme = true)
    (hkind : kind ≠ .newline) (hfeed : p lineFeed = false) (hreturn : p carriageReturn = false)
    (hu : p u = true)
    (hcomment : kind = .comment → u = hash ∧ ∀ v, p v = false → isLineTerminator v = true) :
    c.Lexeme u kind (c.run p).length := by
  have htake : c.rest.take (c.run p).length = c.run p :=
    (List.prefix_iff_eq_take.1 (List.takeWhile_prefix p)).symm
  refine ⟨hlexeme, ?_, fun h => (hcomment h).1, ?_, ?_, fun h => absurd h hkind⟩
  · rw [htake]
    refine .inLine hkind ?_ ?_
    · rw [run, hrest, List.takeWhile_cons_of_pos hu]
      simp
    · intro hmem
      rw [List.mem_takeWhile_imp hmem] at hfeed
      cases hfeed
  · intro h v hv
    apply (hcomment h).2
    have hstop := List.head?_dropWhile_not p c.rest
    rw [run, drop_length_takeWhile] at hv
    rw [hv] at hstop
    exact hstop
  · intro h
    exact absurd h (not_isLineTerminator_of_mem hfeed hreturn hu)

/-- A string that is closed ends with its quote. -/
theorem lexeme_string (hquote : isQuote u = true) (h : c.readString = (.ok t, after)) :
    ∃ n, t = c.cut .string n ∧ after = c.skip n ∧ c.Lexeme u .string n := by
  have hfeed : u ≠ lineFeed := by
    rintro rfl
    exact absurd hquote (by decide)
  have hterminator := not_isLineTerminator_of_mem (p := isQuote) (by decide) (by decide) hquote
  unfold readString at h
  rw [hrest] at h
  have hspec := scanString_spec u more
  dsimp only at h
  generalize scanString u more = scanned at h hspec
  cases hspec with
  | @closed body rest hbody hsplit =>
    cases h
    have htake : c.rest.take (body.length + 1 + 1) = u :: body ++ [u] := by
      rw [hrest, hsplit, List.take_succ_cons, List.take_length_add_append]
      rfl
    refine ⟨_, rfl, rfl, rfl, ?_, nofun, nofun, fun hu => absurd hu hterminator, nofun⟩
    rw [htake]
    exact .string hfeed
  | lineBreak => cases h
  | exhausted => cases h

/-- A line ends by a line feed or by a carriage return and a line feed. -/
theorem lexeme_newline (hu : isLineTerminator u = true) (h : c.readNewline = (.ok t, after)) :
    ∃ n, t = c.cut .newline n ∧ after = c.skip n ∧ c.Lexeme u .newline n := by
  rw [isLineTerminator, Bool.or_eq_true, beq_iff_eq, beq_iff_eq] at hu
  unfold readNewline at h
  rw [hrest] at h
  dsimp only at h
  split at h
  · rename_i hreturn
    have hu' : u = carriageReturn := beq_iff_eq.1 hreturn
    split at h
    · rename_i hhead
      cases h
      obtain ⟨rest, rfl⟩ : ∃ rest, more = lineFeed :: rest := by
        obtain ⟨rest, hmore⟩ := List.head?_eq_some_iff.1 (by simpa using hhead)
        exact ⟨rest, hmore⟩
      refine ⟨2, rfl, rfl, rfl, ?_, nofun, nofun, fun _ => rfl, fun _ => ?_⟩
      · rw [hrest, hu']
        exact @TokenKind.Spells.newline [carriageReturn] (by decide)
      · rw [hrest, hu', LineShape.of_cons, LineShape.of_cons]
        rfl
    · cases h
  · rename_i hreturn
    have hu' : u = lineFeed := hu.resolve_right (by simpa using hreturn)
    cases h
    refine ⟨1, rfl, rfl, rfl, ?_, nofun, nofun, fun _ => rfl, fun _ => ?_⟩
    · rw [hrest, hu']
      exact @TokenKind.Spells.newline [] (by simp)
    · rw [hrest, hu', LineShape.of_cons]
      rfl

theorem lexeme_symbol (hterminator : ¬isLineTerminator u = true)
    (h : c.readSymbol = (.ok t, after)) :
    ∃ n, t = c.cut .symbol n ∧ after = c.skip n ∧ c.Lexeme u .symbol n := by
  have hfeed : u ≠ lineFeed := by
    rintro rfl
    exact hterminator (by decide)
  unfold readSymbol at h
  split at h
  · cases h
  · rename_i hne
    split at h
    · cases h
    · cases h
      refine ⟨_, rfl, rfl, rfl, .inLine nofun ?_ ?_, nofun, nofun, fun hu => absurd hu hterminator,
        nofun⟩
      · rw [← List.prefix_iff_eq_take.1 (headSymbol_begins c.rest)]
        exact hne
      · rw [← List.prefix_iff_eq_take.1 (headSymbol_begins c.rest), hrest]
        exact lineFeed_notMem_headSymbol more hfeed

/-- Every lexeme is as its kind says. -/
theorem lexeme_readLexeme (h : c.readLexeme u = (.ok t, after)) :
    ∃ kind n, t = c.cut kind n ∧ after = c.skip n ∧ c.Lexeme u kind n := by
  unfold readLexeme at h
  split at h
  · rename_i hhash
    cases h
    refine ⟨_, _, rfl, rfl, lexeme_run hrest rfl nofun (by decide) (by decide) ?_ fun _ => ?_⟩
    · rw [beq_iff_eq.1 hhash]
      decide
    · exact ⟨beq_iff_eq.1 hhash, fun v hv => by simpa using hv⟩
  split at h
  · rename_i hdigit
    cases h
    exact ⟨_, _, rfl, rfl, lexeme_run hrest rfl nofun (by decide) (by decide) hdigit nofun⟩
  split at h
  · rename_i hstart
    cases h
    refine ⟨_, _, rfl, rfl, lexeme_run hrest rfl nofun (by decide) (by decide) ?_ nofun⟩
    rw [isIdentifierPart, hstart, Bool.true_or]
  split at h
  · rename_i hquote
    exact ⟨.string, lexeme_string hrest hquote h⟩
  split at h
  · rename_i hterminator
    exact ⟨.newline, lexeme_newline hrest hterminator h⟩
  · rename_i hterminator
    exact ⟨.symbol, lexeme_symbol hrest hterminator h⟩

end Readers

end Cursor

/-! ## What a step leaves behind -/

namespace Lexer

variable {lx after : Lexer} {t : Token}

theorem lineFeed_notMem_leading (lx : Lexer) : lineFeed ∉ lx.leading := by
  intro hmem
  exact absurd (isHorizontal_of_mem_leading hmem) (by decide)

/-- A leading run does not change whether the line is filled. -/
theorem shape_behind (lx : Lexer) :
    LineShape.of lx.cursor.rest = .filled ↔ LineShape.of lx.behind = .filled := by
  rw [← leading_append_behind]
  exact LineShape.of_append_eq_filled_iff fun u hu =>
    isBlank_of_isHorizontal (isHorizontal_of_mem_leading hu)

/-- A step reads a lexeme behind the leading run. -/
theorem lexeme_of_outcome {u : CodeUnit} {more : Text} (hbehind : lx.behind = u :: more)
    (h : ((lx.cursor.skip lx.leading.length).readLexeme u).1 = .ok t) :
    ∃ kind n, t = (lx.cursor.skip lx.leading.length).cut kind n ∧
      ((lx.cursor.skip lx.leading.length).readLexeme u).2 =
        (lx.cursor.skip lx.leading.length).skip n ∧
      (lx.cursor.skip lx.leading.length).Lexeme u kind n := by
  have hrest : (lx.cursor.skip lx.leading.length).rest = u :: more := by
    rw [Cursor.rest_skip]
    exact hbehind
  exact Cursor.lexeme_readLexeme hrest (Prod.ext h rfl)

/-- The text of a token is as its kind says, unless the token is a marker of no width. -/
theorem spells_of_next (h : lx.next = (.ok t, after)) (hdedent : t.kind ≠ .dedent)
    (hend : t.kind ≠ .endOfStream) : t.kind.Spells t.value := by
  have hout := outcome_of_next h
  generalize hr : (Except.ok t : Except Fault Token) = r at hout
  cases hout with
  | blank hcolumn hshape =>
    cases hr
    obtain ⟨gap, more, hrest, hgap, rfl⟩ := LineShape.exists_of_blank hshape
    have hvalue : lx.cursor.rest.take (gap.length + 1) = gap ++ [lineFeed] := by
      rw [hrest, List.take_length_add_append]
      rfl
    show TokenKind.newline.Spells (lx.cursor.rest.take (gap.length + 1))
    rw [hvalue]
    refine .newline fun hmem => ?_
    exact absurd (hgap _ hmem) (by decide)
  | closing =>
    cases hr
    exact absurd rfl hdedent
  | opening hcolumn hshape hhash hrun hlt =>
    cases hr
    have hvalue : lx.cursor.rest.take lx.leading.length = lx.leading := by
      rw [← leading_append_behind, List.take_left]
    show TokenKind.indent.Spells (lx.cursor.rest.take lx.leading.length)
    rw [hvalue]
    exact .inLine nofun (List.ne_nil_of_length_pos (by omega)) lx.lineFeed_notMem_leading
  | divergence => cases hr
  | ending =>
    cases hr
    rcases (lx.skip lx.cursor.rest.length).kind_readEndOfInput with hkind | hkind
    · exact absurd hkind hdedent
    · exact absurd hkind hend
  | @lexeme u more hbehind hstay =>
    obtain ⟨kind, n, rfl, -, hlexeme⟩ := lexeme_of_outcome hbehind hr.symm
    exact hlexeme.spells

/-- A token that covers something ends at the start of a line only if it ends a line. -/
theorem column_of_next (h : lx.next = (.ok t, after)) (hdedent : t.kind ≠ .dedent)
    (hend : t.kind ≠ .endOfStream) : after.cursor.column = 0 ↔ t.kind = .newline := by
  obtain ⟨gap, width, hcovers⟩ := next_covers h
  have hspells := spells_of_next h hdedent hend
  have htake : lx.cursor.rest.take (gap + width) = lx.cursor.rest.take gap ++ t.value := by
    rw [hcovers.value hdedent, List.take_add]
  have hlast : (lx.cursor.rest.take (gap + width)).getLast? = t.value.getLast? := by
    rw [htake, List.getLast?_append, List.getLast?_eq_some_getLast hspells.ne_nil, Option.some_or]
  have hne : lx.cursor.rest.take (gap + width) ≠ [] := by
    rw [htake]
    exact List.append_ne_nil_of_right_ne_nil _ hspells.ne_nil
  rw [hcovers.after, Cursor.column_skip_eq_zero_iff hcovers.le hne, hlast,
    hspells.getLast?_eq_iff]

/-- So does its span, which covers something only if the token is no marker. -/
theorem column_of_covering (h : lx.next = (.ok t, after))
    (hwidth : t.span.start.offset < t.span.stop.offset) :
    t.span.stop.column = 0 ↔ t.kind = .newline := by
  obtain ⟨gap, width, hcovers⟩ := next_covers h
  have hmark : ¬(t.kind = .dedent ∨ t.kind = .endOfStream) := by
    intro hmark
    rw [hcovers.span, hcovers.mark hmark] at hwidth
    exact absurd hwidth (Int.lt_irrefl _)
  rw [not_or] at hmark
  have hstop : t.span.stop.column = after.cursor.column := by
    rw [hcovers.span, hcovers.after]
    rfl
  rw [hstop, ← column_of_next h hmark.1 hmark.2]
  omega

/-- What the state behind a token can be. -/
structure Behind (t : Token) (lx : Lexer) : Prop where
  column : t.kind ≠ .dedent → t.kind ≠ .endOfStream →
    (lx.cursor.column = 0 ↔ t.kind = .newline)
  /-- A block is opened in front of something on its line that is no comment. -/
  indent : t.kind = .indent →
    LineShape.of lx.cursor.rest = .filled ∧ lx.behind.head? ≠ some hash
  /-- A block is closed in front of a line with something on it, or at the end. -/
  dedent : t.kind = .dedent →
    lx.cursor.rest = [] ∨ lx.cursor.column = 0 ∧ LineShape.of lx.cursor.rest = .filled
  /-- A comment goes up to the end of its line. -/
  comment : t.kind = .comment → ∀ u ∈ lx.cursor.rest.head?, isLineTerminator u = true
  ending : t.kind = .endOfStream → lx.cursor.rest = []

theorem behind_of_next (h : lx.next = (.ok t, after)) : after.Behind t := by
  have hcolumn := column_of_next h
  have hout := outcome_of_next h
  generalize hr : (Except.ok t : Except Fault Token) = r at hout
  cases hout with
  | blank =>
    cases hr
    exact ⟨hcolumn, nofun, nofun, nofun, nofun⟩
  | closing hstart hshape =>
    cases hr
    exact ⟨hcolumn, nofun, fun _ => .inr ⟨hstart, hshape⟩, nofun, nofun⟩
  | opening hstart hshape hhash =>
    cases hr
    refine ⟨hcolumn, fun _ => ⟨?_, ?_⟩, nofun, nofun, nofun⟩
    · show LineShape.of (lx.cursor.skip lx.leading.length).rest = .filled
      rw [Cursor.rest_skip]
      exact lx.shape_behind.1 hshape
    · show (lx.skip lx.leading.length).behind.head? ≠ some hash
      rw [behind_skip_leading]
      exact hhash
  | divergence => cases hr
  | ending =>
    cases hr
    have hrest : (lx.skip lx.cursor.rest.length).cursor.rest = [] := by simp
    revert hcolumn
    unfold readEndOfInput
    split
    · exact fun hcolumn => ⟨hcolumn, nofun, nofun, nofun, fun _ => hrest⟩
    · exact fun hcolumn => ⟨hcolumn, nofun, fun _ => .inl hrest, nofun, nofun⟩
  | @lexeme u more hbehind hstay =>
    obtain ⟨kind, n, rfl, hafter, hlexeme⟩ := lexeme_of_outcome hbehind hr.symm
    obtain ⟨hend, hindent, hdedent⟩ := TokenKind.ne_of_isLexeme hlexeme.isLexeme
    refine ⟨hcolumn, fun h => absurd h hindent, fun h => absurd h hdedent, fun hcomment => ?_,
      fun h => absurd h hend⟩
    rw [hafter, Cursor.rest_skip]
    exact hlexeme.stops hcomment

/-- The state behind some tokens of a source is the first one, or one behind the last of the
tokens. -/
theorem behind_of_calls {start : Lexer} {tokens : List Token}
    (h : Calls Lexer.next start tokens lx) :
    tokens = [] ∧ lx = start ∨ ∃ p, tokens.getLast? = some p ∧ lx.Behind p := by
  rcases List.eq_nil_or_concat tokens with rfl | ⟨before, p, rfl⟩
  · cases h
    exact .inl ⟨rfl, rfl⟩
  · rw [List.concat_eq_append] at h
    obtain ⟨mid, -, hlast⟩ := h.split
    cases hlast with
    | cons hstep hrest =>
      cases hrest
      exact .inr ⟨p, by simp, behind_of_next hstep⟩

/-! ## What can be read from such a state -/

/-- From a filled line something on it is read: never its end, and never the end of the
source.  Inside the line its structure is settled, and a comment shows by its hash. -/
theorem kind_of_filled (hfilled : LineShape.of lx.cursor.rest = .filled)
    (h : lx.next = (.ok t, after)) :
    t.kind ≠ .newline ∧ t.kind ≠ .endOfStream ∧
      (lx.cursor.column ≠ 0 → t.kind ≠ .indent ∧ t.kind ≠ .dedent) ∧
      (lx.behind.head? ≠ some hash → t.kind ≠ .comment) := by
  have hout := outcome_of_next h
  generalize hr : (Except.ok t : Except Fault Token) = r at hout
  cases hout with
  | blank hcolumn hshape =>
    rw [hfilled] at hshape
    cases hshape
  | closing hcolumn =>
    cases hr
    exact ⟨nofun, nofun, fun hne => absurd hcolumn hne, nofun⟩
  | opening hcolumn =>
    cases hr
    exact ⟨nofun, nofun, fun hne => absurd hcolumn hne, nofun⟩
  | divergence => cases hr
  | ending hgap =>
    rw [LineShape.of_eq_trailing (isBlank_of_gap hgap)] at hfilled
    cases hfilled
  | @lexeme u more hbehind hstay =>
    obtain ⟨kind, n, rfl, hafter, hlexeme⟩ := lexeme_of_outcome hbehind hr.symm
    obtain ⟨hend, hindent, hdedent⟩ := TokenKind.ne_of_isLexeme hlexeme.isLexeme
    have hrest : (lx.cursor.skip lx.leading.length).rest = lx.behind := Cursor.rest_skip _ _
    refine ⟨?_, hend, fun _ => ⟨hindent, hdedent⟩, ?_⟩
    · intro hnewline
      have hshape := hlexeme.blank hnewline
      rw [hrest, lx.shape_behind.1 hfilled] at hshape
      cases hshape
    · intro hhash hcomment
      rw [hbehind, hlexeme.opens hcomment] at hhash
      exact hhash rfl

/-- In front of a line terminator inside a line the line ends. -/
theorem kind_of_terminator {u : CodeUnit} {more : Text} (hcolumn : lx.cursor.column ≠ 0)
    (hrest : lx.cursor.rest = u :: more) (hu : isLineTerminator u = true)
    (h : lx.next = (.ok t, after)) : t.kind = .newline := by
  have hhorizontal : ¬isHorizontal u = true := by
    intro hspace
    exact not_isLineTerminator_of_mem (by decide) (by decide) hspace hu
  have hleading : lx.leading = [] := by
    rw [leading, Cursor.run, hrest, List.takeWhile_cons_of_neg hhorizontal]
  have hbehind : lx.behind = u :: more := by
    rw [behind, hleading, hrest]
    rfl
  rw [next_of_column_ne_zero hcolumn, readInLine_of_behind hbehind] at h
  obtain ⟨hread, -⟩ := Prod.mk.inj h
  obtain ⟨kind, n, rfl, -, hlexeme⟩ := lexeme_of_outcome hbehind hread
  exact hlexeme.ends hu

/-- Where a block is opened, or closed before the end of the source, a line starts. -/
theorem line_start_of_next {source : Text} (hat : lx.cursor.At source)
    (h : lx.next = (.ok t, after))
    (hkind : t.kind = .indent ∨
      t.kind = .dedent ∧ t.span.start.offset < (source.length : Int)) :
    lx.cursor.column = 0 ∧ lx.cursor.rest ≠ [] ∧ t.span.start = lx.cursor.location ∧
      (t.kind = .dedent → lx.blocks ≠ [] ∧ after.cursor.rest ≠ []) := by
  have hout := outcome_of_next h
  generalize hr : (Except.ok t : Except Fault Token) = r at hout
  cases hout with
  | blank =>
    cases hr
    rcases hkind with hkind | ⟨hkind, -⟩ <;> cases hkind
  | closing hcolumn hshape hblocks =>
    cases hr
    have hne := rest_ne_nil_of_filled hshape
    exact ⟨hcolumn, hne, rfl, fun _ => ⟨hblocks, hne⟩⟩
  | opening hcolumn hshape =>
    cases hr
    exact ⟨hcolumn, rest_ne_nil_of_filled hshape, rfl, nofun⟩
  | divergence => cases hr
  | ending =>
    -- The marker is at the end of the source.
    cases hr
    have hoffset : (lx.skip lx.cursor.rest.length).cursor.offset = source.length := by
      rw [skip_cursor, Cursor.offset_skip (Nat.le_refl _)]
      exact hat.offset_add_length
    rcases hkind with hindent | ⟨-, hlt⟩
    · rcases (lx.skip lx.cursor.rest.length).kind_readEndOfInput with hkind | hkind <;>
      · rw [hindent] at hkind
        cases hkind
    · obtain ⟨kind, value, hmark, -⟩ := (lx.skip lx.cursor.rest.length).readEndOfInput_eq_mark
      rw [hmark] at hlt
      have hbefore : ((lx.skip lx.cursor.rest.length).cursor.offset : Int) < source.length := hlt
      omega
  | @lexeme u more hbehind hstay =>
    obtain ⟨kind, n, rfl, -, hlexeme⟩ := lexeme_of_outcome hbehind hr.symm
    obtain ⟨-, hindent, hdedent⟩ := TokenKind.ne_of_isLexeme hlexeme.isLexeme
    rcases hkind with hkind | ⟨hkind, -⟩
    · exact absurd hkind hindent
    · exact absurd hkind hdedent

/-- A line starts behind the end of a line or behind a closed block only. -/
theorem Behind.starts_line {p : Token} (h : lx.Behind p) (hcolumn : lx.cursor.column = 0)
    (hne : lx.cursor.rest ≠ []) : p.kind = .newline ∨ p.kind = .dedent := by
  by_cases hdedent : p.kind = .dedent
  · exact .inr hdedent
  by_cases hend : p.kind = .endOfStream
  · exact absurd (h.ending hend) hne
  · exact .inl ((h.column hdedent hend).1 hcolumn)

theorem Behind.inside_line {p : Token} (h : lx.Behind p) (hnewline : p.kind ≠ .newline)
    (hdedent : p.kind ≠ .dedent) (hend : p.kind ≠ .endOfStream) : lx.cursor.column ≠ 0 := by
  intro hcolumn
  exact hnewline ((h.column hdedent hend).1 hcolumn)

/-- At the end of the source only the markers are left. -/
theorem isTail_of_calls {source : Text} {tokens : List Token} (hat : lx.cursor.At source)
    (hrest : lx.cursor.rest = []) (h : Calls Lexer.next lx tokens after) :
    ∀ t ∈ tokens, t.isTail source.length = true := by
  induction h with
  | nil => simp
  | cons hstep _ ih =>
    obtain ⟨htail, hcursor⟩ := isTail_of_next hat hrest hstep
    rw [hcursor] at ih
    exact List.forall_mem_cons.2 ⟨htail, ih hat hrest⟩

/-! ## Line feeds -/

/-- The line feeds that a token covers are those of its value, and there are none before
it. -/
theorem count_lineFeed_next (h : lx.next = (.ok t, after)) :
    lx.cursor.rest.count lineFeed =
      (if t.kind = .newline then 1 else 0) +
        (if t.kind = .string then t.value.count lineFeed else 0) +
        after.cursor.rest.count lineFeed := by
  obtain ⟨gap, width, hcovers⟩ := next_covers h
  have hgap : lineFeed ∉ lx.cursor.rest.take gap := by
    intro hmem
    rcases hcovers.gap with hgap | ⟨-, -, hgap⟩
    · exact absurd (hgap _ hmem) (by decide)
    · exact absurd (hgap _ hmem) (by decide)
  have hsplit : lx.cursor.rest = lx.cursor.rest.take gap ++
      ((lx.cursor.rest.drop gap).take width ++ after.cursor.rest) := by
    rw [hcovers.after, Cursor.rest_skip, ← List.drop_drop, List.take_append_drop,
      List.take_append_drop]
  have hvalue : ((lx.cursor.rest.drop gap).take width).count lineFeed =
      (if t.kind = .newline then 1 else 0) +
        (if t.kind = .string then t.value.count lineFeed else 0) := by
    by_cases hmark : t.kind = .dedent ∨ t.kind = .endOfStream
    · rw [hcovers.mark hmark]
      rcases hmark with hkind | hkind <;> simp [hkind]
    · rw [not_or] at hmark
      rw [← hcovers.value hmark.1]
      exact (spells_of_next h hmark.1 hmark.2).count_lineFeed
  have hcount := congrArg (List.count lineFeed) hsplit
  rw [List.count_append, List.count_append, List.count_eq_zero.2 hgap, hvalue] at hcount
  omega

theorem count_lineFeed_calls {tokens : List Token} (h : Calls Lexer.next lx tokens after) :
    lx.cursor.rest.count lineFeed =
      tokens.countP (·.kind == .newline) +
        ((tokens.filter (·.kind == .string)).flatMap (·.value)).count lineFeed +
        after.cursor.rest.count lineFeed := by
  induction h with
  | nil => simp
  | @cons lx mid _ t rest hstep _ ih =>
    rw [count_lineFeed_next hstep, ih, List.countP_cons, List.filter_cons]
    by_cases hnewline : t.kind = .newline
    · simp [hnewline]
      omega
    · by_cases hstring : t.kind = .string
      · simp [hstring]
        omega
      · simp [hnewline, hstring]

end Lexer

/-! ## Whole sources -/

/-- The kinds of token with which a line goes on behind its leading run. -/
def TokenKind.isContent : TokenKind → Bool
  | .identifier | .integer | .string | .symbol => true
  | .endOfStream | .newline | .indent | .dedent | .comment => false

/-- The order of the tokens of a source. -/
structure Token.Grammatical (source : Text) (tokens : List Token) : Prop where
  /-- A block is opened at the start of a line, in front of something to read. -/
  indent : ∀ before t after, tokens = before ++ t :: after → t.kind = .indent →
    t.span.start.column = 0 ∧
      (before = [] ∨ ∃ p, before.getLast? = some p ∧ (p.kind = .newline ∨ p.kind = .dedent)) ∧
      ∃ n, after.head? = some n ∧ n.kind.isContent = true
  /-- A block is closed at the start of a line that is not empty, or at the end. -/
  dedent : ∀ before t after, tokens = before ++ t :: after → t.kind = .dedent →
    t.span.start.offset < (source.length : Int) →
      t.span.start.column = 0 ∧
        (∃ p, before.getLast? = some p ∧ (p.kind = .newline ∨ p.kind = .dedent)) ∧
        ∃ n, after.head? = some n ∧
          (n.kind = .dedent ∨ n.kind = .indent ∨ n.kind = .comment ∨ n.kind.isContent = true)
  /-- Behind a comment the line ends, or the source does. -/
  comment : ∀ before t after, tokens = before ++ t :: after → t.kind = .comment →
    (∃ n, after.head? = some n ∧ n.kind = .newline) ∨
      after ≠ [] ∧ ∀ n ∈ after, n.isTail source.length = true
  newline : ∀ t ∈ tokens, t.kind = .newline → ∃ gap, t.value = gap ++ [lineFeed] ∧ lineFeed ∉ gap
  column : ∀ t ∈ tokens, t.span.start.offset < t.span.stop.offset →
    (t.span.stop.column = 0 ↔ t.kind = .newline)
  ending : ∃ body last, tokens = body ++ [last] ∧ last.kind = .endOfStream ∧
    ∀ t ∈ body, t.kind ≠ .endOfStream
  /-- The line feeds of a source end its lines or stand in its strings. -/
  lineFeeds : source.count lineFeed =
    tokens.countP (·.kind == .newline) +
      ((tokens.filter (·.kind == .string)).flatMap (·.value)).count lineFeed

namespace Lexer

variable {lx after : Lexer} {t : Token}

theorem isContent_of_kind {kind : TokenKind} (hnewline : kind ≠ .newline)
    (hend : kind ≠ .endOfStream) (hindent : kind ≠ .indent) (hdedent : kind ≠ .dedent)
    (hcomment : kind ≠ .comment) : kind.isContent = true := by
  cases kind <;> first | rfl | contradiction

/-- Behind an opened block the line goes on. -/
theorem follows_indent (hbehind : lx.Behind t) (hkind : t.kind = .indent) {n : Token}
    (h : lx.next = (.ok n, after)) : n.kind.isContent = true := by
  obtain ⟨hfilled, hhash⟩ := hbehind.indent hkind
  have hcolumn := hbehind.inside_line (by simp [hkind]) (by simp [hkind]) (by simp [hkind])
  obtain ⟨hnewline, hend, hstructure, hcomment⟩ := kind_of_filled hfilled h
  obtain ⟨hindent, hdedent⟩ := hstructure hcolumn
  exact isContent_of_kind hnewline hend hindent hdedent (hcomment hhash)

/-- Behind a closed block the same line is read. -/
theorem follows_dedent (hbehind : lx.Behind t) (hkind : t.kind = .dedent)
    (hne : lx.cursor.rest ≠ []) {n : Token} (h : lx.next = (.ok n, after)) :
    n.kind = .dedent ∨ n.kind = .indent ∨ n.kind = .comment ∨ n.kind.isContent = true := by
  obtain ⟨-, hfilled⟩ := (hbehind.dedent hkind).resolve_left hne
  obtain ⟨hnewline, hend, -⟩ := kind_of_filled hfilled h
  by_cases hdedent : n.kind = .dedent
  · exact .inl hdedent
  by_cases hindent : n.kind = .indent
  · exact .inr (.inl hindent)
  by_cases hcomment : n.kind = .comment
  · exact .inr (.inr (.inl hcomment))
  · exact .inr (.inr (.inr (isContent_of_kind hnewline hend hindent hdedent hcomment)))

/-- Behind a comment its line ends, unless the source does. -/
theorem follows_comment (hbehind : lx.Behind t) (hkind : t.kind = .comment)
    (hne : lx.cursor.rest ≠ []) {n : Token} (h : lx.next = (.ok n, after)) :
    n.kind = .newline := by
  obtain ⟨u, more, hrest⟩ := List.exists_cons_of_ne_nil hne
  have hcolumn := hbehind.inside_line (by simp [hkind]) (by simp [hkind]) (by simp [hkind])
  exact kind_of_terminator hcolumn hrest (hbehind.comment hkind u (by simp [hrest])) h

/-- A token among those of a source, with the state before it and the state behind it. -/
structure Reads (source : Text) (before : List Token) (t : Token) (more : List Token)
    (lx after : Lexer) : Prop where
  cursor : lx.cursor.At source
  first : before = [] ∧ lx = ofSource source ∨ ∃ p, before.getLast? = some p ∧ lx.Behind p
  step : lx.next = (.ok t, after)
  rest : ∃ final, Calls Lexer.next after more final

theorem exists_reads {source : Text} {final : Lexer} {tokens before more : List Token}
    (h : Calls Lexer.next (ofSource source) tokens final)
    (hsplit : tokens = before ++ t :: more) :
    ∃ lx after, Reads source before t more lx after := by
  subst hsplit
  obtain ⟨lx, hbefore, hrest⟩ := h.split
  have hstart : (ofSource source).cursor.At source := ⟨0, Nat.zero_le _, rfl⟩
  cases hrest with
  | cons hstep hmore =>
    exact ⟨lx, _, cursor_at_calls hstart hbefore, behind_of_calls hbefore, hstep, _, hmore⟩

namespace Reads

variable {source : Text} {before more : List Token} {n : Token}

theorem next (h : Reads source before t (n :: more) lx after) :
    ∃ behind, after.next = (.ok n, behind) := by
  obtain ⟨final, hcalls⟩ := h.rest
  cases hcalls with
  | cons hnext _ => exact ⟨_, hnext⟩

theorem indent (h : Reads source before t (n :: more) lx after) (hkind : t.kind = .indent) :
    t.span.start.column = 0 ∧
      (before = [] ∨ ∃ p, before.getLast? = some p ∧ (p.kind = .newline ∨ p.kind = .dedent)) ∧
      n.kind.isContent = true := by
  obtain ⟨hcolumn, hne, hstart, -⟩ := line_start_of_next h.cursor h.step (.inl hkind)
  obtain ⟨behind, hnext⟩ := h.next
  refine ⟨?_, ?_, follows_indent (behind_of_next h.step) hkind hnext⟩
  · rw [hstart]
    exact congrArg Int.ofNat hcolumn
  · rcases h.first with ⟨hnil, -⟩ | ⟨p, hp, hbehind⟩
    · exact .inl hnil
    · exact .inr ⟨p, hp, hbehind.starts_line hcolumn hne⟩

theorem dedent (h : Reads source before t (n :: more) lx after) (hkind : t.kind = .dedent)
    (hbefore : t.span.start.offset < (source.length : Int)) :
    t.span.start.column = 0 ∧
      (∃ p, before.getLast? = some p ∧ (p.kind = .newline ∨ p.kind = .dedent)) ∧
      (n.kind = .dedent ∨ n.kind = .indent ∨ n.kind = .comment ∨ n.kind.isContent = true) := by
  obtain ⟨hcolumn, hne, hstart, hclosed⟩ :=
    line_start_of_next h.cursor h.step (.inr ⟨hkind, hbefore⟩)
  obtain ⟨hblocks, hahead⟩ := hclosed hkind
  obtain ⟨behind, hnext⟩ := h.next
  refine ⟨?_, ?_, follows_dedent (behind_of_next h.step) hkind hahead hnext⟩
  · rw [hstart]
    exact congrArg Int.ofNat hcolumn
  · rcases h.first with ⟨-, hfirst⟩ | ⟨p, hp, hbehind⟩
    · -- At the start of the source no block is open.
      rw [hfirst] at hblocks
      exact absurd rfl hblocks
    · exact ⟨p, hp, hbehind.starts_line hcolumn hne⟩

theorem comment (h : Reads source before t (n :: more) lx after) (hkind : t.kind = .comment) :
    n.kind = .newline ∨ ∀ p ∈ n :: more, p.isTail source.length = true := by
  by_cases hend : after.cursor.rest = []
  · obtain ⟨final, hcalls⟩ := h.rest
    exact .inr (isTail_of_calls (cursor_at_next h.cursor h.step) hend hcalls)
  · obtain ⟨behind, hnext⟩ := h.next
    exact .inl (follows_comment (behind_of_next h.step) hkind hend hnext)

end Reads

end Lexer

/-- Every token but the end of the stream has a token behind it. -/
theorem Token.exists_cons_of_split {tokens body before more : List Token} {t last : Token}
    (htokens : tokens = body ++ [last]) (hlast : last.kind = .endOfStream)
    (hsplit : tokens = before ++ t :: more) (hkind : t.kind ≠ .endOfStream) :
    ∃ n rest, more = n :: rest := by
  cases more with
  | cons n rest => exact ⟨n, rest, rfl⟩
  | nil =>
    have hsame := congrArg List.getLast? (htokens.symm.trans hsplit)
    rw [List.getLast?_concat, List.getLast?_concat, Option.some.injEq] at hsame
    exact absurd (hsame ▸ hlast) hkind

/-- The tokens of a source, comments included, stand in the order that a reader of them
relies on. -/
theorem tokenize_grammatical {source : Text} {tokens : List Token}
    (h : tokenize source true = .ok tokens) : Token.Grammatical source tokens := by
  obtain ⟨hfault, rfl⟩ := tokenize_eq_ok_iff.1 h
  obtain ⟨hcalls, body, last, htokens, hlast, hbody⟩ := Lexer.calls_of_scan_end hfault
  have hreads : ∀ t ∈ (Lexer.ofSource source).scan.tokens,
      ∃ (lx after : Lexer), lx.next = (.ok t, after) := by
    intro t ht
    obtain ⟨before, more, hsplit⟩ := List.append_of_mem ht
    obtain ⟨lx, after, hreads⟩ := Lexer.exists_reads hcalls hsplit
    exact ⟨lx, after, hreads.step⟩
  refine ⟨?_, ?_, ?_, ?_, ?_, ⟨body, last, htokens, hlast, hbody⟩, ?_⟩
  · intro before t more hsplit hkind
    obtain ⟨n, rest, rfl⟩ := Token.exists_cons_of_split htokens hlast hsplit (by simp [hkind])
    obtain ⟨lx, after, hreads⟩ := Lexer.exists_reads hcalls hsplit
    obtain ⟨hcolumn, hfirst, hnext⟩ := hreads.indent hkind
    exact ⟨hcolumn, hfirst, n, rfl, hnext⟩
  · intro before t more hsplit hkind hbefore
    obtain ⟨n, rest, rfl⟩ := Token.exists_cons_of_split htokens hlast hsplit (by simp [hkind])
    obtain ⟨lx, after, hreads⟩ := Lexer.exists_reads hcalls hsplit
    obtain ⟨hcolumn, hfirst, hnext⟩ := hreads.dedent hkind hbefore
    exact ⟨hcolumn, hfirst, n, rfl, hnext⟩
  · intro before t more hsplit hkind
    obtain ⟨n, rest, rfl⟩ := Token.exists_cons_of_split htokens hlast hsplit (by simp [hkind])
    obtain ⟨lx, after, hreads⟩ := Lexer.exists_reads hcalls hsplit
    rcases hreads.comment hkind with hnewline | htail
    · exact .inl ⟨n, rfl, hnewline⟩
    · exact .inr ⟨by simp, htail⟩
  · intro t ht hkind
    obtain ⟨lx, after, hnext⟩ := hreads t ht
    exact (Lexer.spells_of_next hnext (by simp [hkind]) (by simp [hkind])).exists_of_newline hkind
  · intro t ht hwidth
    obtain ⟨lx, after, hnext⟩ := hreads t ht
    exact Lexer.column_of_covering hnext hwidth
  · have hcount := Lexer.count_lineFeed_calls hcalls
    have hrest : (Lexer.ofSource source).scan.final.cursor.rest = [] := by
      rcases Lexer.behind_of_calls hcalls with ⟨hnil, -⟩ | ⟨p, hp, hbehind⟩
      · simp [hnil] at htokens
      · rw [htokens, List.getLast?_concat, Option.some.injEq] at hp
        exact hbehind.ending (hp ▸ hlast)
    rw [hrest] at hcount
    exact hcount

/-- A block with a comment in it, one more inside that a shorter run closes, a string over
two lines, and a comment that the source ends. -/
theorem tokenize_grammatical_two_blocks :
    let source : Text := "a\n  # b\n   c\n d \"\\\n\"\n#"
    ∃ tokens, tokenize source true = .ok tokens ∧
      tokens.map (·.kind) =
        [.identifier, .newline, .comment, .newline, .indent, .identifier, .newline, .dedent,
          .indent, .identifier, .string, .newline, .dedent, .comment, .endOfStream] ∧
      Token.Grammatical source tokens := by
  intro source
  have h : tokenize source true = .ok (Lexer.ofSource source).scan.tokens := by
    rw [tokenize_eq_ok_iff]
    exact ⟨by decide +kernel, rfl⟩
  exact ⟨_, h, by decide +kernel, tokenize_grammatical h⟩

end SceneTokens
