import SceneTokens.Proofs.Balance
import SceneTokens.Proofs.Tiling

/-!
# Line ends of two units

A line may end by a line feed or by a carriage return and a line feed.  A source whose
lines end in one way reads like the same source with lines that end in the other:
`Text.crlf` puts a carriage return in front of every line feed, and a run over the one
text follows the run over the other step by step.

* `Cursor.crlf`, `Lexer.crlf` and so on: the state at the same place of the other text.
  Lines and columns are the same; an offset grows by the line feeds in front of it.
* `Cursor.readLexeme_crlf`: the readers commute with it.  A carriage return is half a line
  end for one of them, stops a comment, is blank at the start of a line, and is any unit of
  a string; `LineShape.of_crlf`, `takeWhile_crlf` and `scanString_crlf` say that each time
  the line feed behind it has the last word.
* `Lexer.Outcome.crlf`, `Lexer.next_crlf` and `Lexer.scan_crlf`: so do a step and a scan.

A source must not have carriage returns of its own, and no backslash may take a line feed
into a string, because it would take the carriage return instead.

Main statement: `tokenize_crlf`.
-/

namespace SceneTokens

open CodeUnit

/-! ## Texts -/

namespace Text

/-- The text with a carriage return in front of every line feed. -/
def crlf (t : Text) : Text :=
  t.flatMap fun u => if u = lineFeed then [carriageReturn, lineFeed] else [u]

/-- The text with a line feed for every carriage return and line feed. -/
def lf : Text → Text
  | u :: v :: rest =>
    if u = carriageReturn ∧ v = lineFeed then lineFeed :: lf rest else u :: lf (v :: rest)
  | t => t

/-- Lines end by a line feed alone, and outside strings only. -/
structure LineFeedsOnly (t : Text) : Prop where
  noReturn : carriageReturn ∉ t
  noEscape : ¬[backslash, lineFeed] <:+: t

theorem LineFeedsOnly.of_suffix {s t : Text} (h : t.LineFeedsOnly) (hsuffix : s <:+ t) :
    s.LineFeedsOnly :=
  ⟨fun hmem => h.noReturn (hsuffix.mem hmem),
    fun hslashed => h.noEscape (hslashed.trans hsuffix.isInfix)⟩

@[simp]
theorem crlf_nil : crlf [] = [] := rfl

@[simp]
theorem crlf_lineFeed (t : Text) :
    crlf (lineFeed :: t) = carriageReturn :: lineFeed :: t.crlf := rfl

@[simp]
theorem crlf_cons {u : CodeUnit} (t : Text) (h : u ≠ lineFeed) : crlf (u :: t) = u :: t.crlf := by
  simp [crlf, h]

@[simp]
theorem crlf_append (s t : Text) : (s ++ t).crlf = s.crlf ++ t.crlf := List.flatMap_append

theorem crlf_of_notMem {t : Text} (h : lineFeed ∉ t) : t.crlf = t := by
  induction t with
  | nil => rfl
  | cons u t ih =>
    rw [List.mem_cons, not_or] at h
    rw [crlf_cons t (Ne.symm h.1), ih h.2]

theorem length_crlf (t : Text) : t.crlf.length = t.length + t.count lineFeed := by
  induction t with
  | nil => rfl
  | cons u t ih =>
    by_cases hu : u = lineFeed
    · subst hu
      rw [crlf_lineFeed, List.count_cons_self]
      simp only [List.length_cons]
      omega
    · rw [crlf_cons t hu, List.count_cons_of_ne hu]
      simp only [List.length_cons]
      omega

/-- The beginning of a text is found again, longer by its line feeds. -/
theorem take_crlf {t : Text} {n : Nat} (hn : n ≤ t.length) :
    t.crlf.take (n + (t.take n).count lineFeed) = crlf (t.take n) := by
  have hlen : (crlf (t.take n)).length = n + (t.take n).count lineFeed := by
    rw [length_crlf, List.length_take_of_le hn]
  have hsplit : t.crlf = crlf (t.take n) ++ crlf (t.drop n) := by
    rw [← crlf_append, List.take_append_drop]
  rw [hsplit, ← hlen, List.take_left]

theorem lf_cons {u : CodeUnit} (t : Text) (h : u ≠ carriageReturn) : lf (u :: t) = u :: lf t := by
  cases t with
  | nil => rfl
  | cons v rest => exact if_neg fun hboth => h hboth.1

/-- Without carriage returns of its own a text can be had back. -/
theorem lf_crlf {t : Text} (h : carriageReturn ∉ t) : t.crlf.lf = t := by
  induction t with
  | nil => rfl
  | cons u t ih =>
    rw [List.mem_cons, not_or] at h
    by_cases hu : u = lineFeed
    · subst hu
      show lineFeed :: lf (crlf t) = lineFeed :: t
      rw [ih h.2]
    · rw [crlf_cons t hu, lf_cons _ (Ne.symm h.1), ih h.2]

theorem lf_of_notMem {t : Text} (h : carriageReturn ∉ t) : t.lf = t := by
  induction t with
  | nil => rfl
  | cons u t ih =>
    rw [List.mem_cons, not_or] at h
    rw [lf_cons t (Ne.symm h.1), ih h.2]

/-- A run stops at the carriage return if it stops at the line feed. -/
theorem takeWhile_crlf {p : CodeUnit → Bool} (hfeed : p lineFeed = false)
    (hreturn : p carriageReturn = false) (t : Text) : t.crlf.takeWhile p = t.takeWhile p := by
  induction t with
  | nil => rfl
  | cons u t ih =>
    by_cases hu : u = lineFeed
    · subst hu
      rw [crlf_lineFeed, List.takeWhile_cons_of_neg (by simp [hreturn]),
        List.takeWhile_cons_of_neg (by simp [hfeed])]
    · rw [crlf_cons t hu, List.takeWhile_cons, List.takeWhile_cons, ih]

theorem head?_crlf_eq_iff {t : Text} {u : CodeUnit} (hfeed : u ≠ lineFeed)
    (hreturn : u ≠ carriageReturn) : t.crlf.head? = some u ↔ t.head? = some u := by
  cases t with
  | nil => exact Iff.rfl
  | cons v t =>
    by_cases hv : v = lineFeed
    · subst hv
      simp [Ne.symm hfeed, Ne.symm hreturn]
    · simp [crlf_cons t hv]

/-- What a text begins with is a hash only if it was one before. -/
theorem exists_crlf_cons (u : CodeUnit) (t : Text) :
    ∃ v more, crlf (u :: t) = v :: more ∧ (u = hash → v = hash) := by
  by_cases hu : u = lineFeed
  · subst hu
    exact ⟨carriageReturn, _, crlf_lineFeed t, fun h => absurd h (by decide)⟩
  · exact ⟨u, _, crlf_cons t hu, id⟩

/-- The first half of a surrogate pair is followed by its second half, not by a line end. -/
theorem headSymbol_crlf {u : CodeUnit} (t : Text) (hu : u ≠ lineFeed) :
    headSymbol (crlf (u :: t)) = headSymbol (u :: t) := by
  rw [crlf_cons t hu]
  cases t with
  | nil => rfl
  | cons v t =>
    by_cases hv : v = lineFeed
    · subst hv
      have hfeed : isPair u lineFeed = false := Cursor.isPair_eq_false u (by decide)
      have hreturn : isPair u carriageReturn = false := Cursor.isPair_eq_false u (by decide)
      simp [headSymbol, hfeed, hreturn]
    · simp [headSymbol, crlf_cons t hv]

end Text

/-- A blank line is one unit longer. -/
def LineShape.crlf : LineShape → LineShape
  | .blank w => .blank (w + 1)
  | .trailing w => .trailing w
  | .filled => .filled

/-- A carriage return is blank, so it does not change what a line is. -/
theorem LineShape.of_crlf (t : Text) : LineShape.of t.crlf = (LineShape.of t).crlf := by
  induction t with
  | nil => rfl
  | cons u t ih =>
    by_cases hu : u = lineFeed
    · subst hu
      rw [Text.crlf_lineFeed, of_cons, of_cons, of_cons]
      rfl
    · rw [Text.crlf_cons t hu, of_cons, of_cons, ih]
      by_cases hblank : isBlank u = true
      · rw [if_pos hblank, if_pos hblank]
        cases LineShape.of t <;> rfl
      · rw [if_neg hblank, if_neg hblank]
        simp [hu, crlf]

/-! ## Strings -/

/-- Without a line feed behind a backslash the body of a string is on one line. -/
theorem StringBody.lineFeed_notMem {quote : CodeUnit} {body : Text} (h : StringBody quote body)
    (hescape : ¬[backslash, lineFeed] <:+: body) : lineFeed ∉ body := by
  induction h with
  | nil => simp
  | @escape v rest _ ih =>
    have hv : v ≠ lineFeed := by
      rintro rfl
      exact hescape ⟨[], rest, rfl⟩
    have hrest := ih fun hslashed => hescape (List.infix_cons (List.infix_cons hslashed))
    have hslash : lineFeed ≠ backslash := by decide
    simp [hrest, Ne.symm hv, hslash]
  | @plain u rest hquote hslash hfeed _ ih =>
    have hrest := ih fun hslashed => hescape (List.infix_cons hslashed)
    simp [hrest, Ne.symm hfeed]

namespace Cursor

section Strings

variable {quote : CodeUnit} {t : Text} (hfeed : quote ≠ lineFeed)
include hfeed

/-- A carriage return is a unit of the string, and the line feed behind it still ends it. -/
theorem scanString_crlf (hreturn : quote ≠ carriageReturn)
    (hescape : ¬[backslash, lineFeed] <:+: t) :
    scanString quote t.crlf =
      ((scanString quote t).1 + (t.take (scanString quote t).1).count lineFeed,
        (scanString quote t).2) := by
  fun_induction scanString quote t with
  | case1 => rfl
  | case2 u hslash =>
    rw [beq_iff_eq.1 hslash]
    rfl
  | case3 u hslash v rest n ending hscan ih =>
    rw [beq_iff_eq.1 hslash] at hescape ⊢
    have hv : v ≠ lineFeed := by
      rintro rfl
      exact hescape ⟨[], rest, rfl⟩
    have hrest := ih fun hslashed => hescape (List.infix_cons (List.infix_cons hslashed))
    rw [hscan] at hrest
    rw [Text.crlf_cons _ (by decide), Text.crlf_cons _ hv, scanString]
    simp only [beq_self_eq_true, if_true, hrest, List.take_succ_cons]
    rw [List.count_cons_of_ne (by decide), List.count_cons_of_ne hv]
    simp only [Prod.mk.injEq, and_true]
    omega
  | case4 u rest hslash hquote =>
    have hu : u ≠ lineFeed := by
      rw [beq_iff_eq.1 hquote]
      exact hfeed
    rw [Text.crlf_cons _ hu, scanString.eq_def]
    simp [hslash, hquote, hu]
  | case5 u rest hslash hquote hline =>
    -- Two units of the other text: the carriage return is plain, and the line feed ends it.
    rw [beq_iff_eq.1 hline, Text.crlf_lineFeed, scanString_plain (by decide) (Ne.symm hreturn)
      (by decide), scanString.eq_def]
    have hother : (lineFeed == quote) = false := beq_false_of_ne (Ne.symm hfeed)
    have hslash' : (lineFeed == backslash) = false := by decide
    simp [hother, hslash']
  | case6 u rest hslash hquote hline n ending hscan ih =>
    have hu : u ≠ lineFeed := by simpa using hline
    have hrest := ih fun hslashed => hescape (List.infix_cons hslashed)
    rw [hscan] at hrest
    rw [Text.crlf_cons _ hu, scanString_plain (by simpa using hslash) (by simpa using hquote) hu,
      hrest, List.take_succ_cons, List.count_cons_of_ne hu]
    simp only [Prod.mk.injEq, and_true]
    omega

theorem lineFeed_notMem_of_closed {n : Nat} (hescape : ¬[backslash, lineFeed] <:+: t)
    (h : scanString quote t = (n, .closed)) : lineFeed ∉ t.take n := by
  have hspec := scanString_spec quote t
  rw [h] at hspec
  cases hspec with
  | @closed body more hbody hsplit =>
    have hnot := hbody.lineFeed_notMem fun hslashed =>
      hescape (hslashed.trans ⟨[], quote :: more, by simp [hsplit]⟩)
    have htake : t.take (body.length + 1) = body ++ [quote] := by
      rw [hsplit, List.take_length_add_append]
      rfl
    rw [htake]
    simp [hnot, Ne.symm hfeed]

end Strings

end Cursor

/-! ## Places -/

/-- The same place of a source whose lines end by two units. -/
def Location.crlf (l : Location) (source : Text) : Location :=
  { l with offset := l.offset + (source.take l.offset.toNat).count lineFeed }

def Span.crlf (s : Span) (source : Text) : Span := ⟨s.start.crlf source, s.stop.crlf source⟩

/-- The token at the same place.  The end of a line is written out in the value of a
`newline` alone. -/
def Token.crlf (t : Token) (source : Text) : Token where
  kind := t.kind
  value := if t.kind = .newline then t.value.crlf else t.value
  span := t.span.crlf source

/-- The fault at the same place. -/
def Fault.crlf (f : Fault) (source : Text) : Fault := f.relocate (·.crlf source)

namespace Fault

variable (f : Fault) (source : Text)

theorem code_crlf : (f.crlf source).code = f.code := by cases f <;> rfl

theorem context_crlf : (f.crlf source).context = f.context := by cases f <;> rfl

theorem location_crlf : (f.crlf source).location = f.location.crlf source := by cases f <;> rfl

theorem span_crlf : (f.crlf source).span = f.span.map (·.crlf source) := by cases f <;> rfl

end Fault

/-- What is read at the same place: a token, or a fault. -/
def Token.crlfResult (source : Text) : Except Fault Token → Except Fault Token
  | .ok token => .ok (token.crlf source)
  | .error fault => .error (fault.crlf source)

/-! ## Cursors and readers -/

namespace Cursor

/-- The cursor at the same place. -/
def crlf (c : Cursor) : Cursor where
  before := (Text.crlf c.before.reverse).reverse
  rest := c.rest.crlf
  line := c.line
  column := c.column
  offset := c.offset + c.before.count lineFeed

/-- One unit is moved over as one, and a line feed as two. -/
theorem advance_crlf {c : Cursor} {u : CodeUnit} {rest : Text} (hrest : c.rest = u :: rest) :
    c.advance.crlf = if u = lineFeed then c.crlf.advance.advance else c.crlf.advance := by
  by_cases hu : u = lineFeed
  · subst hu
    simp [advance, crlf, hrest]
    exact ⟨by decide, by omega⟩
  · simp [advance, crlf, hrest, hu]
    omega

/-- The cursors of the two texts move along together. -/
theorem skip_crlf {c : Cursor} {n : Nat} (hn : n ≤ c.rest.length) :
    c.crlf.skip (n + (c.rest.take n).count lineFeed) = (c.skip n).crlf := by
  induction n generalizing c with
  | zero => rfl
  | succ n ih =>
    obtain ⟨u, rest, hrest⟩ : ∃ u rest, c.rest = u :: rest :=
      List.exists_cons_of_length_pos (by omega)
    have hadv : c.advance.rest = rest := by rw [rest_advance, hrest, List.tail_cons]
    have hmove := advance_crlf hrest
    rw [hrest, List.length_cons] at hn
    rw [skip, ← ih (by rw [hadv]; omega), hmove, hadv, hrest, List.take_succ_cons]
    by_cases hu : u = lineFeed
    · subst hu
      rw [if_pos rfl, List.count_cons_self, show n + 1 + ((rest.take n).count lineFeed + 1) =
        n + (rest.take n).count lineFeed + 1 + 1 by omega]
      rfl
    · rw [if_neg hu, List.count_cons_of_ne hu,
        show n + 1 + (rest.take n).count lineFeed = n + (rest.take n).count lineFeed + 1 by omega]
      rfl

theorem skip_crlf_of_notMem {c : Cursor} {n : Nat} (hn : n ≤ c.rest.length)
    (hfeed : lineFeed ∉ c.rest.take n) : c.crlf.skip n = (c.skip n).crlf := by
  rw [← skip_crlf hn, List.count_eq_zero.2 hfeed, Nat.add_zero]

theorem run_crlf (c : Cursor) {p : CodeUnit → Bool} (hfeed : p lineFeed = false)
    (hreturn : p carriageReturn = false) : c.crlf.run p = c.run p :=
  Text.takeWhile_crlf hfeed hreturn c.rest

section At

variable {c : Cursor} {source : Text} (hat : c.At source)
include hat

theorem location_crlf : c.crlf.location = c.location.crlf source := by
  obtain ⟨n, hn, rfl⟩ := hat
  have hbefore : (ofOffset source n).before.count lineFeed = (source.take n).count lineFeed := by
    rw [before_ofOffset, List.count_reverse]
  simp only [location, crlf, Location.crlf, hbefore, offset_ofOffset hn, Int.toNat_natCast]
  rfl

theorem cut_crlf (kind : TokenKind) {n : Nat} (hn : n ≤ c.rest.length)
    (hfeed : lineFeed ∉ c.rest.take n) : c.crlf.cut kind n = (c.cut kind n).crlf source := by
  have htake : c.crlf.rest.take n = c.rest.take n := by
    have hcut := Text.take_crlf hn
    rw [List.count_eq_zero.2 hfeed, Nat.add_zero, Text.crlf_of_notMem hfeed] at hcut
    exact hcut
  simp only [cut, Token.crlf, Span.crlf, htake, Text.crlf_of_notMem hfeed, ite_self]
  rw [skip_crlf_of_notMem hn hfeed, location_crlf hat, location_crlf (hat.skip hn)]

/-- The end of a line is one unit longer. -/
theorem cut_newline_crlf {n : Nat} (hn : n ≤ c.rest.length)
    (hfeed : (c.rest.take n).count lineFeed = 1) :
    c.crlf.cut .newline (n + 1) = (c.cut .newline n).crlf source := by
  have htake := Text.take_crlf hn
  have hskip := skip_crlf hn
  rw [hfeed] at htake hskip
  simp only [cut, Token.crlf, Span.crlf, if_true]
  rw [hskip, location_crlf hat, location_crlf (hat.skip hn)]
  exact congrArg (Token.mk .newline · _) htake

theorem mark_crlf {kind : TokenKind} (hkind : kind ≠ .newline) (value : Text) :
    c.crlf.mark kind value = (c.mark kind value).crlf source := by
  simp [mark, Token.crlf, Span.crlf, Span.point, hkind, location_crlf hat]

/-- A reading at the same place. -/
def crlfReading (source : Text) (r : Reading Token) : Reading Token :=
  (Token.crlfResult source r.1, r.2.crlf)

theorem readRun_crlf (kind : TokenKind) {p : CodeUnit → Bool} (hfeed : p lineFeed = false)
    (hreturn : p carriageReturn = false) :
    c.crlf.readRun kind p = crlfReading source (c.readRun kind p) := by
  have hle := c.length_run_le p
  have hnot : lineFeed ∉ c.rest.take (c.run p).length := by
    rw [run, ← List.prefix_iff_eq_take.1 (List.takeWhile_prefix p)]
    intro hmem
    rw [List.mem_takeWhile_imp hmem] at hfeed
    cases hfeed
  simp only [readRun, run_crlf c hfeed hreturn]
  rw [cut_crlf hat kind hle hnot, skip_crlf_of_notMem hle hnot]
  rfl

theorem readString_crlf {quote : CodeUnit} {rest : Text} (hrest : c.rest = quote :: rest)
    (hquote : isQuote quote = true) (hsource : source.LineFeedsOnly) :
    c.crlf.readString = crlfReading source c.readString := by
  have hfeed : quote ≠ lineFeed := by
    rintro rfl
    exact absurd hquote (by decide)
  have hreturn : quote ≠ carriageReturn := by
    rintro rfl
    exact absurd hquote (by decide)
  have hescape : ¬[backslash, lineFeed] <:+: rest := by
    have hsuffix : rest <:+ source := by
      have htail : rest <:+ c.rest := hrest ▸ List.suffix_cons quote rest
      exact htail.trans (hat.rest_eq ▸ List.drop_suffix _ _)
    exact (hsource.of_suffix hsuffix).noEscape
  have hrest' : c.crlf.rest = quote :: rest.crlf := by
    rw [crlf, hrest, Text.crlf_cons _ hfeed]
  have hle : (scanString quote rest).1 + 1 ≤ c.rest.length := by
    rw [hrest, List.length_cons]
    exact Nat.succ_le_succ (scanString_le quote rest)
  -- The cursor behind the scan, whatever way it ended.
  have hafter : c.crlf.skip ((scanString quote rest).1 +
      (rest.take (scanString quote rest).1).count lineFeed + 1) =
        (c.skip ((scanString quote rest).1 + 1)).crlf := by
    rw [← skip_crlf hle, hrest, List.take_succ_cons, List.count_cons_of_ne hfeed,
      Nat.add_right_comm]
  unfold readString
  rw [hrest', hrest]
  dsimp only
  rw [scanString_crlf hfeed hreturn hescape, hafter]
  cases hscan : (scanString quote rest) with
  | mk n ending =>
    rw [hscan] at hle
    cases ending with
    | closed =>
      have hnot : lineFeed ∉ c.rest.take (n + 1) := by
        rw [hrest, List.take_succ_cons, List.mem_cons, not_or]
        exact ⟨Ne.symm hfeed, lineFeed_notMem_of_closed hfeed hescape hscan⟩
      have hcount : (rest.take n).count lineFeed = 0 :=
        List.count_eq_zero.2 (lineFeed_notMem_of_closed hfeed hescape hscan)
      dsimp only
      rw [hcount, Nat.add_zero, cut_crlf hat _ hle hnot]
      rfl
    | lineBreak | exhausted =>
      dsimp only
      rw [location_crlf hat, location_crlf (hat.skip hle)]
      rfl

theorem readNewline_crlf {rest : Text} (hrest : c.rest = lineFeed :: rest) :
    c.crlf.readNewline = crlfReading source c.readNewline := by
  have hrest' : c.crlf.rest = carriageReturn :: lineFeed :: rest.crlf := by
    rw [crlf, hrest, Text.crlf_lineFeed]
  have hle : 1 ≤ c.rest.length := by simp [hrest]
  have hone : (c.rest.take 1).count lineFeed = 1 := by simp [hrest]
  have hskip := skip_crlf hle
  rw [hone] at hskip
  unfold readNewline
  rw [hrest', hrest]
  show (Except.ok (c.crlf.cut .newline 2), c.crlf.skip 2) =
    crlfReading source (.ok (c.cut .newline 1), c.skip 1)
  rw [cut_newline_crlf hat hle hone, hskip]
  rfl

theorem readSymbol_crlf {u : CodeUnit} {rest : Text} (hrest : c.rest = u :: rest)
    (hu : u ≠ lineFeed) : c.crlf.readSymbol = crlfReading source c.readSymbol := by
  have hsymbol : Text.headSymbol c.crlf.rest = Text.headSymbol c.rest := by
    rw [crlf, hrest]
    exact Text.headSymbol_crlf rest hu
  have hle := length_headSymbol_le c.rest
  have hnot : lineFeed ∉ c.rest.take (Text.headSymbol c.rest).length := by
    rw [← List.prefix_iff_eq_take.1 (headSymbol_begins c.rest), hrest]
    exact lineFeed_notMem_headSymbol rest hu
  unfold readSymbol
  rw [hsymbol]
  cases hhead : Text.headSymbol c.rest with
  | nil =>
    dsimp only
    rw [location_crlf hat]
    rfl
  | cons v more =>
    rw [hhead] at hle hnot
    dsimp only
    split
    · rw [location_crlf hat]
      rfl
    · rw [cut_crlf hat _ hle hnot, skip_crlf_of_notMem hle hnot]
      rfl

/-- Every lexeme is read as at the same place of the other text, where it may begin with the
carriage return of a line end. -/
theorem readLexeme_crlf {u v : CodeUnit} {rest more : Text} (hrest : c.rest = u :: rest)
    (hrest' : c.crlf.rest = v :: more) (hsource : source.LineFeedsOnly) :
    c.crlf.readLexeme v = crlfReading source (c.readLexeme u) := by
  by_cases hu : u = lineFeed
  · subst hu
    have hv : v = carriageReturn := by
      have hhead : c.crlf.rest = carriageReturn :: lineFeed :: rest.crlf := by
        rw [crlf, hrest, Text.crlf_lineFeed]
      rw [hrest'] at hhead
      exact (List.cons.inj hhead).1
    subst hv
    exact readNewline_crlf hat hrest
  · have hv : v = u := by
      have hhead : c.crlf.rest = u :: rest.crlf := by
        rw [crlf, hrest, Text.crlf_cons _ hu]
      rw [hrest'] at hhead
      exact (List.cons.inj hhead).1
    subst hv
    unfold readLexeme
    split
    · exact readRun_crlf hat _ (by decide) (by decide)
    split
    · exact readRun_crlf hat _ (by decide) (by decide)
    split
    · exact readRun_crlf hat _ (by decide) (by decide)
    split
    · rename_i hquote
      exact readString_crlf hat hrest hquote hsource
    split
    · -- A line terminator other than the line feed is a carriage return of the source.
      rename_i hterminator
      have hreturn : v = carriageReturn := by
        rw [isLineTerminator, Bool.or_eq_true, beq_iff_eq, beq_iff_eq] at hterminator
        exact hterminator.resolve_left hu
      have hmem : v ∈ source := by
        have hsuffix : c.rest <:+ source := hat.rest_eq ▸ List.drop_suffix _ _
        exact hsuffix.mem (hrest ▸ List.mem_cons_self)
      exact absurd (hreturn ▸ hmem) hsource.noReturn
    · exact readSymbol_crlf hat hrest hu

end At

end Cursor

/-! ## Steps and scans -/

namespace Lexer

/-- The state at the same place. -/
def crlf (lx : Lexer) : Lexer := { lx with cursor := lx.cursor.crlf }

theorem cursor_crlf (lx : Lexer) : lx.crlf.cursor = lx.cursor.crlf := rfl

theorem leading_crlf (lx : Lexer) : lx.crlf.leading = lx.leading :=
  Cursor.run_crlf lx.cursor (by decide) (by decide)

theorem behind_crlf (lx : Lexer) : lx.crlf.behind = lx.behind.crlf := by
  have hfeed : lineFeed ∉ lx.leading := by
    intro hmem
    exact absurd (isHorizontal_of_mem_leading hmem) (by decide)
  have hrest : lx.cursor.rest.crlf = lx.leading ++ lx.behind.crlf := by
    rw [← leading_append_behind, Text.crlf_append, Text.crlf_of_notMem hfeed]
  have hsplit := leading_append_behind lx.crlf
  rw [leading_crlf, show lx.crlf.cursor.rest = lx.cursor.rest.crlf from rfl, hrest] at hsplit
  exact List.append_cancel_left hsplit

theorem shape_crlf (lx : Lexer) :
    LineShape.of lx.crlf.cursor.rest = (LineShape.of lx.cursor.rest).crlf :=
  LineShape.of_crlf lx.cursor.rest

/-- A blank line has its line feed at the end and no other. -/
theorem count_of_blank {t : Text} {w : Nat} (h : LineShape.of t = .blank w) :
    w ≤ t.length ∧ (t.take w).count lineFeed = 1 := by
  obtain ⟨gap, more, rfl, hgap, rfl⟩ := LineShape.exists_of_blank h
  have hfeed : lineFeed ∉ gap := by
    intro hmem
    exact absurd (hgap _ hmem) (by decide)
  rw [List.take_length_add_append, List.count_append, List.count_eq_zero.2 hfeed]
  simp

theorem skip_crlf {lx : Lexer} {n : Nat} (hn : n ≤ lx.cursor.rest.length)
    (hfeed : lineFeed ∉ lx.cursor.rest.take n) : lx.crlf.skip n = (lx.skip n).crlf := by
  simp only [skip, crlf, Cursor.skip_crlf_of_notMem hn hfeed]

variable {lx : Lexer} {source : Text} (hat : lx.cursor.At source)
include hat

theorem dedent_crlf : lx.crlf.dedent = (lx.dedent.1.crlf source, lx.dedent.2.crlf) := by
  unfold dedent
  dsimp only
  rw [← Cursor.mark_crlf (c := lx.closeBlock.cursor) hat (by decide)]
  rfl

theorem readEndOfInput_crlf :
    lx.crlf.readEndOfInput = (lx.readEndOfInput.1.crlf source, lx.readEndOfInput.2.crlf) := by
  unfold readEndOfInput
  by_cases hblocks : lx.blocks.isEmpty = true
  · rw [if_pos hblocks, if_pos (show lx.crlf.blocks.isEmpty = true from hblocks),
      ← Cursor.mark_crlf hat (by decide)]
    rfl
  · rw [if_neg hblocks, if_neg (show ¬lx.crlf.blocks.isEmpty = true from hblocks)]
    exact dedent_crlf hat

theorem locationAhead_crlf {n : Nat} (hn : n ≤ lx.leading.length) :
    lx.crlf.cursor.locationAhead n = (lx.cursor.locationAhead n).crlf source := by
  have hle := Nat.le_trans hn lx.length_leading_le
  rw [locationAhead_of_le_leading lx.crlf (by rw [leading_crlf]; exact hn),
    locationAhead_of_le_leading lx hn, ← Cursor.location_crlf (hat.skip hle),
    ← Cursor.skip_crlf_of_notMem hle (lx.lineFeed_notMem_take_leading hn)]
  rfl

/-- Whatever way a step goes, it goes the same way at the same place. -/
theorem Outcome.crlf {r : Except Fault Token} {after : Lexer} (hsource : source.LineFeedsOnly)
    (h : Outcome lx r after) : Outcome lx.crlf (Token.crlfResult source r) after.crlf := by
  have hhead : lx.behind.head? ≠ some hash → lx.crlf.behind.head? ≠ some hash := by
    intro hne heq
    rw [behind_crlf] at heq
    exact hne ((Text.head?_crlf_eq_iff (by decide) (by decide)).1 heq)
  have hleading := lx.lineFeed_notMem_take_leading (Nat.le_refl _)
  have hshape' := lx.shape_crlf
  cases h with
  | @blank w hcolumn hshape =>
    obtain ⟨hle, hone⟩ := count_of_blank hshape
    rw [hshape] at hshape'
    have hout := @Outcome.blank lx.crlf (w + 1) hcolumn hshape'
    have hskip := Cursor.skip_crlf hle
    rw [hone] at hskip
    rw [cursor_crlf, Cursor.cut_newline_crlf hat hle hone, skip, cursor_crlf, hskip] at hout
    exact hout
  | closing hcolumn hshape hblocks hhash hrun hlt =>
    rw [hshape] at hshape'
    have hout := @Outcome.closing lx.crlf hcolumn hshape' hblocks
      (lx.leading_crlf ▸ hhash.imp_right hhead) (lx.leading_crlf ▸ hrun) (lx.leading_crlf ▸ hlt)
    rw [dedent_crlf hat] at hout
    exact hout
  | opening hcolumn hshape hhash hrun hlt =>
    rw [hshape] at hshape'
    have hout := @Outcome.opening lx.crlf hcolumn hshape' (hhead hhash)
      (lx.leading_crlf ▸ hrun) (lx.leading_crlf ▸ hlt)
    rw [leading_crlf, cursor_crlf, Cursor.cut_crlf hat _ lx.length_leading_le hleading,
      skip_crlf lx.length_leading_le hleading] at hout
    exact hout
  | @divergence i hcolumn hshape hhash hdiv =>
    rw [hshape] at hshape'
    have hi : i ≤ lx.leading.length := Nat.le_of_lt (Text.lt_length_of_divergence? hdiv)
    have hout := @Outcome.divergence lx.crlf i hcolumn hshape' (hhead hhash)
      (lx.leading_crlf ▸ hdiv)
    rw [leading_crlf, locationAhead_crlf hat (Nat.le_refl _), locationAhead_crlf hat hi,
      cursor_crlf, Cursor.location_crlf hat] at hout
    exact hout
  | ending hgap =>
    -- No line feed is left, so the rest is the same text.
    have hfeed := lineFeed_notMem_of_gap hgap
    have hrest : lx.crlf.cursor.rest = lx.cursor.rest := Text.crlf_of_notMem hfeed
    have hout := @Outcome.ending lx.crlf (by rw [hrest]; exact hgap)
    rw [hrest, skip_crlf (Nat.le_refl _) (by rw [List.take_length]; exact hfeed),
      readEndOfInput_crlf (hat.skip (Nat.le_refl _))] at hout
    exact hout
  | @lexeme u more hbehind hstay =>
    obtain ⟨v, more', hv, hhash⟩ := Text.exists_crlf_cons u more
    have hbehind' : lx.crlf.behind = v :: more' := by rw [behind_crlf, hbehind, hv]
    have hout := @Outcome.lexeme lx.crlf v more' hbehind' (by
      intro hcolumn
      obtain ⟨hshape, hrun, hequal⟩ := hstay hcolumn
      rw [hshape] at hshape'
      rw [leading_crlf]
      exact ⟨hshape', hrun, hequal.imp_left hhash⟩)
    have hcursor : lx.crlf.cursor.skip lx.crlf.leading.length =
        (lx.cursor.skip lx.leading.length).crlf := by
      rw [leading_crlf]
      exact Cursor.skip_crlf_of_notMem lx.length_leading_le hleading
    have hrest : (lx.cursor.skip lx.leading.length).rest = u :: more := by
      rw [Cursor.rest_skip]
      exact hbehind
    have hread := Cursor.readLexeme_crlf (hat.skip lx.length_leading_le) hrest
      (by rw [Cursor.crlf, hrest]; exact hv) hsource
    rw [hcursor, hread] at hout
    exact hout

theorem next_crlf {r : Except Fault Token} {after : Lexer} (hsource : source.LineFeedsOnly)
    (h : lx.next = (r, after)) : lx.crlf.next = (Token.crlfResult source r, after.crlf) :=
  next_of_outcome ((outcome_of_next h).crlf hat hsource)

end Lexer

/-- The scan of the other text. -/
def Scan.crlf (s : Scan) (source : Text) : Scan :=
  ⟨s.tokens.map (·.crlf source), s.fault.map (·.crlf source), s.final.crlf⟩

/-- To scan the other text is to scan this one and to move what was read. -/
theorem Lexer.scan_crlf {source : Text} (hsource : source.LineFeedsOnly) (lx : Lexer)
    (hat : lx.cursor.At source) : lx.crlf.scan = lx.scan.crlf source := by
  fun_induction scan lx with
  | case1 lx fault after hnext => exact scan_of_error (next_crlf hat hsource hnext)
  | case2 lx token after hnext hkind =>
    have hend : (token.crlf source).kind = .endOfStream := hkind
    rw [scan_of_ok (next_crlf hat hsource hnext), if_pos hend]
    rfl
  | case3 lx token after hnext hkind ih =>
    have hmore : (token.crlf source).kind ≠ .endOfStream := hkind
    rw [scan_of_ok (next_crlf hat hsource hnext), if_neg hmore, ih (cursor_at_next hat hnext)]
    rfl

/-! ## Values -/

/-- A step brings up no carriage return that the source does not have. -/
theorem Lexer.carriageReturn_notMem_value {source : Text} (hreturn : carriageReturn ∉ source)
    {lx after : Lexer} {t : Token} (hat : lx.cursor.At source) (hnested : Nested lx.blocks)
    (h : lx.next = (.ok t, after)) : carriageReturn ∉ t.value := by
  by_cases hkind : t.kind = .dedent
  · -- The value is the run of a block, which has spaces and tabs only.
    have hafter : Nested after.blocks := by
      have hmoves := lx.moves_next
      rw [h] at hmoves
      exact hmoves.nested hnested
    rw [((tracks_next h).closes hkind).2, indent]
    cases hblocks : after.blocks with
    | nil => simp
    | cons run outer =>
      intro hmem
      have hrun : run ∈ after.blocks := by simp [hblocks]
      exact absurd (hafter.horizontal run hrun _ hmem) (by decide)
  · obtain ⟨gap, width, hcovers⟩ := next_covers h
    rw [hcovers.value hkind, hat.rest_eq]
    intro hmem
    exact hreturn (List.mem_of_mem_drop (List.mem_of_mem_drop (List.mem_of_mem_take hmem)))

theorem Lexer.carriageReturn_notMem_of_mem_scan {source : Text}
    (hreturn : carriageReturn ∉ source) (lx : Lexer) (hat : lx.cursor.At source)
    (hnested : Nested lx.blocks) : ∀ t ∈ lx.scan.tokens, carriageReturn ∉ t.value := by
  fun_induction scan lx with
  | case1 => simp
  | case2 lx token after hnext hkind =>
    exact List.forall_mem_singleton.2 (carriageReturn_notMem_value hreturn hat hnested hnext)
  | case3 lx token after hnext hkind ih =>
    have hmoves := lx.moves_next
    rw [hnext] at hmoves
    exact List.forall_mem_cons.2 ⟨carriageReturn_notMem_value hreturn hat hnested hnext,
      ih (cursor_at_next hat hnext) (hmoves.nested hnested)⟩

/-! ## Whole sources -/

/-- Two locations have the same line and the same column. -/
def Location.SamePlace (l l' : Location) : Prop := l'.line = l.line ∧ l'.column = l.column

/-- What a token of a source has in common with the token at the same place of the source
with line ends of two units. -/
structure Token.Corresponds (source : Text) (t t' : Token) : Prop where
  kind : t'.kind = t.kind
  start : t.span.start.SamePlace t'.span.start
  stop : t.span.stop.SamePlace t'.span.stop
  value : t'.value.lf = t.value
  sameValue : t.kind ≠ .newline → t'.value = t.value
  startOffset : t'.span.start.offset =
    t.span.start.offset + (source.take t.span.start.offset.toNat).count lineFeed
  stopOffset : t'.span.stop.offset =
    t.span.stop.offset + (source.take t.span.stop.offset.toNat).count lineFeed

/-- What the two faults have in common. -/
structure Fault.Corresponds (f f' : Fault) : Prop where
  id : f'.code.id = f.code.id
  context : f'.context = f.context
  location : f.location.SamePlace f'.location
  span : Option.Rel (fun s s' => s.start.SamePlace s'.start ∧ s.stop.SamePlace s'.stop)
    f.span f'.span

theorem Token.corresponds_crlf {source : Text} {t : Token} (h : carriageReturn ∉ t.value) :
    t.Corresponds source (t.crlf source) where
  kind := rfl
  start := ⟨rfl, rfl⟩
  stop := ⟨rfl, rfl⟩
  value := by
    unfold crlf
    dsimp only
    split
    · exact Text.lf_crlf h
    · exact Text.lf_of_notMem h
  sameValue := fun hkind => if_neg hkind
  startOffset := rfl
  stopOffset := rfl

theorem Fault.corresponds_crlf (f : Fault) (source : Text) : f.Corresponds (f.crlf source) where
  id := by rw [code_crlf]
  context := f.context_crlf source
  location := by
    rw [location_crlf]
    exact ⟨rfl, rfl⟩
  span := by
    rw [span_crlf]
    cases f.span with
    | none => exact .none
    | some s => exact .some ⟨⟨rfl, rfl⟩, ⟨rfl, rfl⟩⟩

/-- A source with line ends of two units is read like the one with line feeds alone: the
tokens correspond one by one, those before a fault too, and so do the faults. -/
theorem tokenize_crlf {source : Text} (hreturn : carriageReturn ∉ source)
    (hescape : ¬[backslash, lineFeed] <:+: source) :
    ((∃ tokens, tokenize source.crlf true = .ok tokens) ↔
        ∃ tokens, tokenize source true = .ok tokens) ∧
      (∀ tokens tokens', tokenize source true = .ok tokens →
        tokenize source.crlf true = .ok tokens' →
          List.Forall₂ (Token.Corresponds source) tokens tokens') ∧
      (∀ fault fault', tokenize source true = .error fault →
        tokenize source.crlf true = .error fault' →
          fault.Corresponds fault' ∧
            List.Forall₂ (Token.Corresponds source) (Lexer.ofSource source).scan.tokens
              (Lexer.ofSource source.crlf).scan.tokens) := by
  have hat : (Lexer.ofSource source).cursor.At source := ⟨0, Nat.zero_le _, rfl⟩
  have hscan : (Lexer.ofSource source.crlf).scan = (Lexer.ofSource source).scan.crlf source :=
    Lexer.scan_crlf ⟨hreturn, hescape⟩ (Lexer.ofSource source) hat
  have htokens : List.Forall₂ (Token.Corresponds source) (Lexer.ofSource source).scan.tokens
      (Lexer.ofSource source.crlf).scan.tokens := by
    rw [hscan]
    refine List.forall₂_map_right_iff.2 (List.forall₂_same.2 fun t ht => ?_)
    exact Token.corresponds_crlf
      (Lexer.carriageReturn_notMem_of_mem_scan hreturn _ hat .nil t ht)
  refine ⟨?_, ?_, ?_⟩
  · simp only [tokenize_eq_ok_iff, hscan, Scan.crlf, Option.map_eq_none_iff, exists_and_left,
      exists_eq', and_true]
  · intro tokens tokens' hok hok'
    rw [← (tokenize_eq_ok_iff.1 hok).2, ← (tokenize_eq_ok_iff.1 hok').2]
    exact htokens
  · intro fault fault' herror herror'
    refine ⟨?_, htokens⟩
    have hmoved := tokenize_eq_error_iff.1 herror'
    rw [hscan, Scan.crlf, tokenize_eq_error_iff.1 herror] at hmoved
    cases hmoved
    exact fault.corresponds_crlf source

/-- A comment, a blank line, and in a block a string that its line ends. -/
theorem tokenize_crlf_unterminated :
    let source : Text := [0x61, 0x20, 0x23, 0x0A, 0x0A, 0x20, 0x22, 0x62, 0x0A]
    ∃ fault fault', tokenize source true = .error fault ∧
      tokenize source.crlf true = .error fault' ∧ fault.Corresponds fault' ∧
      (Lexer.ofSource source).scan.tokens.map (·.kind) =
        [.identifier, .comment, .newline, .newline, .indent] ∧
      List.Forall₂ (Token.Corresponds source) (Lexer.ofSource source).scan.tokens
        (Lexer.ofSource source.crlf).scan.tokens := by
  intro source
  obtain ⟨-, -, hfails⟩ := @tokenize_crlf source (by decide) (by decide)
  have hfault : tokenize source true = .error (.unterminatedString ⟨⟨3, 1, 6⟩, ⟨4, 0, 9⟩⟩) := by
    rw [tokenize_eq_error_iff]
    decide +kernel
  have hfault' : tokenize source.crlf true =
      .error (.unterminatedString ⟨⟨3, 1, 8⟩, ⟨4, 0, 12⟩⟩) := by
    rw [tokenize_eq_error_iff]
    decide +kernel
  obtain ⟨hcorresponds, htokens⟩ := hfails _ _ hfault hfault'
  exact ⟨_, _, hfault, hfault', hcorresponds, by decide +kernel, htokens⟩

end SceneTokens
