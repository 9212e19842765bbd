import SceneTokens.Proofs.LineEnds

/-!
# String literals

What is read at a quote.  The text there begins with the quote and a body, and how it goes on
decides the outcome: the quote again closes the string, a line feed leaves it unterminated, and
the end of the source leaves it unfinished.

* `Text.Literal` has the three cases.  Exactly one of them applies, with exactly one body
  (`Text.existsUnique_literal`): the scan finds one, and a scan ends in one way only.
* `Cursor.readString_exact` has the outcome of reading in each case.

A backslash takes one unit into the body.  Before a line end of two units that is the carriage
return, and the line feed behind it is no part of the string any more.  So a literal survives
the change to line ends of two units only if it is on one line: `Text.isString_crlf_iff`.
-/

namespace SceneTokens

open CodeUnit Cursor

/-! ## The text at a quote -/

/-- How a text begins that is read as a string with the given body. -/
def Text.Literal (t : Text) (quote : CodeUnit) (body : Text) : StringEnd → Prop
  | .closed => quote :: (body ++ [quote]) <+: t
  | .lineBreak => quote :: (body ++ [lineFeed]) <+: t
  | .exhausted => t = quote :: body ∨ t = quote :: (body ++ [backslash])

/-- A backslash at the end of a body has no unit to take. -/
theorem StringBody.not_append_backslash {quote : CodeUnit} {body : Text}
    (h : StringBody quote body) : ¬StringBody quote (body ++ [backslash]) := by
  induction h with
  | nil =>
    intro h
    cases h with
    | plain _ hslash => exact hslash rfl
  | escape v _ ih =>
    intro h
    cases h with
    | escape _ h => exact ih h
    | plain _ hslash => exact hslash rfl
  | @plain u rest _ hslash _ _ ih =>
    rw [List.cons_append]
    generalize rest ++ [backslash] = longer at ih
    intro h
    cases h with
    | escape => exact hslash rfl
    | plain _ _ _ h => exact ih h

/-- The first line feed of a body is behind a backslash, which takes any other unit as well. -/
theorem StringBody.append_of_lineFeed {quote : CodeUnit} {first more : Text} (v : CodeUnit)
    (h : StringBody quote (first ++ lineFeed :: more)) (hfirst : lineFeed ∉ first) :
    StringBody quote (first ++ [v]) := by
  generalize hbody : first ++ lineFeed :: more = body at h
  induction h generalizing first with
  | nil => simp at hbody
  | @escape w rest _ ih =>
    match first with
    | [] => cases hbody
    | [u] =>
      cases hbody
      exact .escape v .nil
    | u :: u' :: first =>
      cases hbody
      exact .escape w (ih (by simp_all) rfl)
  | @plain w rest hquote hslash hfeed _ ih =>
    match first with
    | [] =>
      cases hbody
      exact absurd rfl hfeed
    | u :: first =>
      cases hbody
      exact .plain hquote hslash hfeed (ih (by simp_all) rfl)

namespace Text.Literal

variable {quote : CodeUnit} {rest body body' : Text} {ending : StringEnd}

/-- A closed or broken literal, with the text behind it. -/
theorem split {last : CodeUnit} (h : quote :: (body ++ [last]) <+: quote :: rest) :
    ∃ more, rest = body ++ last :: more := by
  obtain ⟨more, hmore⟩ := h
  refine ⟨more, ?_⟩
  simpa using hmore.symm

/-- The body of a literal is what the scan passes over. -/
theorem scanString_eq (h : Literal (quote :: rest) quote body ending)
    (hbody : StringBody quote body) (hquote : isQuote quote = true) :
    scanString quote rest =
      (if ending = .exhausted then rest.length else body.length + 1, ending) := by
  cases ending with
  | closed =>
    obtain ⟨more, hsplit⟩ := split h
    exact (Scanned.closed hbody hsplit).scanString_eq hquote
  | lineBreak =>
    obtain ⟨more, hsplit⟩ := split h
    exact (Scanned.lineBreak hbody hsplit).scanString_eq hquote
  | exhausted =>
    have hend : rest = body ∨ rest = body ++ [backslash] :=
      h.imp (fun heq => (List.cons.inj heq).2) fun heq => (List.cons.inj heq).2
    exact (Scanned.exhausted hbody hend).scanString_eq hquote

/-- Two bodies of the same length in front of the same text are equal. -/
theorem body_unique_of_split {last : CodeUnit} (h : quote :: (body ++ [last]) <+: quote :: rest)
    (h' : quote :: (body' ++ [last]) <+: quote :: rest) (hlen : body'.length = body.length) :
    body' = body := by
  obtain ⟨more, hsplit⟩ := split h
  obtain ⟨more', hsplit'⟩ := split h'
  exact (List.append_inj (hsplit'.symm.trans hsplit) hlen).1

theorem body_unique (h : Literal (quote :: rest) quote body ending) (hbody : StringBody quote body)
    (h' : Literal (quote :: rest) quote body' ending) (hbody' : StringBody quote body')
    (hquote : isQuote quote = true) : body' = body := by
  have hscan := (h'.scanString_eq hbody' hquote).symm.trans (h.scanString_eq hbody hquote)
  cases ending with
  | closed => exact body_unique_of_split h h' (by simpa using hscan)
  | lineBreak => exact body_unique_of_split h h' (by simpa using hscan)
  | exhausted =>
    -- Both bodies reach the end, unless one of them leaves a backslash there.
    rcases h with h | h <;> rcases h' with h' | h' <;> rw [h] at h' <;>
      have heq := (List.cons.inj h').2
    · exact heq.symm
    · exact absurd (heq ▸ hbody) hbody'.not_append_backslash
    · exact absurd (heq ▸ hbody') hbody.not_append_backslash
    · exact (List.append_cancel_right heq).symm

end Text.Literal

/-- The scan finds a literal. -/
theorem Text.exists_literal (quote : CodeUnit) (rest : Text) :
    ∃ body ending, StringBody quote body ∧ Literal (quote :: rest) quote body ending := by
  have hspec := scanString_spec quote rest
  generalize scanString quote rest = scanned at hspec
  cases hspec with
  | @closed body more hbody h =>
    refine ⟨body, .closed, hbody, more, ?_⟩
    simp [h]
  | @lineBreak body more hbody h =>
    refine ⟨body, .lineBreak, hbody, more, ?_⟩
    simp [h]
  | @exhausted body hbody h =>
    refine ⟨body, .exhausted, hbody, ?_⟩
    rcases h with rfl | rfl
    · exact .inl rfl
    · exact .inr rfl

/-- Every text at a quote is a literal in exactly one way. -/
theorem Text.existsUnique_literal {quote : CodeUnit} (hquote : isQuote quote = true) (rest : Text) :
    ∃! p : Text × StringEnd,
      StringBody quote p.1 ∧ Literal (quote :: rest) quote p.1 p.2 := by
  obtain ⟨body, ending, hbody, hliteral⟩ := exists_literal quote rest
  refine ⟨(body, ending), ⟨hbody, hliteral⟩, ?_⟩
  rintro ⟨body', ending'⟩ ⟨hbody', hliteral'⟩
  have hscan := hliteral.scanString_eq hbody hquote
  have hscan' := hliteral'.scanString_eq hbody' hquote
  rw [hscan] at hscan'
  obtain rfl : ending = ending' := (Prod.mk.inj hscan').2
  obtain rfl : body' = body := hliteral.body_unique hbody hliteral' hbody' hquote
  rfl

/-! ## What is read there -/

namespace Cursor

variable {c : Cursor} {quote : CodeUnit} {rest body : Text}
variable (hrest : c.rest = quote :: rest) (hquote : isQuote quote = true)
  (hbody : StringBody quote body)
include hrest hquote hbody

theorem readString_of_closed (h : c.rest.Literal quote body .closed) :
    c.readString = (.ok (c.cut .string (body.length + 2)), c.skip (body.length + 2)) ∧
      c.rest.take (body.length + 2) = quote :: (body ++ [quote]) := by
  rw [hrest] at h
  have hscan := h.scanString_eq hbody hquote
  obtain ⟨more, hsplit⟩ := Text.Literal.split h
  constructor
  · simp only [readString, hrest, hscan]
    rfl
  · rw [hrest, hsplit, List.take_succ_cons, List.take_length_add_append]
    rfl

theorem readString_of_lineBreak (h : c.rest.Literal quote body .lineBreak) :
    c.readString =
      (.error (.unterminatedString ⟨c.location, (c.skip (body.length + 2)).location⟩),
        c.skip (body.length + 2)) := by
  rw [hrest] at h
  have hscan := h.scanString_eq hbody hquote
  simp only [readString, hrest, hscan]
  rfl

theorem readString_of_exhausted (h : c.rest.Literal quote body .exhausted) :
    c.readString =
      (.error (.unfinishedString ⟨c.location, (c.skip c.rest.length).location⟩),
        c.skip c.rest.length) := by
  rw [hrest] at h
  have hscan := h.scanString_eq hbody hquote
  simp only [readString, hrest, hscan]
  rfl

omit hbody in
/-- At a quote there is exactly one literal, and it is read as such.

* A closed one is a token, and the cursor comes to the place right behind it.
* One that a line feed breaks is reported at its quote.  The report spans the text from there
  to the place behind the line feed, and this is where the cursor comes to.
* One that the source ends in is reported at the end, where the cursor comes to.  The report
  spans the text from the quote on. -/
theorem readString_exact :
    (∃! p : Text × StringEnd, StringBody quote p.1 ∧ c.rest.Literal quote p.1 p.2) ∧
    (∀ body, StringBody quote body → c.rest.Literal quote body .closed →
      let after := c.skip (body.length + 2)
      c.readString =
          (.ok ⟨.string, quote :: (body ++ [quote]), ⟨c.location, after.location⟩⟩, after) ∧
        c.rest = quote :: (body ++ quote :: after.rest)) ∧
    (∀ body, StringBody quote body → c.rest.Literal quote body .lineBreak →
      let after := c.skip (body.length + 2)
      ∃ fault, c.readString = (.error fault, after) ∧ fault.code.id = "SCN-L001" ∧
        fault.location = c.location ∧ fault.span = some ⟨c.location, after.location⟩ ∧
        c.rest = quote :: (body ++ lineFeed :: after.rest)) ∧
    (∀ body, StringBody quote body → c.rest.Literal quote body .exhausted →
      let after := c.skip c.rest.length
      ∃ fault, c.readString = (.error fault, after) ∧ fault.code.id = "SCN-L003" ∧
        fault.location = after.location ∧ fault.span = some ⟨c.location, after.location⟩ ∧
        after.rest = []) := by
  have hbehind : ∀ {body : Text} {last : CodeUnit}, quote :: (body ++ [last]) <+: c.rest →
      c.rest = quote :: (body ++ last :: (c.skip (body.length + 2)).rest) := by
    intro body last h
    rw [hrest] at h
    obtain ⟨more, hsplit⟩ := Text.Literal.split h
    rw [rest_skip, hrest, hsplit, List.drop_succ_cons, List.drop_length_add_append]
    rfl
  refine ⟨?_, ?_, ?_, ?_⟩
  · rw [hrest]
    exact Text.existsUnique_literal hquote rest
  · intro body hbody h
    obtain ⟨hread, htake⟩ := readString_of_closed hrest hquote hbody h
    refine ⟨?_, hbehind h⟩
    rw [hread, cut, htake]
  · intro body hbody h
    exact ⟨_, readString_of_lineBreak hrest hquote hbody h, rfl, rfl, rfl, hbehind h⟩
  · intro body hbody h
    refine ⟨_, readString_of_exhausted hrest hquote hbody h, rfl, rfl, rfl, ?_⟩
    rw [rest_skip, List.drop_length]

omit hrest hquote hbody in
/-- An escaped quote and an escaped backslash, right before the quote that closes the string. -/
theorem readString_exact_escaped_quote :
    let c := (Cursor.ofSource "k '\\'\\\\' # x").skip 2
    let body : Text := [backslash, apostrophe, backslash, backslash]
    c.rest.head? = some apostrophe ∧ isQuote apostrophe = true ∧
      StringBody apostrophe body ∧ c.rest.Literal apostrophe body .closed ∧
      (∃! p : Text × StringEnd,
        StringBody apostrophe p.1 ∧ c.rest.Literal apostrophe p.1 p.2) ∧
      c.readString =
        (.ok ⟨.string, apostrophe :: (body ++ [apostrophe]), ⟨⟨1, 2, 2⟩, ⟨1, 8, 8⟩⟩⟩, c.skip 6) := by
  intro c body
  have hbody : StringBody apostrophe body := .escape apostrophe (.escape backslash .nil)
  have hclosed : c.rest.Literal apostrophe body .closed := ⟨" # x", by decide +kernel⟩
  obtain ⟨hunique, hread, -, -⟩ :=
    @readString_exact c apostrophe (c.rest.drop 1) (by decide +kernel) (by decide)
  refine ⟨by decide +kernel, by decide, hbody, hclosed, hunique, ?_⟩
  rw [(hread body hbody hclosed).1]
  decide +kernel

end Cursor

/-! ## Literals that go over a line end -/

/-- The text is one string literal: reading at its quote takes all of it as one token. -/
def Text.IsString (t : Text) : Prop :=
  (∃ quote ∈ t.head?, isQuote quote = true) ∧
    ∃ token after, (Cursor.ofSource t).readString = (.ok token, after) ∧
      token.kind = .string ∧ token.value = t ∧ after.rest = []

theorem Text.isString_iff {t : Text} :
    t.IsString ↔ ∃ quote body, isQuote quote = true ∧ StringBody quote body ∧
      t = quote :: (body ++ [quote]) := by
  constructor
  · rintro ⟨⟨quote, hhead, hquote⟩, token, after, hread, -, hvalue, -⟩
    obtain ⟨rest, rfl⟩ := List.head?_eq_some_iff.1 hhead
    obtain ⟨body, ending, hbody, hliteral⟩ := exists_literal quote rest
    have hrest : (Cursor.ofSource (quote :: rest)).rest = quote :: rest := rfl
    cases ending with
    | closed =>
      obtain ⟨hclosed, htake⟩ := readString_of_closed hrest hquote hbody hliteral
      rw [hclosed] at hread
      cases hread
      exact ⟨quote, body, hquote, hbody, hvalue.symm.trans htake⟩
    | lineBreak =>
      rw [readString_of_lineBreak hrest hquote hbody hliteral] at hread
      cases hread
    | exhausted =>
      rw [readString_of_exhausted hrest hquote hbody hliteral] at hread
      cases hread
  · rintro ⟨quote, body, hquote, hbody, rfl⟩
    obtain ⟨hread, htake⟩ := readString_of_closed
      (c := Cursor.ofSource (quote :: (body ++ [quote]))) rfl hquote hbody List.prefix_rfl
    refine ⟨⟨quote, rfl, hquote⟩, _, _, hread, rfl, htake, ?_⟩
    rw [rest_skip]
    exact List.drop_eq_nil_of_le (by simp [Cursor.ofSource])

/-- With line ends of two units a literal has a body up to its first line feed: the backslash
takes the carriage return, and the line feed is left. -/
theorem Text.IsString.crlf_eq {first more : Text} (h : IsString (first ++ lineFeed :: more))
    (hfirst : lineFeed ∉ first) :
    ∃ quote body, isQuote quote = true ∧ StringBody quote body ∧ body.length = first.length ∧
      (first ++ lineFeed :: more).crlf = quote :: (body ++ lineFeed :: more.crlf) := by
  obtain ⟨quote, body, hquote, hbody, ht⟩ := isString_iff.1 h
  have hne : quote ≠ lineFeed := by
    rintro rfl
    exact absurd hquote (by decide)
  match first with
  | [] => exact absurd (List.cons.inj ht).1.symm hne
  | u :: inner =>
    obtain ⟨rfl, htail⟩ := List.cons.inj ht
    -- The line feed is not the closing quote, so it is one of the body.
    obtain ⟨tail, rfl⟩ : ∃ tail, body = inner ++ lineFeed :: tail := by
      rcases List.eq_nil_or_concat more with rfl | ⟨tail, last, rfl⟩
      · have hlast := (List.append_inj' htail rfl).2
        exact absurd (List.cons.inj hlast).1.symm hne
      · have hsplit : (inner ++ lineFeed :: tail) ++ [last] = body ++ [u] := by
          simpa using htail
        exact ⟨tail, (List.append_inj' hsplit rfl).1.symm⟩
    refine ⟨u, inner ++ [carriageReturn], hquote, ?_, by simp, ?_⟩
    · apply hbody.append_of_lineFeed
      exact fun hmem => hfirst (List.mem_cons_of_mem u hmem)
    · rw [crlf_append, crlf_of_notMem hfirst, crlf_lineFeed]
      simp

theorem Text.IsString.readString_crlf {first more : Text}
    (h : IsString (first ++ lineFeed :: more)) (hfirst : lineFeed ∉ first) :
    let c := Cursor.ofSource (first ++ lineFeed :: more).crlf
    let after := c.skip (first.length + 2)
    c.readString = (.error (.unterminatedString ⟨c.location, after.location⟩), after) := by
  obtain ⟨quote, body, hquote, hbody, hlen, hcrlf⟩ := h.crlf_eq hfirst
  rw [hcrlf, ← hlen]
  apply readString_of_lineBreak rfl hquote hbody
  exact ⟨more.crlf, by simp [Cursor.ofSource]⟩

/-- A literal stays one with line ends of two units only if it is on one line.  Else the first
line end is where it breaks off, and it is reported as unterminated. -/
theorem Text.isString_crlf_iff {t : Text} (h : t.IsString) :
    (t.crlf.IsString ↔ lineFeed ∉ t) ∧
    ∀ first more, t = first ++ lineFeed :: more → lineFeed ∉ first →
      let c := Cursor.ofSource t.crlf
      let after := c.skip (first.length + 2)
      ∃ fault, c.readString = (.error fault, after) ∧ fault.code.id = "SCN-L001" ∧
        fault.location = c.location ∧ fault.span = some ⟨c.location, after.location⟩ := by
  refine ⟨⟨?_, ?_⟩, ?_⟩
  · intro hcrlf hmem
    obtain ⟨first, more, rfl, hfirst⟩ := List.eq_append_cons_of_mem hmem
    obtain ⟨-, token, after, hread, -⟩ := hcrlf
    rw [h.readString_crlf hfirst] at hread
    cases hread
  · intro hmem
    rw [crlf_of_notMem hmem]
    exact h
  · rintro first more rfl hfirst
    exact ⟨_, h.readString_crlf hfirst, rfl, rfl, rfl⟩

/-- A string over two lines, with an escaped quote on the second. -/
theorem Text.isString_crlf_iff_two_lines :
    let body : Text := [0x78, backslash, lineFeed, backslash, apostrophe]
    let t : Text := apostrophe :: (body ++ [apostrophe])
    t.IsString ∧ lineFeed ∈ t ∧ (t.crlf.IsString ↔ lineFeed ∉ t) ∧
      ∃ fault, (Cursor.ofSource t.crlf).readString =
          (.error fault, (Cursor.ofSource t.crlf).skip 5) ∧
        fault.code.id = "SCN-L001" ∧ fault.location = ⟨1, 0, 0⟩ ∧
        fault.span = some ⟨⟨1, 0, 0⟩, ⟨2, 0, 5⟩⟩ := by
  intro body t
  have hbody : StringBody apostrophe body :=
    .plain (by decide) (by decide) (by decide) (.escape lineFeed (.escape apostrophe .nil))
  have ht : t.IsString := isString_iff.2 ⟨apostrophe, body, by decide, hbody, rfl⟩
  obtain ⟨hiff, hbroken⟩ := isString_crlf_iff ht
  obtain ⟨fault, hread, hcode, hlocation, hspan⟩ :=
    hbroken [apostrophe, 0x78, backslash] [backslash, apostrophe, apostrophe] rfl (by decide)
  exact ⟨ht, by decide, hiff, fault, hread, hcode, hlocation, hspan⟩

/-- A text without carriage returns that is one string, and none with line ends of two units. -/
theorem Text.not_isString_crlf_escaped_lineFeed :
    let body : Text := [0x61, backslash, lineFeed, 0x62]
    let t : Text := doubleQuote :: (body ++ [doubleQuote])
    carriageReturn ∉ t ∧ t.IsString ∧ ¬t.crlf.IsString ∧
      (Cursor.ofSource t.crlf).readString.1 =
        .error (.unterminatedString ⟨⟨1, 0, 0⟩, ⟨2, 0, 5⟩⟩) := by
  intro body t
  have hbody : StringBody doubleQuote body := by
    apply StringBody.plain (by decide) (by decide) (by decide)
    apply StringBody.escape lineFeed
    exact .plain (by decide) (by decide) (by decide) .nil
  have hread : (Cursor.ofSource t.crlf).readString.1 =
      .error (.unterminatedString ⟨⟨1, 0, 0⟩, ⟨2, 0, 5⟩⟩) := by decide +kernel
  refine ⟨by decide, isString_iff.2 ⟨doubleQuote, body, by decide, hbody, rfl⟩, ?_, hread⟩
  rintro ⟨-, token, after, hok, -⟩
  rw [hok] at hread
  cases hread

end SceneTokens
