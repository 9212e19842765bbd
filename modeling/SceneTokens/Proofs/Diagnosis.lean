import SceneTokens.Proofs.Locations
import SceneTokens.Proofs.Messages
import SceneTokens.Proofs.Replay
import SceneTokens.Proofs.Tiling

/-!
# Faults name their real cause

The report of a source without tokens says what is wrong with it: `Report.Explains` has the
five kinds of report, and for each of them what its span, its location and its context say
about the text of the source.  A fault of indentation also speaks of the tokens before it,
through the innermost block that is open.

The text at a fault is the text ahead of some cursor, and `Cursor.At.slice` and
`Cursor.At.getElem?_offset` carry it over to the source.

Main statement: `tokenize_error_explained`.
-/

namespace SceneTokens

open CodeUnit

/-! ## Reports and sources -/

/-- What a report says about its source, where the tokens `before` were read first. -/
inductive Report.Explains (r : Report) (source : Text) (before : List Token) : Prop
  /-- The span is a quote, a body without a closing quote, and a line feed. -/
  | unterminatedString {span : Span} {quote : CodeUnit} {body : Text}
      (hreport : r.kind = .lexer ∧ r.code.id = "SCN-L001") (hspan : r.span = some span)
      (hquote : isQuote quote = true) (hbody : StringBody quote body)
      (htext : source.slice span.start.offset span.stop.offset =
        quote :: (body ++ [lineFeed]))
  /-- The span is the leading run of a line.  The run expected is that of the innermost block
  not closed yet, and the location is the place where the two runs differ first. -/
  | inconsistentIndentation {span : Span} {location : Location} {expected actual : Text}
      {opening : Token} {n k : Nat}
      (hreport : r.kind = .lexer ∧ r.code.id = "SCN-L002") (hspan : r.span = some span)
      (hlocation : r.location = some location)
      (hcontext : r.context = some
        [(Text.ofString "expected", .text expected), (Text.ofString "actual", .text actual)])
      (hstart : span.start.offset = n) (hline : source.IsLineStart n)
      (hrun : (source.drop n).takeWhile isHorizontal = actual)
      (htext : source.slice span.start.offset span.stop.offset = actual)
      (hopening : (Token.unclosed before).head? = some opening)
      (hexpected : opening.value = expected)
      (hcolumn : location.column = k) (hagree : expected.take k = actual.take k)
      (hdiffer : ∃ x y, expected[k]? = some x ∧ actual[k]? = some y ∧ x ≠ y)
  /-- The span is a quote and a body without a closing quote, up to the end of the source.  A
  last backslash may have no unit to take. -/
  | unfinishedString {span : Span} {quote : CodeUnit} {body : Text}
      (hreport : r.kind = .lexer ∧ r.code.id = "SCN-L003") (hspan : r.span = some span)
      (hquote : isQuote quote = true) (hbody : StringBody quote body)
      (hstop : span.stop.offset = source.length)
      (htext : source.slice span.start.offset span.stop.offset = quote :: body ∨
        source.slice span.start.offset span.stop.offset = quote :: (body ++ [backslash]))
  /-- The unit at the location is a carriage return, and no line feed follows it. -/
  | bareCarriageReturn {location : Location} {n : Nat}
      (hreport : r.kind = .contract ∧ r.code.id = "SCN-C001")
      (hlocation : r.location = some location) (hoffset : location.offset = n)
      (hunit : source[n]? = some carriageReturn) (hfeed : source[n + 1]? ≠ some lineFeed)
  /-- The unit at the location is whitespace that neither separates tokens nor ends a line,
  and the context has its name. -/
  | unsupportedWhitespace {location : Location} {n : Nat} {u : CodeUnit}
      (hreport : r.kind = .contract ∧ r.code.id = "SCN-C002")
      (hlocation : r.location = some location) (hoffset : location.offset = n)
      (hunit : source[n]? = some u) (hspace : isSpace u = true)
      (hother : u ≠ space ∧ u ≠ tab ∧ u ≠ carriageReturn ∧ u ≠ lineFeed)
      (hcontext : r.context = some [(Text.ofString "char",
        .text (Text.ofString "U+" ++ Text.hexadecimal .upper 4 u.toNat))])

/-! ## The text at a cursor -/

namespace Cursor.At

variable {c : Cursor} {source : Text} (h : c.At source)
include h

theorem getElem?_offset (k : Nat) : source[c.offset + k]? = c.rest[k]? := by
  rw [h.rest_eq, List.getElem?_drop]

/-- The text of a span from the cursor on. -/
theorem slice {n : Nat} (hn : n ≤ c.rest.length) :
    source.slice c.location.offset (c.skip n).location.offset = c.rest.take n := by
  show source.slice (c.offset : Int) ((c.skip n).offset : Int) = _
  rw [offset_skip hn, Text.slice_add, ← h.rest_eq]

theorem offset_skip_length : (c.skip c.rest.length).offset = source.length := by
  rw [offset_skip (Nat.le_refl _)]
  exact h.offset_add_length

end Cursor.At

/-! ## The two ways to fail -/

/-- The units that open a string are no whitespace. -/
theorem isSpace_of_isQuote {u : CodeUnit} (h : isQuote u = true) : isSpace u = false := by
  rw [isQuote, Bool.or_eq_true, beq_iff_eq, beq_iff_eq] at h
  rcases h with rfl | rfl <;> decide

/-- A lexeme fails for a cause that its report explains. -/
theorem explains_of_cause {c : Cursor} {source : Text} {before : List Token} {fault : Fault}
    {u : CodeUnit} {more : Text} {n : Nat} (hat : c.At source) (hrest : c.rest = u :: more)
    (hhorizontal : isHorizontal u = false) (hcause : c.Cause fault n)
    (hreader : isQuote u = true ∨ fault.code = .bareCarriageReturn ∨
      fault.code = .unsupportedWhitespace ∧ isLineTerminator u = false) :
    (Report.ofFault fault).Explains source before := by
  have hle := hcause.le
  cases hcause with
  | ended hnil =>
    rw [hrest] at hnil
    cases hnil
  | @lineBreak quote body after hbody hsplit =>
    have hquote : isQuote quote = true := by
      rw [hrest] at hsplit
      cases hsplit
      simpa [Fault.code] using hreader
    refine .unterminatedString ⟨rfl, rfl⟩ rfl hquote hbody ?_
    rw [hat.slice hle, hsplit, List.take_succ_cons, List.take_length_add_append]
    rfl
  | @exhausted quote body hbody hsplit =>
    have hquote : isQuote quote = true := by
      rw [hrest] at hsplit
      rcases hsplit with hsplit | hsplit <;> cases hsplit <;> simpa [Fault.code] using hreader
    refine .unfinishedString ⟨rfl, rfl⟩ rfl hquote hbody ?_ ?_
    · exact congrArg Int.ofNat hat.offset_skip_length
    · show source.slice c.location.offset (c.skip c.rest.length).location.offset = _ ∨ _
      rw [hat.slice (Nat.le_refl _), List.take_length]
      exact hsplit
  | @bareReturn after hsplit hfeed =>
    refine .bareCarriageReturn ⟨rfl, rfl⟩ rfl rfl ?_ ?_
    · have hunit := hat.getElem?_offset 0
      rw [hsplit] at hunit
      exact hunit
    · rw [hat.getElem?_offset 1, hsplit, List.getElem?_cons_succ, ← List.head?_eq_getElem?]
      exact hfeed
  | @whitespace v after hsplit hspace =>
    rw [hrest] at hsplit
    cases hsplit
    have hquote : isQuote u ≠ true := by
      intro hquote
      rw [isSpace_of_isQuote hquote] at hspace
      cases hspace
    have hterminator : isLineTerminator u = false := by
      simpa [Fault.code, hquote] using hreader
    have hunit := hat.getElem?_offset 0
    rw [hrest] at hunit
    refine .unsupportedWhitespace ⟨rfl, rfl⟩ rfl rfl hunit hspace ?_ rfl
    simp [isHorizontal, isLineTerminator] at hhorizontal hterminator
    exact ⟨hhorizontal.1, hhorizontal.2, hterminator.2, hterminator.1⟩

/-- A leading run that diverges from the innermost block is explained by the tokens that
opened the block. -/
theorem explains_of_divergence {lx : Lexer} {source : Text} {before : List Token} {i : Nat}
    (hat : lx.cursor.At source) (hcolumn : lx.cursor.column = 0)
    (hblocks : (Token.unclosed before).map (·.value) = lx.blocks)
    (hdiv : Text.divergence? lx.leading lx.indent = some i) :
    (Report.ofFault (.inconsistentIndentation
      ⟨lx.cursor.location, lx.cursor.locationAhead lx.leading.length⟩
      (lx.cursor.locationAhead i) lx.indent lx.leading)).Explains source before := by
  obtain ⟨hagree, x, y, hx, hy, hne⟩ := Text.divergence?_eq_some hdiv
  have hindent : lx.indent ≠ [] := by
    intro hnil
    rw [hnil] at hy
    cases hy
  obtain ⟨opening, hopening, hvalue⟩ :
      ∃ opening, (Token.unclosed before).head? = some opening ∧ opening.value = lx.indent := by
    unfold Lexer.indent at hindent ⊢
    rw [← hblocks] at hindent ⊢
    cases hunclosed : Token.unclosed before with
    | nil => simp [hunclosed] at hindent
    | cons opening outer => exact ⟨opening, rfl, by simp⟩
  have hstart : source.IsLineStart lx.cursor.offset := by
    obtain ⟨e, he, hcursor⟩ := hat
    rw [hcursor] at hcolumn ⊢
    rw [Cursor.offset_ofOffset he]
    exact (Cursor.column_ofOffset_eq_zero_iff he).1 hcolumn
  refine .inconsistentIndentation ⟨rfl, rfl⟩ rfl rfl rfl rfl hstart ?_ ?_ hopening hvalue ?_
    hagree.symm ⟨y, x, hy, hx, hne.symm⟩
  · rw [← hat.rest_eq]
    rfl
  · show source.slice lx.cursor.location.offset
      (lx.cursor.locationAhead lx.leading.length).offset = lx.leading
    rw [lx.locationAhead_of_le_leading (Nat.le_refl _), hat.slice lx.length_leading_le,
      ← lx.leading_append_behind, List.take_left]
  · show ((lx.cursor.column : Int) + i) = i
    rw [hcolumn]
    simp

/-! ## Reports of faults -/

theorem ErrorCode.findIn_id (code : ErrorCode) :
    ErrorCode.findIn code.category code.id = .ok code := by
  cases code <;> decide +kernel

theorem Location.Exact.nonneg {l : Location} {source : Text} (h : l.Exact source) :
    0 ≤ l.line ∧ 0 ≤ l.column := by
  obtain ⟨n, hn, rfl⟩ := h
  have hstart := Text.lineStart_add_length hn
  simp only [Text.locationAt]
  omega

namespace Report

/-- The report of a fault, built from the identifier of its code.  This fails unless the code
is registered and of the category that the report takes. -/
def ofFault? (f : Fault) : Except ReportError Report :=
  match f.span with
  | some span => lexer? f.code.id f.message span (some f.location) f.context
  | none => contract? f.code.id f.message (some f.location) f.context

theorem lexer?_id {code : ErrorCode} (h : code.category = .lexer) (message : Text) (span : Span)
    (location : Location) (context : Option Context) :
    lexer? code.id message span (some location) context =
      .ok (lexer code message span location context) := by
  rw [lexer?, ← h, ErrorCode.findIn_id]
  rfl

theorem contract?_id {code : ErrorCode} (h : code.category = .contract) (message : Text)
    (location : Option Location) (context : Option Context) :
    contract? code.id message location context =
      .ok (contract code message location context) := by
  rw [contract?, ← h, ErrorCode.findIn_id]
  rfl

/-- A fault has a span exactly if its code is a lexer code. -/
theorem ofFault?_eq (f : Fault) : ofFault? f = .ok (ofFault f) := by
  cases f with
  | unterminatedString | inconsistentIndentation | unexpectedEnd | unfinishedString =>
    exact lexer?_id rfl _ _ _ _
  | bareCarriageReturn | unsupportedWhitespace | snapshotOrder => exact contract?_id rfl _ _ _

theorem message_ofFault (f : Fault) :
    (ofFault f).message = f.message.withPlace (some f.location) := by
  unfold ofFault
  split <;> rfl

theorem location_ofFault (f : Fault) : (ofFault f).location = some f.location := by
  unfold ofFault
  split <;> rfl

theorem code_ofFault (f : Fault) : (ofFault f).code = f.code := by
  unfold ofFault
  split <;> rfl

theorem context_ofFault (f : Fault) : (ofFault f).context = f.context := by
  unfold ofFault
  split <;> rfl

/-- Without its place the message of a report is that of the fault. -/
theorem bareMessage_ofFault {f : Fault} {source : Text} (h : f.Exact source) :
    (ofFault f).bareMessage = f.message := by
  obtain ⟨hline, hcolumn⟩ := h.location.nonneg
  rw [bareMessage, message_ofFault]
  exact Text.withoutPlace_withPlace f.message hline hcolumn

/-- No report of a source is about a read at its end. -/
theorem Explains.ne_unexpectedEnd {f : Fault} {source : Text} {before : List Token}
    (h : (ofFault f).Explains source before) (l : Location) : f ≠ .unexpectedEnd l := by
  rintro rfl
  cases h with
  | unfinishedString _ hspan _ _ _ htext =>
    cases hspan
    simp [Span.point, Text.slice] at htext
  | unterminatedString hreport | inconsistentIndentation hreport =>
    have hid : Text.ofString "SCN-L003" = _ := hreport.2
    revert hid
    decide +kernel
  | bareCarriageReturn hreport | unsupportedWhitespace hreport => cases hreport.1

end Report

theorem Fault.addition_eq {f : Fault} (h : ∀ l, f ≠ .unexpectedEnd l) :
    f.addition = if f.code = .unexpectedEnd then
      Text.ofString " while scanning string literal" else [] := by
  cases f with
  | unexpectedEnd l => exact absurd rfl (h l)
  | unfinishedString => rfl
  | unterminatedString | inconsistentIndentation | bareCarriageReturn | unsupportedWhitespace
  | snapshotOrder => rfl

/-! ## Sources without tokens -/

/-- A step that fails is explained by the tokens before it. -/
theorem Lexer.explains_of_next {lx after : Lexer} {source : Text} {before : List Token}
    {fault : Fault} (hat : lx.cursor.At source)
    (hblocks : (Token.unclosed before).map (·.value) = lx.blocks)
    (hnext : lx.next = (.error fault, after)) :
    (Report.ofFault fault).Explains source before := by
  have hout := outcome_of_next hnext
  generalize hr : (Except.error fault : Except Fault Token) = r at hout
  cases hout with
  | blank | closing | opening | ending => cases hr
  | divergence hcolumn _ _ hdiv =>
    cases hr
    exact explains_of_divergence hat hcolumn hblocks hdiv
  | @lexeme u more hbehind hstay =>
    have hrest : (lx.cursor.skip lx.leading.length).rest = u :: more := by
      rw [Cursor.rest_skip]
      exact hbehind
    obtain ⟨n, hcause, -, hreader⟩ := Cursor.cause_readLexeme hrest (Prod.ext hr.symm rfl)
    exact explains_of_cause (hat.skip lx.length_leading_le) hrest
      (not_isHorizontal_behind hbehind) hcause hreader

/-- The fault of a source is explained by the tokens before it. -/
theorem Lexer.explains_of_scan_fault {source : Text} {fault : Fault}
    (h : (ofSource source).scan.fault = some fault) :
    ∃ before, (Report.ofFault fault).Explains source before := by
  obtain ⟨stopped, after, hcalls, hnext⟩ := calls_of_scan_fault h
  have hat := cursor_at_calls ⟨0, Nat.zero_le _, rfl⟩ hcalls
  exact ⟨_, explains_of_next hat (unclosed_of_calls hcalls) hnext⟩

/-- A source without tokens has a fault that names its cause.

* Some tokens are read first, and the next step fails.
* The report of the fault can be built, so there is no failure of another kind.  It explains
  what is wrong with the source at the place and in the span that it names.
* Without its place, the message of the report is the registered one, filled in with the
  context; only a string that reaches the end of the source is also said to be one. -/
theorem tokenize_error_explained {source : Text} {comments : Bool} {fault : Fault}
    (h : tokenize source comments = .error fault) :
    ∃ before stopped after report,
      Calls Lexer.next (Lexer.ofSource source) before stopped ∧
      stopped.next = (.error fault, after) ∧
      Report.ofFault? fault = .ok report ∧ report.Explains source before ∧
      (∃ place, report.location = some place ∧
        report.message = report.bareMessage ++ place.suffix) ∧
      (Template.render report.code.definition.template (report.context.getD [])).map (· ++
          if report.code = .unexpectedEnd then Text.ofString " while scanning string literal"
          else []) = some report.bareMessage := by
  have hfault := tokenize_eq_error_iff.1 h
  have hat : (Lexer.ofSource source).cursor.At source := ⟨0, Nat.zero_le _, rfl⟩
  have hexact := (Lexer.exact_scan hat).fault fault hfault
  obtain ⟨stopped, after, hcalls, hnext⟩ := Lexer.calls_of_scan_fault hfault
  have hexplains := Lexer.explains_of_next (Lexer.cursor_at_calls hat hcalls)
    (Lexer.unclosed_of_calls hcalls) hnext
  have hbare := Report.bareMessage_ofFault hexact
  refine ⟨_, stopped, after, Report.ofFault fault, hcalls, hnext, Report.ofFault?_eq fault,
    hexplains, ⟨fault.location, Report.location_ofFault fault, ?_⟩, ?_⟩
  · rw [hbare, Report.message_ofFault]
    rfl
  · rw [hbare, Report.code_ofFault, Report.context_ofFault,
      ← Fault.addition_eq hexplains.ne_unexpectedEnd]
    exact fault.message_eq_render

/-- Two blocks are opened by spaces and one is closed again, and then a line begins with a
tab. -/
theorem tokenize_error_explained_tab :
    let source : Text := "a\n b\n  c\n d\n\te"
    let fault : Fault :=
      .inconsistentIndentation ⟨⟨5, 0, 12⟩, ⟨5, 1, 13⟩⟩ ⟨5, 0, 12⟩ [space] [tab]
    tokenize source false = .error fault ∧
      ∃ before report, Report.ofFault? fault = .ok report ∧ report.Explains source before ∧
        report.bareMessage =
          Text.ofString "Inconsistent use of tabs and spaces in indentation" := by
  intro source fault
  have h : tokenize source false = .error fault := by decide +kernel
  obtain ⟨before, _, _, report, _, _, hreport, hexplains, _, hmessage⟩ :=
    tokenize_error_explained h
  refine ⟨h, before, report, hreport, hexplains, ?_⟩
  rw [Report.ofFault?_eq] at hreport
  cases hreport
  exact Option.some.inj (hmessage.symm.trans (by decide +kernel))

end SceneTokens
