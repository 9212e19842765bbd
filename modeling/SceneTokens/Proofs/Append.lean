import SceneTokens.Proofs.Boundary
import SceneTokens.Proofs.Locations
import SceneTokens.Proofs.Shift

/-!
# Sources in two parts

A source whose first part ends with a line feed can be scanned part by part.  The tokens of
the first part stay as they are, up to the markers at its end, and the second part is
scanned as a source of its own, in the blocks that are open behind the first.

* No reader looks behind a line feed.  With a line feed ahead, a step that gives a token
  gives the same one, whatever text is put behind the source: `Lexer.next_append`.
* At the end of the first part the only tokens are the markers of its end,
  `Lexer.isTail_of_mem_scan`.  All others are read with a line feed ahead
  (`Lexer.exists_body`), and so they are tokens of the whole source as well
  (`Lexer.calls_append`).
* The state behind them is the one at the start of the second part, shifted
  (`Cursor.append_eq_shift`), and from there on `Lexer.scan_shift` applies.

Main statement: `tokenize_append`.
-/

namespace SceneTokens

open CodeUnit

/-! ## Texts that end a line -/

namespace Text

/-- The text is empty or its last unit is a line feed. -/
def EndsLine (t : Text) : Prop := t = [] ∨ t.getLast? = some lineFeed

theorem EndsLine.drop {t : Text} (h : t.EndsLine) (n : Nat) : EndsLine (t.drop n) := by
  by_cases hn : t.length ≤ n
  · exact .inl (List.drop_eq_nil_of_le hn)
  · rcases h with rfl | h
    · simp at hn
    · refine .inr ?_
      rw [List.getLast?_drop, if_neg hn]
      exact h

theorem EndsLine.lineFeed_mem {t : Text} (h : t.EndsLine) (hne : t ≠ []) : lineFeed ∈ t :=
  List.mem_of_getLast? (h.resolve_left hne)

end Text

/-! ## Text behind the source -/

namespace Lexer

variable {lx : Lexer}

/-- The whitespace before the end of the source has no line feed. -/
theorem lineFeed_notMem_of_gap
    (hgap : (∀ u ∈ lx.cursor.rest, isHorizontal u = true) ∨
      lx.cursor.column = 0 ∧ ∀ u ∈ lx.cursor.rest, isBlank u = true) :
    lineFeed ∉ lx.cursor.rest := by
  intro hmem
  exact absurd (isBlank_of_gap hgap _ hmem) (by decide)

/-- With a line feed ahead, a step that gives a token goes the same way, whatever text is
behind the source. -/
theorem next_append (hfeed : lineFeed ∈ lx.cursor.rest) (q : Text) {t : Token} {after : Lexer}
    (h : lx.next = (.ok t, after)) : (lx.append q).next = (.ok t, after.append q) := by
  rw [← lx.append_nil] at h
  obtain ⟨mid, rfl, hnext⟩ :=
    next_change hfeed (by decide) h (Nat.zero_le _) fun _ => .inl hfeed
  rw [mid.append_nil]
  exact hnext

end Lexer

/-! ## The markers at the end -/

/-- A marker at an offset that closes a block or ends the stream. -/
def Token.isTail (n : Nat) (t : Token) : Bool :=
  (t.kind == .dedent || t.kind == .endOfStream) &&
    (t.span.start.offset == n && t.span.stop.offset == n)

/-- The tokens of a source without the markers at its end. -/
def Token.body (p : Text) (tokens : List Token) : List Token :=
  tokens.filter fun t => !t.isTail p.length

theorem Token.isTail_of_kind {t : Token} (n : Nat) (hdedent : t.kind ≠ .dedent)
    (hend : t.kind ≠ .endOfStream) : t.isTail n = false := by
  simp [isTail, hdedent, hend]

theorem Token.body_append {p : Text} {body tail : List Token}
    (hbody : ∀ t ∈ body, t.isTail p.length = false)
    (htail : ∀ t ∈ tail, t.isTail p.length = true) : Token.body p (body ++ tail) = body := by
  have hkeep : body.filter (fun t => !t.isTail p.length) = body := by
    apply List.filter_eq_self.2
    intro t ht
    rw [hbody t ht]
    rfl
  have hdrop : tail.filter (fun t => !t.isTail p.length) = [] := by
    apply List.filter_eq_nil_iff.2
    intro t ht
    rw [htail t ht]
    decide
  rw [Token.body, List.filter_append, hkeep, hdrop, List.append_nil]

namespace Lexer

variable {lx after : Lexer} {p : Text} {t : Token}

theorem next_of_end (h : lx.cursor.rest = []) :
    lx.next = (.ok lx.readEndOfInput.1, lx.readEndOfInput.2) := by
  have hread : lx.readInLine = _ := readInLine_of_horizontal (by simp [h])
  rw [h] at hread
  rw [next_of_rest_nil h]
  exact hread

/-- At the end there are only the markers, and the cursor stays. -/
theorem isTail_of_next (hat : lx.cursor.At p) (hrest : lx.cursor.rest = [])
    (h : lx.next = (.ok t, after)) : t.isTail p.length = true ∧ after.cursor = lx.cursor := by
  have hoffset : lx.cursor.location.offset = p.length := by
    have hsum := hat.offset_add_length
    rw [hrest] at hsum
    exact congrArg Int.ofNat hsum
  rw [next_of_end hrest] at h
  cases h
  unfold readEndOfInput
  split
  · exact ⟨by simp [Token.isTail, Cursor.mark, Span.point, hoffset], rfl⟩
  · exact ⟨by simp [Token.isTail, dedent, closeBlock, Cursor.mark, Span.point, hoffset], rfl⟩

theorem isTail_of_mem_scan (hat : lx.cursor.At p) (hrest : lx.cursor.rest = []) :
    ∀ t ∈ lx.scan.tokens, t.isTail p.length = true := by
  fun_induction scan lx with
  | case1 => simp
  | case2 lx token after hnext hkind =>
    exact List.forall_mem_singleton.2 (isTail_of_next hat hrest hnext).1
  | case3 lx token after hnext hkind ih =>
    obtain ⟨htoken, hcursor⟩ := isTail_of_next hat hrest hnext
    rw [hcursor] at ih
    exact List.forall_mem_cons.2 ⟨htoken, ih hat hrest⟩

/-- With a line feed ahead no marker of the end is read: a block is closed in front of the
line that closes it. -/
theorem not_isTail_of_next (hat : lx.cursor.At p) (hfeed : lineFeed ∈ lx.cursor.rest)
    (h : lx.next = (.ok t, after)) : t.isTail p.length = false ∧ t.kind ≠ .endOfStream := by
  have hout := outcome_of_next h
  generalize hr : (Except.ok t : Except Fault Token) = r at hout
  cases hout with
  | blank =>
    cases hr
    exact ⟨Token.isTail_of_kind _ nofun nofun, nofun⟩
  | closing =>
    -- The marker stands in front of a line, so its offset is not the last one.
    cases hr
    have hpos := List.length_pos_of_mem hfeed
    have hsum := hat.offset_add_length
    have hoffset : (lx.dedent.1.span.start.offset == (p.length : Int)) = false := by
      apply beq_false_of_ne
      show (lx.cursor.offset : Int) ≠ p.length
      omega
    exact ⟨by simp [Token.isTail, hoffset], nofun⟩
  | opening =>
    cases hr
    exact ⟨Token.isTail_of_kind _ nofun nofun, nofun⟩
  | divergence => cases hr
  | ending hgap => exact absurd hfeed (lineFeed_notMem_of_gap hgap)
  | @lexeme u more hbehind hstay =>
    obtain ⟨n, htakes⟩ := (lx.cursor.skip lx.leading.length).takes_readLexeme u
    obtain ⟨kind, hkind, rfl⟩ := htakes.token t hr.symm
    have hdedent : kind ≠ .dedent := by
      rintro rfl
      cases hkind
    have hend : kind ≠ .endOfStream := by
      rintro rfl
      cases hkind
    exact ⟨Token.isTail_of_kind _ hdedent hend, hend⟩

variable (hp : p.EndsLine)
include hp

theorem lineFeed_mem_of_at (hat : lx.cursor.At p) (hrest : lx.cursor.rest ≠ []) :
    lineFeed ∈ lx.cursor.rest := by
  rw [hat.rest_eq] at hrest ⊢
  exact (hp.drop _).lineFeed_mem hrest

/-- A source that ends a line is read up to its end before the first of the markers there. -/
theorem exists_body (hat : lx.cursor.At p) (h : lx.scan.fault = none) :
    ∃ body mid, Calls Lexer.next lx body mid ∧ mid.cursor.rest = [] ∧
      ∀ t ∈ body, t.isTail p.length = false ∧ t.kind ≠ .endOfStream := by
  fun_induction scan lx with
  | case1 => cases h
  | case2 lx token after hnext hkind =>
    refine ⟨[], lx, .nil lx, ?_, by simp⟩
    by_contra hrest
    exact (not_isTail_of_next hat (lineFeed_mem_of_at hp hat hrest) hnext).2 hkind
  | case3 lx token after hnext hkind ih =>
    by_cases hrest : lx.cursor.rest = []
    · exact ⟨[], lx, .nil lx, hrest, by simp⟩
    · obtain ⟨body, mid, hcalls, hend, hbody⟩ := ih (cursor_at_next hat hnext) h
      have htoken := not_isTail_of_next hat (lineFeed_mem_of_at hp hat hrest) hnext
      exact ⟨token :: body, mid, .cons hnext hcalls, hend,
        List.forall_mem_cons.2 ⟨htoken, hbody⟩⟩

/-- The tokens before these markers are tokens of every source that goes on. -/
theorem calls_append {tokens : List Token} (hat : lx.cursor.At p)
    (h : Calls Lexer.next lx tokens after) (htokens : ∀ t ∈ tokens, t.isTail p.length = false)
    (q : Text) : Calls Lexer.next (lx.append q) tokens (after.append q) := by
  induction h with
  | nil => exact .nil _
  | @cons lx mid after t tokens hstep _ ih =>
    obtain ⟨htoken, hrest⟩ := List.forall_mem_cons.1 htokens
    -- At the end of `p` the token would be one of the markers.
    have hne : lx.cursor.rest ≠ [] := by
      intro hnil
      rw [(isTail_of_next hat hnil hstep).1] at htoken
      cases htoken
    have hfeed := lineFeed_mem_of_at hp hat hne
    exact .cons (next_append hfeed q hstep) (ih (cursor_at_next hat hstep) hrest)

end Lexer

/-! ## Two parts of a source -/

/-- The place behind a text that ends a line is a line start. -/
theorem Text.EndsLine.isLineStart {p : Text} (hp : p.EndsLine) : p.IsLineStart p.length := by
  rcases hp with rfl | hp
  · exact .inl rfl
  · rw [List.getLast?_eq_getElem?] at hp
    exact .inr hp

/-- At the end of the first part the second begins, shifted by the first. -/
theorem Cursor.append_eq_shift {p : Text} (hp : p.EndsLine) {c : Cursor} (hat : c.At p)
    (hrest : c.rest = []) (q : Text) : c.append q = (Cursor.ofSource q).shift p := by
  obtain ⟨n, hn, rfl⟩ := hat
  have hend : n = p.length := by
    rw [rest_ofOffset, List.drop_eq_nil_iff] at hrest
    omega
  subst hend
  have hline : (ofOffset p p.length).line = 1 + p.count lineFeed := by
    rw [ofOffset, line_skip]
    show 1 + (p.take p.length).count lineFeed = _
    rw [List.take_length]
  have hcolumn : (ofOffset p p.length).column = 0 :=
    (column_ofOffset_eq_zero_iff hn).2 hp.isLineStart
  simp [append, shift, ofSource, hline, hcolumn, offset_ofOffset hn]

namespace Lexer

/-- The state at the start of a source, inside blocks that are open already. -/
def resume (q : Text) (blocks : List Text) : Lexer := ⟨Cursor.ofSource q, blocks⟩

/-- A scan of two parts goes on behind the first with the second. -/
theorem scan_append {p : Text} {body : List Token} {mid : Lexer} (hp : p.EndsLine)
    (hcalls : Calls Lexer.next (Lexer.ofSource p) body mid) (hrest : mid.cursor.rest = [])
    (hbody : ∀ t ∈ body, t.isTail p.length = false ∧ t.kind ≠ .endOfStream) (q : Text) :
    (Lexer.ofSource (p ++ q)).scan =
      ⟨body ++ (resume q mid.blocks).scan.tokens.map (·.shift p),
        (resume q mid.blocks).scan.fault.map (·.shift p),
        (resume q mid.blocks).scan.final.shift p⟩ := by
  have hat : (Lexer.ofSource p).cursor.At p := ⟨0, Nat.zero_le _, rfl⟩
  have hmid : mid.append q = (resume q mid.blocks).shift p := by
    unfold append
    rw [Cursor.append_eq_shift hp (cursor_at_calls hat hcalls) hrest]
    rfl
  have hwhole : Calls Lexer.next (Lexer.ofSource (p ++ q)) body (mid.append q) :=
    calls_append hp hat hcalls (fun t ht => (hbody t ht).1) q
  rw [scan_of_calls hwhole fun t ht => (hbody t ht).2, hmid, scan_shift]
  rfl

end Lexer

/-- A source in two parts, the first of which ends a line and has tokens.

The tokens of the first part, without the markers at its end, are the first ones of the
whole.  What comes behind them is read from the second part alone, inside the blocks that
are open then: the same tokens or the same fault, with all places shifted. -/
theorem tokenize_append {p : Text} {tokens : List Token}
    (hp : p = [] ∨ p.getLast? = some lineFeed) (h : tokenize p true = .ok tokens) :
    ∃ lx, Calls Lexer.next (Lexer.ofSource p) (Token.body p tokens) lx ∧
      ∀ q,
        (∀ more, (Lexer.resume q lx.blocks).scan.result = .ok more →
          tokenize (p ++ q) true = .ok (Token.body p tokens ++ more.map (·.shift p))) ∧
        (∀ fault, (Lexer.resume q lx.blocks).scan.result = .error fault →
          ∃ shifted, tokenize (p ++ q) true = .error shifted ∧
            shifted.code = fault.code ∧ shifted.context = fault.context ∧
            shifted.location = fault.location.shift p ∧
            shifted.span = fault.span.map (·.shift p)) := by
  have hat : (Lexer.ofSource p).cursor.At p := ⟨0, Nat.zero_le _, rfl⟩
  obtain ⟨hfault, htokens⟩ := tokenize_eq_ok_iff.1 h
  obtain ⟨body, mid, hcalls, hrest, hinner⟩ := Lexer.exists_body hp hat hfault
  have hbody : Token.body p tokens = body := by
    rw [← htokens, Lexer.scan_of_calls hcalls fun t ht => (hinner t ht).2]
    exact Token.body_append (fun t ht => (hinner t ht).1)
      (Lexer.isTail_of_mem_scan (Lexer.cursor_at_calls hat hcalls) hrest)
  rw [hbody]
  refine ⟨mid, hcalls, fun q => ?_⟩
  have hscan := Lexer.scan_append hp hcalls hrest hinner q
  constructor
  · intro more hmore
    obtain ⟨hnone, rfl⟩ := Scan.result_eq_ok_iff.1 hmore
    apply tokenize_eq_ok_iff.2
    rw [hscan, hnone]
    exact ⟨rfl, rfl⟩
  · intro fault hfault
    have hsome := Scan.result_eq_error_iff.1 hfault
    refine ⟨fault.shift p, tokenize_eq_error_iff.2 ?_, fault.code_shift p,
      fault.context_shift p, fault.location_shift p, fault.span_shift p⟩
    rw [hscan, hsome]
    rfl

/-- A block is open behind the first part.  The second part goes on in it, and it closes it
in front of its last line. -/
theorem tokenize_append_open_block :
    let p : Text := "a\n b\n"
    let q : Text := " c\nd"
    let tokens := (Lexer.ofSource p).scan.tokens
    let run := (Lexer.resume q [[space]]).scan
    (p = [] ∨ p.getLast? = some lineFeed) ∧ tokenize p true = .ok tokens ∧
      run.result = .ok run.tokens ∧
      run.tokens.map (·.kind) =
        [.identifier, .newline, .dedent, .identifier, .endOfStream] ∧
      tokenize (p ++ q) true = .ok (Token.body p tokens ++ run.tokens.map (·.shift p)) := by
  intro p q tokens run
  have hp : p = [] ∨ p.getLast? = some lineFeed := by decide +kernel
  have h : tokenize p true = .ok tokens := by decide +kernel
  have hrun : run.result = .ok run.tokens := by decide +kernel
  have hkinds : run.tokens.map (·.kind) =
      [.identifier, .newline, .dedent, .identifier, .endOfStream] := by decide +kernel
  have hopen : (Token.unclosed (Token.body p tokens)).map (·.value) = [[space]] := by
    decide +kernel
  obtain ⟨lx, hcalls, hmore⟩ := tokenize_append hp h
  have hblocks : lx.blocks = [[space]] := (Lexer.unclosed_of_calls hcalls).symm.trans hopen
  refine ⟨hp, h, hrun, hkinds, (hmore q).1 run.tokens ?_⟩
  rw [hblocks]
  exact hrun

end SceneTokens
