import SceneTokens.Command.Lex
import SceneTokens.Proofs.Carets
import SceneTokens.Proofs.LineStart
import SceneTokens.Proofs.SnippetLines

/-!
# Listings

What the command shows of a source is what `tokenize` makes of it.  The tokens are listed if
there are any; otherwise those before the fault are, and the fault is rendered with the lines
of the source around it.

`Outcome.Reports` says what is rendered.  Over several lines these are the first lines of the
fault, the rows of the snippet with carets at the fault, and the advice; a document and a
single line say the same without the snippet.

The rendering has two places where it could fail, and a third one where it could leave the
lines out.  None of them is reached, since the fault of a scan is located exactly, and a
source with a fault is not empty.

Main statement: `lexSource_agrees`.
-/

namespace SceneTokens

open CodeUnit

/-! ## Reports of a source -/

theorem Report.exitCode_ofFault (f : Fault) :
    (ofFault f).kind = .lexer ∧ f.exitCode = .lexerError ∨
      (ofFault f).kind = .contract ∧ f.exitCode = .contractError := by
  unfold Fault.exitCode ofFault
  cases f.span with
  | some span => exact .inl ⟨rfl, rfl⟩
  | none => exact .inr ⟨rfl, rfl⟩

/-- A fault is rendered in every format. -/
theorem Problem.exists_text {source : Text} {fault : Fault} (hexact : fault.Exact source)
    {around : Int} {several : Text}
    (hhuman : ((Report.ofFault fault).enrich source around).human = .ok several)
    (format : OutputFormat) :
    ∃ text, (Problem.report (Report.ofFault fault)).text source format around = .ok text ∧
      (format = .human → text = several) ∧
      (format = .json → text = fault.document.render) ∧
      (format = .compact → text = fault.summary) := by
  cases format with
  | human => exact ⟨several, hhuman, fun _ => rfl, nofun, nofun⟩
  | json =>
    refine ⟨_, congrArg Except.ok (Report.json_enrich hexact around), nofun, fun _ => rfl, nofun⟩
  | compact =>
    exact ⟨_, congrArg Except.ok (Report.compact_enrich hexact around), nofun, nofun, fun _ => rfl⟩

/-! ## The outcome -/

/-- What is shown of a source with a fault. -/
structure Outcome.Reports (o : Outcome) (source : Text) (settings : Settings) (fault : Fault) :
    Prop where
  /-- The tokens listed are those that a stream of the source gives before the fault. -/
  listed : ∀ tag, ∃ before stopped after,
    Calls Stream.next (Stream.ofSource tag source) before stopped ∧
      stopped.next = (.error fault, after) ∧
      o.stdout = Token.listing settings.format
        (Token.keepComments settings.includeComments before)
  /-- The fault is rendered, and the rendering does not fail. -/
  rendered : (Problem.report (Report.ofFault fault)).text source settings.format
    settings.contextLines = .ok o.stderr
  /-- The lines around the span of the fault belong to its report, as many as are wanted on both
  sides as far as there are any.  The line where the span starts is one of them. -/
  snippet : ∃ x,
    ((Report.ofFault fault).enrich source settings.contextLines).span = some fault.shownSpan ∧
      Snippet.extract source fault.shownSpan settings.contextLines = .ok x ∧
      ((Report.ofFault fault).enrich source settings.contextLines).snippet = some x ∧
      0 ≤ fault.shownSpan.start.column ∧
      (∃ line ∈ x.lines, line.number = fault.shownSpan.start.line ∧ line.isError = true) ∧
      x.Window source fault.shownSpan
        (max 1 (fault.shownSpan.start.line - settings.contextLines))
        (min (source.count lineFeed + 1) (fault.shownSpan.stop.line + settings.contextLines))
  /-- Over several lines the rows of these lines are shown between the lines about the fault, and
  carets point at it. -/
  human : settings.format = .human →
    Text.lines o.stderr = [fault.headline, fault.arrow] ++
      (Snippet.caretBlock source fault.shownSpan settings.contextLines).rows ++ [fault.help] ∧
    (Snippet.caretBlock source fault.shownSpan settings.contextLines).PointsAt source
      fault.shownSpan settings.contextLines
  /-- The document has the range of the span, the code, the message and the advice. -/
  json : settings.format = .json → o.stderr = fault.document.render
  /-- On one line there are the code, the message and the place, and there is no other line. -/
  compact : settings.format = .compact → o.stderr = fault.summary ∧ lineFeed ∉ o.stderr
  /-- The exit code tells malformed source from a broken contract. -/
  code : (Report.ofFault fault).kind = .lexer ∧ o.code.toNat = 1 ∨
    (Report.ofFault fault).kind = .contract ∧ o.code.toNat = 3

theorem lexSource_of_tokens {source : Text} {settings : Settings} {tokens : List Token}
    (h : tokenize source settings.includeComments = .ok tokens) :
    lexSource source settings = ⟨Token.listing settings.format tokens, [], .ok⟩ := by
  obtain ⟨hfault, rfl⟩ := tokenize_eq_ok h
  unfold lexSource
  simp only [hfault]

/-- A stream of a source gives its tokens, up to the end of the stream. -/
theorem Stream.calls_of_tokenize {source : Text} {comments : Bool} {tokens : List Token}
    (h : tokenize source comments = .ok tokens) (tag : Nat) :
    ∃ body last after, Calls Stream.next (Stream.ofSource tag source) (body ++ [last]) after ∧
      last.kind = .endOfStream ∧ (∀ t ∈ body, t.kind ≠ .endOfStream) ∧
      tokens = Token.keepComments comments (body ++ [last]) := by
  obtain ⟨hfault, rfl⟩ := tokenize_eq_ok h
  obtain ⟨hcalls, body, last, hsplit, hlast, hbody⟩ := Lexer.calls_of_scan_end hfault
  rw [hsplit] at hcalls ⊢
  exact ⟨body, last, _, calls_of_lexer hcalls, hlast, hbody, rfl⟩

theorem lexSource_of_fault {source : Text} {fault : Fault} (settings : Settings)
    (h : (Lexer.ofSource source).scan.fault = some fault) :
    lexSource source settings =
      ⟨Token.listing settings.format
        (Token.keepComments settings.includeComments (Lexer.ofSource source).scan.tokens),
        fault.render source settings, fault.exitCode⟩ := by
  unfold lexSource
  simp only [h]

theorem Fault.render_eq {fault : Fault} {source text : Text} {settings : Settings}
    (h : (Problem.report (Report.ofFault fault)).text source settings.format
      settings.contextLines = .ok text) : fault.render source settings = text := by
  unfold render
  dsimp only
  rw [h]

theorem Outcome.reports_of_fault {source : Text} {fault : Fault} {settings : Settings}
    (haround : 0 ≤ settings.contextLines)
    (h : (Lexer.ofSource source).scan.fault = some fault) :
    (lexSource source settings).Reports source settings fault := by
  have hexact := Lexer.exact_of_scan_fault h
  have hspan := hexact.shownSpan
  have hne := source_ne_nil_of_fault h
  have hextract := Snippet.extract_eq hne hspan settings.contextLines
  have hsnippet := Report.snippet_enrich fault settings.contextLines hne hextract
  have hordered : fault.shownSpan.start.line ≤ fault.shownSpan.stop.line := by
    have := hspan.inOrder
    omega
  obtain ⟨line, hline, hstart⟩ := Snippet.exists_mem_around hspan haround
  obtain ⟨several, hhuman, hlines, hpoints⟩ := Fault.exists_human h haround
  obtain ⟨text, htext, hseveral, hdocument, hsummary⟩ :=
    Problem.exists_text hexact hhuman settings.format
  obtain ⟨stopped, after, hcalls, hnext⟩ := Lexer.calls_of_scan_fault h
  rw [lexSource_of_fault settings h, Fault.render_eq htext]
  constructor
  case listed =>
    intro tag
    have hstopped : ({ Stream.ofSource tag source with lexer := stopped } : Stream).lexer.next =
        (.error fault, after) := hnext
    exact ⟨_, _, _, Stream.calls_of_lexer hcalls, Stream.next_of_lexer hstopped, rfl⟩
  case rendered => exact htext
  case snippet =>
    exact ⟨_, Report.span_enrich .., hextract, hsnippet, hspan.start.nonneg.2,
      ⟨line, hline, hstart⟩, Snippet.window_around hspan.within hordered haround⟩
  case human =>
    intro hformat
    rw [hseveral hformat]
    exact ⟨hlines, hpoints⟩
  case json => exact hdocument
  case compact =>
    intro hformat
    rw [hsummary hformat]
    exact ⟨rfl, fault.lineFeed_notMem_summary⟩
  case code =>
    rcases Report.exitCode_ofFault fault with ⟨hkind, hcode⟩ | ⟨hkind, hcode⟩
    · exact .inl ⟨hkind, by rw [hcode]; rfl⟩
    · exact .inr ⟨hkind, by rw [hcode]; rfl⟩

/-- What the command shows of a source agrees with its tokens.

* The tokens of a source are listed, and nothing is reported.  They are the tokens that a
  stream of the source gives, up to the end of the stream.
* The fault of a source without tokens is reported, behind the tokens before it.
* The exit code is never that of a usage error. -/
theorem lexSource_agrees (source : Text) {settings : Settings}
    (haround : 0 ≤ settings.contextLines) :
    (∀ tokens, tokenize source settings.includeComments = .ok tokens →
      lexSource source settings = ⟨Token.listing settings.format tokens, [], .ok⟩ ∧
        ∀ tag, ∃ body last after,
          Calls Stream.next (Stream.ofSource tag source) (body ++ [last]) after ∧
          last.kind = .endOfStream ∧ (∀ t ∈ body, t.kind ≠ .endOfStream) ∧
          tokens = Token.keepComments settings.includeComments (body ++ [last])) ∧
    (∀ comments fault, tokenize source comments = .error fault →
      (lexSource source settings).Reports source settings fault) ∧
    (lexSource source settings).code.toNat ≠ 2 := by
  have hreports : ∀ comments fault, tokenize source comments = .error fault →
      (lexSource source settings).Reports source settings fault := by
    intro comments fault h
    exact Outcome.reports_of_fault haround (tokenize_eq_error_iff.1 h)
  refine ⟨fun tokens h => ⟨lexSource_of_tokens h, Stream.calls_of_tokenize h⟩, hreports, ?_⟩
  cases h : tokenize source settings.includeComments with
  | ok tokens =>
    rw [lexSource_of_tokens h]
    exact nofun
  | error fault =>
    rcases (hreports _ fault h).code with ⟨-, hcode⟩ | ⟨-, hcode⟩ <;> omega

/-- A string is left open on the second line, behind a comment that is not listed.  The first line
is shown as well, and two carets are below the string. -/
theorem lexSource_agrees_open_string :
    let source : Text := "# x\n a\"b"
    let settings : Settings := ⟨.human, false, 1⟩
    let fault : Fault := .unfinishedString ⟨⟨2, 2, 6⟩, ⟨2, 4, 8⟩⟩
    let listing : List Text :=
      ["<Token: NEWLINE, \"\\n\" (1:3, 2:0)>", "<Token: INDENT, \" \" (2:0, 2:1)>",
        "<Token: IDENTIFIER, \"a\" (2:1, 2:2)>"]
    let report : List Text :=
      ["error[SCN-L003]: Unexpected end of input while scanning string literal", "  --> 2:4",
        "   |", " 1 | # x", " 2 |  a\"b", "   |   ^^", "   |",
        "   = help: Complete the token before the end of the file."]
    0 ≤ settings.contextLines ∧ tokenize source false = .error fault ∧
      lexSource source settings = ⟨Text.unlines listing, Text.unlines report, .lexerError⟩ ∧
      (lexSource source settings).Reports source settings fault := by
  intro source settings fault listing report
  have haround : 0 ≤ settings.contextLines := by decide
  have h : tokenize source false = .error fault := by decide +kernel
  have houtcome : lexSource source settings =
      ⟨Text.unlines listing, Text.unlines report, .lexerError⟩ := by decide +kernel
  exact ⟨haround, h, houtcome, (lexSource_agrees source haround).2.1 false fault h⟩

end SceneTokens
