import SceneTokens.Proofs.Lookahead

/-!
# Scans and their tokens

A scan is a series of calls of `Lexer.next`.  `Lexer.calls_of_scan_fault` has the calls
before a fault, `Lexer.calls_of_scan_end` those up to the end of the stream, and
`Lexer.scan_of_calls` the scan behind some calls.

The open blocks can be read off the tokens: an `indent` opens one and a `dedent` closes
one.  `Token.unclosed` keeps account of the `indent` tokens along a list of tokens, and
their values are the runs of the lexer (`Lexer.unclosed_of_calls`).
-/

namespace SceneTokens

open CodeUnit

/-! ## Scans as calls -/

theorem Scan.result_eq_ok_iff {s : Scan} {tokens : List Token} :
    s.result = .ok tokens ↔ s.fault = none ∧ s.tokens = tokens := by
  unfold Scan.result
  cases s.fault with
  | none => simp
  | some fault => simp

theorem Scan.result_eq_error_iff {s : Scan} {fault : Fault} :
    s.result = .error fault ↔ s.fault = some fault := by
  unfold Scan.result
  cases s.fault with
  | none => simp
  | some cause => simp

/-- The tokens of a source are those of its scan, apart from comments. -/
theorem tokenize_eq_ok {source : Text} {comments : Bool} {tokens : List Token}
    (h : tokenize source comments = .ok tokens) :
    (Lexer.ofSource source).scan.fault = none ∧
      tokens = Token.keepComments comments (Lexer.ofSource source).scan.tokens := by
  unfold tokenize at h
  cases hresult : (Lexer.ofSource source).scan.result with
  | error fault =>
    rw [hresult] at h
    cases h
  | ok all =>
    rw [hresult] at h
    cases h
    obtain ⟨hfault, rfl⟩ := Scan.result_eq_ok_iff.1 hresult
    exact ⟨hfault, rfl⟩

theorem tokenize_eq_ok_iff {source : Text} {tokens : List Token} :
    tokenize source true = .ok tokens ↔
      (Lexer.ofSource source).scan.fault = none ∧ (Lexer.ofSource source).scan.tokens = tokens := by
  rw [← Scan.result_eq_ok_iff, tokenize]
  cases (Lexer.ofSource source).scan.result with
  | error fault => simp [Except.map]
  | ok read => simp [Except.map, Token.keepComments]

theorem tokenize_eq_error_iff {source : Text} {comments : Bool} {fault : Fault} :
    tokenize source comments = .error fault ↔
      (Lexer.ofSource source).scan.fault = some fault := by
  rw [← Scan.result_eq_error_iff, tokenize]
  cases (Lexer.ofSource source).scan.result with
  | error cause => simp [Except.map]
  | ok read => simp [Except.map]

namespace Lexer

theorem scan_of_error {lx after : Lexer} {fault : Fault} (h : lx.next = (.error fault, after)) :
    lx.scan = ⟨[], some fault, after⟩ := by
  rw [scan]
  split
  · rename_i hnext
    rw [h] at hnext
    cases hnext
    rfl
  · rename_i hnext
    rw [h] at hnext
    cases hnext

theorem scan_of_ok {lx after : Lexer} {t : Token} (h : lx.next = (.ok t, after)) :
    lx.scan =
      if t.kind = .endOfStream then ⟨[t], none, after⟩ else Scan.cons t after.scan := by
  rw [scan]
  split
  · rename_i hnext
    rw [h] at hnext
    cases hnext
  · rename_i hnext
    rw [h] at hnext
    cases hnext
    rfl

/-- A scan goes on behind the tokens that were read first. -/
theorem scan_of_calls {lx after : Lexer} {tokens : List Token}
    (h : Calls Lexer.next lx tokens after) (hkind : ∀ t ∈ tokens, t.kind ≠ .endOfStream) :
    lx.scan = ⟨tokens ++ after.scan.tokens, after.scan.fault, after.scan.final⟩ := by
  induction h with
  | nil => rfl
  | cons hstep _ ih =>
    obtain ⟨hfirst, hrest⟩ := List.forall_mem_cons.1 hkind
    rw [scan_of_ok hstep, if_neg hfirst, ih hrest]
    rfl

/-- The calls before the first fault. -/
theorem calls_of_scan_fault {lx : Lexer} {fault : Fault} (h : lx.scan.fault = some fault) :
    ∃ stopped after, Calls Lexer.next lx lx.scan.tokens stopped ∧
      stopped.next = (.error fault, after) := by
  fun_induction scan lx with
  | case1 lx f after hnext =>
    cases h
    exact ⟨lx, after, .nil lx, hnext⟩
  | case2 => cases h
  | case3 lx token after hnext hkind ih =>
    obtain ⟨stopped, final, hcalls, hfault⟩ := ih h
    exact ⟨stopped, final, .cons hnext hcalls, hfault⟩

/-- The calls up to the end of the stream, which comes last. -/
theorem calls_of_scan_end {lx : Lexer} (h : lx.scan.fault = none) :
    Calls Lexer.next lx lx.scan.tokens lx.scan.final ∧
      ∃ body last, lx.scan.tokens = body ++ [last] ∧ last.kind = .endOfStream ∧
        ∀ t ∈ body, t.kind ≠ .endOfStream := by
  fun_induction scan lx with
  | case1 => cases h
  | case2 lx token after hnext hkind =>
    exact ⟨.cons hnext (.nil after), [], token, rfl, hkind, by simp⟩
  | case3 lx token after hnext hkind ih =>
    obtain ⟨hcalls, body, last, htokens, hlast, hbody⟩ := ih h
    refine ⟨.cons hnext hcalls, token :: body, last, ?_, hlast, ?_⟩
    · exact congrArg (token :: ·) htokens
    · exact List.forall_mem_cons.2 ⟨hkind, hbody⟩

end Lexer

/-! ## The account of open blocks -/

/-- Takes a token into the account: an `indent` is put on top, and a `dedent` takes the top
off. -/
def Token.note (unclosed : List Token) (t : Token) : List Token :=
  match t.kind with
  | .indent => t :: unclosed
  | .dedent => unclosed.tail
  | _ => unclosed

/-- The `indent` tokens that no `dedent` has closed, innermost first. -/
def Token.unclosed (tokens : List Token) : List Token := tokens.foldl Token.note []

theorem Token.note_of_isLexeme {unclosed : List Token} {t : Token} (h : t.kind.isLexeme = true) :
    Token.note unclosed t = unclosed := by
  unfold Token.note
  split
  · rename_i hkind
    simp [hkind, TokenKind.isLexeme] at h
  · rename_i hkind
    simp [hkind, TokenKind.isLexeme] at h
  · rfl

namespace Lexer

/-- The account agrees with the blocks of a lexer. -/
def Accounts (unclosed : List Token) (lx : Lexer) : Prop := unclosed.map (·.value) = lx.blocks

theorem Accounts.dedent {unclosed : List Token} {lx : Lexer} (h : lx.Accounts unclosed) :
    lx.dedent.2.Accounts (Token.note unclosed lx.dedent.1) := by
  show unclosed.tail.map (·.value) = lx.blocks.tail
  rw [← h, List.map_tail]

/-- One step keeps the account right. -/
theorem Accounts.next {unclosed : List Token} {lx after : Lexer} {t : Token}
    (h : lx.Accounts unclosed) (hnext : lx.next = (.ok t, after)) :
    after.Accounts (Token.note unclosed t) := by
  have hout := outcome_of_next hnext
  generalize hr : (Except.ok t : Except Fault Token) = r at hout
  cases hout with
  | blank =>
    cases hr
    exact h
  | closing =>
    cases hr
    exact h.dedent
  | opening =>
    cases hr
    have hvalue : (lx.cursor.cut .indent lx.leading.length).value = lx.leading := by
      show lx.cursor.rest.take lx.leading.length = lx.leading
      rw [← leading_append_behind, List.take_left]
    show List.map (·.value) (lx.cursor.cut .indent lx.leading.length :: unclosed) =
      lx.leading :: lx.blocks
    rw [List.map_cons, hvalue, h]
  | divergence => cases hr
  | ending =>
    cases hr
    unfold readEndOfInput
    split
    · exact h
    · exact Accounts.dedent h
  | @lexeme u more hbehind hstay =>
    obtain ⟨n, htakes⟩ := (lx.cursor.skip lx.leading.length).takes_readLexeme u
    obtain ⟨kind, hkind, rfl⟩ := htakes.token t hr.symm
    rw [Token.note_of_isLexeme hkind]
    exact h

theorem Accounts.calls {unclosed tokens : List Token} {lx after : Lexer}
    (h : lx.Accounts unclosed) (hcalls : Calls Lexer.next lx tokens after) :
    after.Accounts (tokens.foldl Token.note unclosed) := by
  induction hcalls generalizing unclosed with
  | nil => exact h
  | cons hstep _ ih => exact ih (h.next hstep)

/-- The blocks behind some tokens of a source are those of the `indent` tokens among them
that are not closed. -/
theorem unclosed_of_calls {source : Text} {tokens : List Token} {lx : Lexer}
    (h : Calls Lexer.next (Lexer.ofSource source) tokens lx) :
    (Token.unclosed tokens).map (·.value) = lx.blocks := by
  have hstart : (Lexer.ofSource source).Accounts [] := rfl
  exact hstart.calls h

end Lexer

end SceneTokens
