import SceneTokens.Proofs.Append
import SceneTokens.Proofs.IndentStack
import SceneTokens.Proofs.LineStart

/-!
# Balanced blocks

The tokens of a source say by themselves which blocks are open.  Replayed on a stack that
holds the run of the top level, an `indent` pushes its value and a `dedent` pops.

* `Lexer.tracks_next`: one step of the lexer does to its runs what its token does to the
  stack.  A `dedent` has a block to close, and its value is the run that is left on top.
* `Lexer.indents_calls` and `Lexer.depth_calls`: so the stack is that of the lexer behind
  any number of tokens, and its depth counts the tokens.
* `Lexer.calls_drain`: at the end of the source the open blocks are closed one by one, and
  then every call marks the end of the stream and changes nothing.

Main statement: `blocks_balanced_and_drained`.
-/

namespace SceneTokens

/-! ## Replaying tokens -/

namespace Token

/-- Replays a token on a stack of runs, outermost first. -/
def replay (stack : List Text) (t : Token) : List Text :=
  match t.kind with
  | .indent => stack ++ [t.value]
  | .dedent => stack.dropLast
  | _ => stack

/-- The stack behind some tokens, which starts with the run of the top level alone. -/
def stack (tokens : List Token) : List Text := tokens.foldl replay [[]]

/-- Replayed from the top level, some tokens open and close blocks in pairs. -/
structure Balanced (tokens : List Token) : Prop where
  /-- No token pops the bottom of the stack. -/
  bottom : ∀ before t after, tokens = before ++ t :: after → t.kind = .dedent →
    1 < (stack before).length
  /-- The value of a `dedent` is the run that it leaves on top. -/
  left : ∀ before t after, tokens = before ++ t :: after → t.kind = .dedent →
    (stack (before ++ [t])).getLast? = some t.value
  /-- The depth counts the blocks opened and closed so far. -/
  depth : ∀ before after, tokens = before ++ after →
    (stack before).length + before.countP (·.kind == .dedent) =
      1 + before.countP (·.kind == .indent)
  /-- The end of the stream comes last, and only the top level is open there. -/
  closed : ∃ body last, tokens = body ++ [last] ∧ last.kind = .endOfStream ∧
    stack body = [[]] ∧ stack tokens = [[]]

theorem replay_of_kind {t : Token} (stack : List Text) (hindent : t.kind ≠ .indent)
    (hdedent : t.kind ≠ .dedent) : replay stack t = stack := by
  unfold replay
  split
  · rename_i hkind
    exact absurd hkind hindent
  · rename_i hkind
    exact absurd hkind hdedent
  · rfl

/-- Comments have no part in it. -/
theorem foldl_replay_keepComments (comments : Bool) (tokens : List Token) (stack : List Text) :
    (keepComments comments tokens).foldl replay stack = tokens.foldl replay stack := by
  cases comments with
  | true => rfl
  | false =>
    show (tokens.filter fun t => t.kind != .comment).foldl replay stack = _
    rw [List.foldl_filter]
    congr 1
    funext stack t
    split
    · rfl
    · rename_i hkind
      have hcomment : t.kind = .comment := by simpa using hkind
      rw [replay_of_kind stack (by simp [hcomment]) (by simp [hcomment])]

theorem stack_keepComments (comments : Bool) (tokens : List Token) :
    stack (keepComments comments tokens) = stack tokens :=
  foldl_replay_keepComments comments tokens [[]]

theorem keepComments_append (comments : Bool) (first rest : List Token) :
    keepComments comments (first ++ rest) =
      keepComments comments first ++ keepComments comments rest := by
  cases comments with
  | true => rfl
  | false => exact List.filter_append first rest

/-- A beginning of the tokens that are kept comes from one of all tokens. -/
theorem split_of_keepComments {comments : Bool} {tokens before after : List Token}
    (h : keepComments comments tokens = before ++ after) :
    ∃ read more, tokens = read ++ more ∧ keepComments comments read = before ∧
      keepComments comments more = after := by
  cases comments with
  | true => exact ⟨before, after, h, rfl, rfl⟩
  | false => exact List.filter_eq_append_iff.1 h

/-- The same for a beginning that a token follows. -/
theorem split_cons_of_keepComments {comments : Bool} {tokens before after : List Token} {t : Token}
    (h : keepComments comments tokens = before ++ t :: after) :
    ∃ read more, tokens = read ++ t :: more ∧ keepComments comments read = before := by
  obtain ⟨read, more, htokens, hread, hmore⟩ := split_of_keepComments h
  cases comments with
  | true => exact ⟨read, after, hmore ▸ htokens, hread⟩
  | false =>
    obtain ⟨skipped, rest, hsplit, hskipped, -, -⟩ := List.filter_eq_cons_iff.1 hmore
    refine ⟨read ++ skipped, rest, by rw [htokens, hsplit, List.append_assoc], ?_⟩
    have hnone : keepComments false skipped = [] := List.filter_eq_nil_iff.2 hskipped
    rw [keepComments_append, hread, hnone, List.append_nil]

theorem stack_concat (tokens : List Token) (t : Token) :
    stack (tokens ++ [t]) = replay (stack tokens) t := by
  rw [stack, List.foldl_append]
  rfl

theorem countP_keepComments (comments : Bool) (tokens : List Token) {kind : TokenKind}
    (hkind : kind ≠ .comment) :
    (keepComments comments tokens).countP (·.kind == kind) = tokens.countP (·.kind == kind) := by
  cases comments with
  | true => rfl
  | false =>
    show (tokens.filter fun t => t.kind != .comment).countP (·.kind == kind) = _
    rw [List.countP_filter]
    apply List.countP_congr
    intro t _
    simp only [Bool.and_eq_true, beq_iff_eq, bne_iff_ne]
    constructor
    · intro h
      exact h.1
    · intro h
      exact ⟨h, h ▸ hkind⟩

end Token

/-! ## The stack of the lexer -/

namespace Lexer

variable {lx after : Lexer} {tokens : List Token}

theorem length_indents (lx : Lexer) : lx.indents.length = lx.depth := by
  simp [indents, depth]

theorem getLast?_indents (lx : Lexer) : lx.indents.getLast? = some lx.indent := by
  unfold indents indent
  cases lx.blocks with
  | nil => rfl
  | cons b more =>
    rw [List.reverse_cons, ← List.cons_append, List.getLast?_concat]
    rfl

/-- With a block to close, closing it pops the stack. -/
theorem indents_dedent (h : lx.blocks ≠ []) : lx.dedent.2.indents = lx.indents.dropLast :=
  (congrArg Stacked.stack (Stacked.pop_ofLexer h)).symm

/-- A token acts on the stack as its step acts on the lexer.  If it is a `dedent`, there is a
block to close, and its value is the run left on top. -/
structure Tracks (lx : Lexer) (t : Token) (after : Lexer) : Prop where
  indents : after.indents = Token.replay lx.indents t
  closes : t.kind = .dedent → lx.blocks ≠ [] ∧ t.value = after.indent

theorem tracks_dedent (h : lx.blocks ≠ []) : lx.Tracks lx.dedent.1 lx.dedent.2 :=
  ⟨indents_dedent h, fun _ => ⟨h, rfl⟩⟩

/-- A lexeme leaves the blocks alone. -/
theorem tracks_of_isLexeme {t : Token} (hkind : t.kind.isLexeme = true)
    (hblocks : after.blocks = lx.blocks) : lx.Tracks t after := by
  obtain ⟨-, hindent, hdedent⟩ := TokenKind.ne_of_isLexeme hkind
  refine ⟨?_, fun h => absurd h hdedent⟩
  rw [Token.replay_of_kind _ hindent hdedent, indents, indents, hblocks]

theorem tracks_readEndOfInput (lx : Lexer) :
    lx.Tracks lx.readEndOfInput.1 lx.readEndOfInput.2 := by
  unfold readEndOfInput
  split
  · exact ⟨rfl, nofun⟩
  · rename_i hblocks
    exact tracks_dedent (by simpa using hblocks)

/-- Every step tracks its token. -/
theorem tracks_next {t : Token} (h : lx.next = (.ok t, after)) : lx.Tracks t after := by
  have hout := outcome_of_next h
  generalize hr : (Except.ok t : Except Fault Token) = r at hout
  cases hout with
  | blank =>
    cases hr
    exact tracks_of_isLexeme rfl rfl
  | closing hcolumn hshape hblocks =>
    cases hr
    exact tracks_dedent hblocks
  | opening =>
    cases hr
    have hvalue : (lx.cursor.cut .indent lx.leading.length).value = lx.leading := by
      show lx.cursor.rest.take lx.leading.length = lx.leading
      rw [← leading_append_behind, List.take_left]
    refine ⟨?_, nofun⟩
    show [] :: (lx.leading :: lx.blocks).reverse =
      lx.indents ++ [(lx.cursor.cut .indent lx.leading.length).value]
    rw [hvalue, List.reverse_cons]
    rfl
  | divergence => cases hr
  | ending =>
    cases hr
    obtain ⟨hindents, hcloses⟩ := tracks_readEndOfInput (lx.skip lx.cursor.rest.length)
    exact ⟨hindents, hcloses⟩
  | @lexeme u more hbehind hstay =>
    obtain ⟨n, htakes⟩ := (lx.cursor.skip lx.leading.length).takes_readLexeme u
    obtain ⟨kind, hkind, rfl⟩ := htakes.token t hr.symm
    exact tracks_of_isLexeme hkind rfl

/-- The end of the stream is marked only when no block is open. -/
theorem blocks_of_endOfStream {t : Token} (h : lx.next = (.ok t, after))
    (hkind : t.kind = .endOfStream) : lx.blocks = [] := by
  have hout := outcome_of_next h
  generalize hr : (Except.ok t : Except Fault Token) = r at hout
  cases hout with
  | blank | closing | opening =>
    cases hr
    cases hkind
  | divergence => cases hr
  | ending =>
    cases hr
    unfold readEndOfInput at hkind
    split at hkind
    · rename_i hblocks
      exact List.isEmpty_iff.1 hblocks
    · cases hkind
  | @lexeme u more hbehind hstay =>
    obtain ⟨n, htakes⟩ := (lx.cursor.skip lx.leading.length).takes_readLexeme u
    obtain ⟨kind, hlexeme, rfl⟩ := htakes.token t hr.symm
    exact absurd hkind (TokenKind.ne_of_isLexeme hlexeme).1

/-- The replayed stack is that of the lexer behind any number of tokens. -/
theorem indents_calls (h : Calls Lexer.next lx tokens after) :
    after.indents = tokens.foldl Token.replay lx.indents := by
  induction h with
  | nil => rfl
  | cons hstep _ ih => rw [ih, (tracks_next hstep).indents, List.foldl_cons]

/-- One step changes the depth by its token. -/
theorem depth_next {t : Token} (h : lx.next = (.ok t, after)) :
    after.depth + (if t.kind = .dedent then 1 else 0) =
      lx.depth + (if t.kind = .indent then 1 else 0) := by
  obtain ⟨hindents, hcloses⟩ := tracks_next h
  rw [← length_indents, ← length_indents, hindents]
  unfold Token.replay
  split
  · rename_i hkind
    simp [hkind]
  · rename_i hkind
    have hpos : 0 < lx.indents.length := List.length_pos_iff.2 (List.cons_ne_nil _ _)
    simp only [hkind, List.length_dropLast, if_true, reduceCtorEq, if_false]
    omega
  · rename_i hindent hdedent
    rw [if_neg hdedent, if_neg hindent]

theorem depth_calls (h : Calls Lexer.next lx tokens after) :
    after.depth + tokens.countP (·.kind == .dedent) =
      lx.depth + tokens.countP (·.kind == .indent) := by
  induction h with
  | nil => rfl
  | cons hstep _ ih =>
    have hfirst := depth_next hstep
    simp only [List.countP_cons, beq_iff_eq]
    omega

/-! ## The end of the source -/

/-- The marker of the end of the stream at a place. -/
def endMark (place : Location) : Token := ⟨.endOfStream, [], Span.point place⟩

section AtEnd

variable (hend : lx.cursor.rest = [])
include hend

/-- One block is closed with every call, as long as there is one. -/
theorem calls_close_at_end (n : Nat) (hn : n ≤ lx.blocks.length) :
    Calls Lexer.next lx ((List.range n).map lx.dedentAt) (lx.closeBlocks n) := by
  induction n with
  | zero => exact .nil lx
  | succ n ih =>
    have hblocks : ¬(lx.closeBlocks n).blocks.isEmpty = true := by
      show ¬(lx.blocks.drop n).isEmpty = true
      rw [List.isEmpty_iff, List.drop_eq_nil_iff]
      omega
    have hstep : (lx.closeBlocks n).next = (.ok (lx.dedentAt n), lx.closeBlocks (n + 1)) := by
      have hnext : (lx.closeBlocks n).next = _ := next_of_end hend
      rw [hnext, readEndOfInput, if_neg hblocks, dedent_closeBlocks]
    rw [List.range_succ, List.map_append]
    exact (ih (by omega)).snoc hstep

/-- With the top level alone, every call marks the end and changes nothing. -/
theorem calls_endMark (hblocks : lx.blocks = []) (m : Nat) :
    Calls Lexer.next lx (List.replicate m (endMark lx.cursor.location)) lx := by
  have hstep : lx.next = (.ok (endMark lx.cursor.location), lx) := by
    rw [next_of_end hend, readEndOfInput, if_pos (by simp [hblocks])]
    rfl
  induction m with
  | zero => exact .nil lx
  | succ m ih => exact .cons hstep ih

/-- The blocks are drained, and the end of the stream follows for ever. -/
theorem calls_drain :
    Calls Lexer.next lx ((List.range lx.blocks.length).map lx.dedentAt) { lx with blocks := [] } ∧
      ∀ m, Calls Lexer.next { lx with blocks := [] }
        (List.replicate m (endMark lx.cursor.location)) { lx with blocks := [] } := by
  have hclose := calls_close_at_end hend lx.blocks.length (Nat.le_refl _)
  have hnone : lx.closeBlocks lx.blocks.length = { lx with blocks := [] } := by
    rw [closeBlocks, List.drop_length]
  rw [hnone] at hclose
  exact ⟨hclose, @calls_endMark { lx with blocks := [] } hend rfl⟩

end AtEnd

end Lexer

/-- What a stream at the end of its source has still to read: a `dedent` for every open
block, and then the end of the stream, as often as it is asked for.  All of these are at
one place and have no width, and nothing but the blocks changes. -/
def Stream.Drains (s : Stream) (place : Location) : Prop :=
  ∃ dedents final, dedents.length + 1 = s.lexer.depth ∧
    (∀ t ∈ dedents, t.kind = .dedent ∧ t.span = Span.point place) ∧
    Calls Stream.next s dedents final ∧
    final = { s with lexer := { s.lexer with blocks := [] } } ∧
    ∀ m, Calls Stream.next final (List.replicate m (Lexer.endMark place)) final

theorem Stream.drains_of_end {s : Stream} {source : Text} (hat : s.lexer.cursor.At source)
    (hend : s.lexer.cursor.rest = []) : s.Drains (source.locationAt source.length) := by
  have hplace : s.lexer.cursor.location = source.locationAt source.length := by
    obtain ⟨n, hn, hcursor⟩ := hat
    have hlength : n = source.length := by
      rw [hcursor, Cursor.rest_ofOffset, List.drop_eq_nil_iff] at hend
      omega
    rw [hcursor, hlength]
    exact Cursor.location_ofOffset (Nat.le_refl _)
  obtain ⟨hdrain, hmarks⟩ := Lexer.calls_drain hend
  rw [hplace] at hmarks
  refine ⟨_, _, ?_, ?_, calls_of_lexer hdrain, rfl, fun m => calls_of_lexer (hmarks m)⟩
  · simp [Lexer.depth]
  · intro t ht
    obtain ⟨n, -, rfl⟩ := List.mem_map.1 ht
    refine ⟨rfl, ?_⟩
    show Span.point s.lexer.cursor.location = _
    rw [hplace]

/-! ## Whole sources -/

/-- The tokens of a source up to any of them lead to a state with the replayed stack. -/
theorem Lexer.exists_calls_of_split {source : Text} {tokens before after : List Token}
    {final : Lexer} (hcalls : Calls Lexer.next (Lexer.ofSource source) tokens final)
    (h : tokens = before ++ after) :
    ∃ lx, Calls Lexer.next (Lexer.ofSource source) before lx ∧ Calls Lexer.next lx after final ∧
      lx.indents = Token.stack before := by
  subst h
  obtain ⟨lx, hbefore, hafter⟩ := hcalls.split
  exact ⟨lx, hbefore, hafter, indents_calls hbefore⟩

theorem Lexer.balanced_of_calls {source : Text} {body : List Token} {last : Token} {final : Lexer}
    (hcalls : Calls Lexer.next (Lexer.ofSource source) (body ++ [last]) final)
    (hlast : last.kind = .endOfStream) : Token.Balanced (body ++ [last]) := by
  have hdedent : ∀ before t after, body ++ [last] = before ++ t :: after → t.kind = .dedent →
      1 < (Token.stack before).length ∧
        (Token.stack (before ++ [t])).getLast? = some t.value := by
    intro before t after hsplit hkind
    obtain ⟨lx, -, hafter, hstack⟩ := exists_calls_of_split hcalls hsplit
    cases hafter with
    | @cons _ mid _ _ _ hstep _ =>
      obtain ⟨hindents, hcloses⟩ := tracks_next hstep
      obtain ⟨hblocks, hvalue⟩ := hcloses hkind
      have hpos := List.length_pos_iff.2 hblocks
      constructor
      · rw [← hstack, length_indents, depth]
        omega
      · rw [Token.stack_concat, ← hstack, ← hindents, getLast?_indents, hvalue]
  refine ⟨fun before t after hsplit hkind => (hdedent before t after hsplit hkind).1,
    fun before t after hsplit hkind => (hdedent before t after hsplit hkind).2, ?_, ?_⟩
  · intro before after hsplit
    obtain ⟨lx, hbefore, -, hstack⟩ := exists_calls_of_split hcalls hsplit
    rw [← hstack, length_indents]
    exact depth_calls hbefore
  · obtain ⟨lx, -, hafter, hstack⟩ := exists_calls_of_split hcalls rfl
    cases hafter with
    | cons hstep _ =>
      have hbody : Token.stack body = [[]] := by
        rw [← hstack, indents, blocks_of_endOfStream hstep hlast]
        rfl
      refine ⟨body, last, rfl, hlast, hbody, ?_⟩
      rw [Token.stack_concat, hbody]
      exact Token.replay_of_kind [[]] (by simp [hlast]) (by simp [hlast])

/-- Tokens stay balanced without their comments. -/
theorem Token.Balanced.keepComments {tokens : List Token} (h : Balanced tokens)
    (comments : Bool) : Balanced (Token.keepComments comments tokens) := by
  refine ⟨?_, ?_, ?_, ?_⟩
  · intro before t after hsplit hkind
    obtain ⟨read, more, htokens, rfl⟩ := split_cons_of_keepComments hsplit
    rw [stack_keepComments]
    exact h.bottom read t more htokens hkind
  · intro before t after hsplit hkind
    obtain ⟨read, more, htokens, rfl⟩ := split_cons_of_keepComments hsplit
    rw [stack_concat, stack_keepComments, ← stack_concat]
    exact h.left read t more htokens hkind
  · intro before after hsplit
    obtain ⟨read, more, htokens, rfl, -⟩ := split_of_keepComments hsplit
    rw [stack_keepComments, countP_keepComments comments read (by decide),
      countP_keepComments comments read (by decide)]
    exact h.depth read more htokens
  · obtain ⟨body, last, rfl, hlast, hbody, hall⟩ := h.closed
    refine ⟨Token.keepComments comments body, last, ?_, hlast, ?_, ?_⟩
    · rw [keepComments_append]
      cases comments with
      | true => rfl
      | false => simp [Token.keepComments, hlast]
    · rw [stack_keepComments, hbody]
    · rw [stack_keepComments, hall]

/-- The blocks of a source are balanced, and they are drained at its end.

* If a source has tokens, with or without comments, the replayed tokens are balanced.  The
  stack is that of a stream of the source behind the same tokens.
* A stream of the source that is at its end, whatever operations led there, has one
  `dedent` for every open block left, and then only the end of the stream. -/
theorem blocks_balanced_and_drained (source : Text) :
    (∀ comments tokens, tokenize source comments = .ok tokens →
      Token.Balanced tokens ∧
        ∀ tag before after, tokens = before ++ after →
          ∃ read s, Token.keepComments comments read = before ∧
            Calls Stream.next (Stream.ofSource tag source) read s ∧
            s.lexer.indents = Token.stack before) ∧
    (∀ sources w i, Session.Operations (fun _ => True) (Session.ofSources sources) w →
      sources[i]? = some source → (w.stream i).lexer.cursor.atEnd = true →
        (w.stream i).Drains (source.locationAt source.length)) := by
  constructor
  · intro comments tokens h
    obtain ⟨hfault, rfl⟩ := tokenize_eq_ok h
    obtain ⟨hcalls, body, last, htokens, hlast, -⟩ := Lexer.calls_of_scan_end hfault
    rw [htokens] at hcalls ⊢
    refine ⟨(Lexer.balanced_of_calls hcalls hlast).keepComments comments, ?_⟩
    intro tag before after hsplit
    obtain ⟨read, more, hread, rfl, -⟩ := Token.split_of_keepComments hsplit
    obtain ⟨lx, hbefore, -, hstack⟩ := Lexer.exists_calls_of_split hcalls hread
    refine ⟨read, { Stream.ofSource tag source with lexer := lx }, rfl,
      Stream.calls_of_lexer hbefore, ?_⟩
    rw [Token.stack_keepComments]
    exact hstack
  · intro sources w i hw hi hend
    exact Stream.drains_of_end (hw.at hi).now (List.isEmpty_iff.1 hend)

/-- Two blocks are open when the source ends in the middle of a line, and the comment before
it is left out. -/
theorem blocks_balanced_and_drained_unfinished_line :
    let source : Text := "a\n # b\n c\n \td"
    let all := (Lexer.ofSource source).scan.tokens
    let w := ((Session.ofSources [source]).perform 0 (.iterate (some 9))).2
    tokenize source false = .ok (Token.keepComments false all) ∧
      Token.Balanced (Token.keepComments false all) ∧
      Session.Operations (fun _ => True) (Session.ofSources [source]) w ∧
      (w.stream 0).lexer.cursor.atEnd = true ∧ (w.stream 0).lexer.depth = 3 ∧
      (w.stream 0).Drains ⟨4, 3, 13⟩ := by
  intro source all w
  have h : tokenize source false = .ok (Token.keepComments false all) := by decide +kernel
  have hw : Session.Operations (fun _ => True) (Session.ofSources [source]) w :=
    .single (.move (.act 0 trivial))
  have hend : (w.stream 0).lexer.cursor.atEnd = true := by decide +kernel
  have hdepth : (w.stream 0).lexer.depth = 3 := by decide +kernel
  obtain ⟨hbalanced, hdrains⟩ := blocks_balanced_and_drained source
  have hplace : source.locationAt source.length = ⟨4, 3, 13⟩ := by decide +kernel
  rw [← hplace]
  exact ⟨h, (hbalanced false _ h).1, hw, hend, hdepth, hdrains [source] w 0 hw rfl hend⟩

end SceneTokens
