import Mathlib.Data.List.Chain
import SceneTokens.Proofs.Blocks

/-!
# The stack of indentation runs

`Lexer.indents` are the runs of all open blocks, outermost first, with the empty run of
the top level in front.  After any operations they make an `IndentStack`: spaces and tabs,
each run a strict beginning of the next one.

The top level is never closed, so a lexer does not store its run.  `Stacked` is a lexer
that does.  It pops the last run wherever a block is closed, and in one place without
looking at the depth: when the leading run of a line is shorter than the run on top.  That
is safe because the run at the bottom is empty (`Stacked.bottom_of_shorter`), and so the
two lexers agree on everything (`Stacked.readLineStart_ofLexer`,
`Stacked.readEndOfInput_ofLexer`, `Stacked.next_ofLexer`).

Main statement: `Session.indents_stacked`.
-/

namespace SceneTokens

open CodeUnit Relation

/-- The runs of open blocks, outermost first. -/
structure IndentStack (stack : List Text) : Prop where
  /-- The first run is the empty one of the top level, so there is always a run. -/
  bottom : stack.head? = some []
  horizontal : ∀ run ∈ stack, ∀ u ∈ run, u = space ∨ u = tab
  /-- Every run is a strict beginning of the next one. -/
  chain : stack.IsChain fun outer inner => outer <+: inner ∧ outer ≠ inner

theorem Nested.indentStack {lx : Lexer} (h : Nested lx.blocks) : IndentStack lx.indents := by
  have hreverse : lx.indents = (lx.blocks ++ [[]]).reverse := by simp [Lexer.indents]
  refine ⟨rfl, ?_, ?_⟩
  · intro run hrun u hu
    rcases List.mem_cons.1 hrun with rfl | hrun
    · simp at hu
    · have hhorizontal := h.horizontal run (List.mem_reverse.1 hrun) u hu
      simpa [isHorizontal] using hhorizontal
  · rw [hreverse]
    apply List.Pairwise.isChain
    rw [List.pairwise_reverse]
    refine h.chain.imp ?_
    rintro inner outer ⟨hpre, hlt⟩
    refine ⟨hpre, ?_⟩
    rintro rfl
    omega

/-! ## A lexer with the whole stack -/

/-- A lexer that keeps the runs of all blocks, outermost first. -/
structure Stacked where
  cursor : Cursor
  stack : List Text
  deriving DecidableEq, Repr

namespace Stacked

/-- The lexer with its whole stack. -/
def ofLexer (lx : Lexer) : Stacked := ⟨lx.cursor, lx.indents⟩

/-- The run on top of the stack, and the empty run if there is none. -/
def top (k : Stacked) : Text := k.stack.getLastD []

/-- Takes off the run on top of the stack, whichever it is. -/
def pop (k : Stacked) : Stacked := { k with stack := k.stack.dropLast }

/-- Puts a run on top of the stack. -/
def push (k : Stacked) (run : Text) : Stacked := { k with stack := k.stack ++ [run] }

/-- Moves over `n` units. -/
def skip (k : Stacked) (n : Nat) : Stacked := { k with cursor := k.cursor.skip n }

/-- Pops, and marks the run that is left on top. -/
def dedent (k : Stacked) : Token × Stacked := (k.cursor.mark .dedent k.pop.top, k.pop)

/-- Compares the leading run of a filled line with the run on top.  A shorter run pops
without a look at the depth. -/
def readIndentation (k : Stacked) : Except Fault (Option Token) × Stacked :=
  let c := k.cursor
  let run := c.run isHorizontal
  let width := run.length
  if (c.rest.drop width).head? == some hash then (.ok none, k)
  else
    match run.divergence? k.top with
    | some i =>
      let span : Span := ⟨c.location, c.locationAhead width⟩
      (.error (.inconsistentIndentation span (c.locationAhead i) k.top run), k)
    | none =>
      if width < k.top.length then
        let (token, outer) := k.dedent
        (.ok (some token), outer)
      else if k.top.length < width then
        (.ok (some (c.cut .indent width)), (k.skip width).push run)
      else (.ok none, k.skip width)

/-- Handles the start of a filled line. -/
def readFilledLine (k : Stacked) : Except Fault (Option Token) × Stacked :=
  if (k.cursor.rest.head?.any fun u => !isHorizontal u) && decide (1 < k.stack.length) then
    let (token, outer) := k.dedent
    (.ok (some token), outer)
  else k.readIndentation

/-- Handles the start of a line. -/
def readLineStart (k : Stacked) : Except Fault (Option Token) × Stacked :=
  match LineShape.of k.cursor.rest with
  | .blank width => (.ok (some (k.cursor.cut .newline width)), k.skip width)
  | .trailing width => (.ok none, k.skip width)
  | .filled => k.readFilledLine

/-- Closes the innermost block, or marks the end. -/
def readEndOfInput (k : Stacked) : Token × Stacked :=
  if 1 < k.stack.length then k.dedent else (k.cursor.mark .endOfStream [], k)

/-- Reads a token inside a line. -/
def readInLine (k : Stacked) : Except Fault Token × Stacked :=
  let inner : Stacked := { k with cursor := k.cursor.skipWhile isHorizontal }
  match inner.cursor.rest with
  | [] =>
    let (token, after) := inner.readEndOfInput
    (.ok token, after)
  | u :: _ =>
    let (outcome, after) := inner.cursor.readLexeme u
    (outcome, { inner with cursor := after })

/-- Reads the next token. -/
def next (k : Stacked) : Except Fault Token × Stacked :=
  if k.cursor.column == 0 && !k.cursor.atEnd then
    match k.readLineStart with
    | (.ok none, inner) => inner.readInLine
    | (.ok (some token), after) => (.ok token, after)
    | (.error fault, after) => (.error fault, after)
  else k.readInLine

/-! ## The two lexers agree -/

@[simp]
theorem cursor_ofLexer (lx : Lexer) : (ofLexer lx).cursor = lx.cursor := rfl

theorem stack_ofLexer_of_cons {lx : Lexer} {b : Text} {more : List Text}
    (h : lx.blocks = b :: more) : (ofLexer lx).stack = ([] :: more.reverse) ++ [b] := by
  simp [ofLexer, Lexer.indents, h]

@[simp]
theorem top_ofLexer (lx : Lexer) : (ofLexer lx).top = lx.indent := by
  unfold top Lexer.indent
  cases hblocks : lx.blocks with
  | nil => simp [ofLexer, Lexer.indents, hblocks]
  | cons b more =>
    rw [stack_ofLexer_of_cons hblocks, List.getLastD_concat]
    rfl

theorem one_lt_length_ofLexer (lx : Lexer) : 1 < (ofLexer lx).stack.length ↔ lx.blocks ≠ [] := by
  have hlength : (ofLexer lx).stack.length = lx.blocks.length + 1 := by
    simp [ofLexer, Lexer.indents]
  rw [hlength, ← List.length_pos_iff]
  omega

/-- With a block to close, popping leaves the bottom of the stack. -/
theorem pop_ofLexer {lx : Lexer} (h : lx.blocks ≠ []) :
    (ofLexer lx).pop = ofLexer lx.closeBlock := by
  obtain ⟨b, more, hblocks⟩ := List.exists_cons_of_ne_nil h
  unfold pop
  rw [stack_ofLexer_of_cons hblocks, List.dropLast_concat]
  simp [ofLexer, Lexer.indents, Lexer.closeBlock, hblocks]

theorem dedent_ofLexer {lx : Lexer} (h : lx.blocks ≠ []) :
    (ofLexer lx).dedent = (lx.dedent.1, ofLexer lx.dedent.2) := by
  unfold dedent
  rw [pop_ofLexer h, top_ofLexer]
  rfl

theorem push_ofLexer (lx : Lexer) (run : Text) :
    (ofLexer lx).push run = ofLexer (lx.openBlock run) := by
  simp [push, ofLexer, Lexer.indents, Lexer.openBlock]

theorem skip_ofLexer (lx : Lexer) (n : Nat) : (ofLexer lx).skip n = ofLexer (lx.skip n) := rfl

/-- A run on top that is longer than anything is not the one at the bottom. -/
theorem bottom_of_shorter {lx : Lexer} {n : Nat} (h : n < (ofLexer lx).top.length) :
    1 < (ofLexer lx).stack.length ∧ (ofLexer lx).pop.stack.head? = some [] := by
  rw [top_ofLexer] at h
  have hblocks := Lexer.blocks_ne_nil_of_lt_indent h
  refine ⟨(one_lt_length_ofLexer lx).2 hblocks, ?_⟩
  rw [pop_ofLexer hblocks]
  rfl

theorem readIndentation_ofLexer (lx : Lexer) :
    (ofLexer lx).readIndentation = (lx.readIndentation.1, ofLexer lx.readIndentation.2) := by
  unfold readIndentation Lexer.readIndentation
  simp only [cursor_ofLexer, top_ofLexer]
  by_cases hhash :
      ((lx.cursor.rest.drop (lx.cursor.run isHorizontal).length).head? == some hash) = true
  · rw [if_pos hhash, if_pos hhash]
  rw [if_neg hhash, if_neg hhash]
  cases Text.divergence? (lx.cursor.run isHorizontal) lx.indent with
  | some i => rfl
  | none =>
    dsimp only
    by_cases hshorter : (lx.cursor.run isHorizontal).length < lx.indent.length
    · rw [if_pos hshorter, if_pos hshorter]
      rw [dedent_ofLexer (Lexer.blocks_ne_nil_of_lt_indent hshorter)]
    rw [if_neg hshorter, if_neg hshorter]
    by_cases hlonger : lx.indent.length < (lx.cursor.run isHorizontal).length
    · rw [if_pos hlonger, if_pos hlonger, skip_ofLexer, push_ofLexer]
    · rw [if_neg hlonger, if_neg hlonger, skip_ofLexer]

theorem readFilledLine_ofLexer (lx : Lexer) :
    (ofLexer lx).readFilledLine = (lx.readFilledLine.1, ofLexer lx.readFilledLine.2) := by
  have hguard : decide (1 < (ofLexer lx).stack.length) = !lx.blocks.isEmpty := by
    have hdepth := one_lt_length_ofLexer lx
    cases hblocks : lx.blocks with
    | nil => simpa [hblocks] using hdepth
    | cons b more => simpa [hblocks] using hdepth
  unfold readFilledLine Lexer.readFilledLine
  rw [hguard, cursor_ofLexer]
  by_cases hclose :
      ((lx.cursor.rest.head?.any fun u => !isHorizontal u) && !lx.blocks.isEmpty) = true
  · have hblocks : lx.blocks ≠ [] := by
      rw [Bool.and_eq_true] at hclose
      simpa using hclose.2
    rw [if_pos hclose, if_pos hclose, dedent_ofLexer hblocks]
  · rw [if_neg hclose, if_neg hclose]
    exact readIndentation_ofLexer lx

theorem readLineStart_ofLexer (lx : Lexer) :
    (ofLexer lx).readLineStart = (lx.readLineStart.1, ofLexer lx.readLineStart.2) := by
  unfold readLineStart Lexer.readLineStart
  rw [cursor_ofLexer]
  cases LineShape.of lx.cursor.rest with
  | blank w => rfl
  | trailing w => rfl
  | filled => exact readFilledLine_ofLexer lx

theorem readEndOfInput_ofLexer (lx : Lexer) :
    (ofLexer lx).readEndOfInput = (lx.readEndOfInput.1, ofLexer lx.readEndOfInput.2) := by
  unfold readEndOfInput Lexer.readEndOfInput
  by_cases hblocks : lx.blocks = []
  · rw [if_neg (fun h => (one_lt_length_ofLexer lx).1 h hblocks), if_pos (by simp [hblocks])]
    rfl
  · rw [if_pos ((one_lt_length_ofLexer lx).2 hblocks), if_neg (by simpa using hblocks)]
    exact dedent_ofLexer hblocks

theorem readInLine_ofLexer (lx : Lexer) :
    (ofLexer lx).readInLine = (lx.readInLine.1, ofLexer lx.readInLine.2) := by
  have hend := readEndOfInput_ofLexer { lx with cursor := lx.cursor.skipWhile isHorizontal }
  unfold readInLine Lexer.readInLine
  dsimp only [cursor_ofLexer]
  cases (lx.cursor.skipWhile isHorizontal).rest with
  | nil =>
    dsimp only
    have hinner : ({ ofLexer lx with cursor := lx.cursor.skipWhile isHorizontal } : Stacked) =
        ofLexer { lx with cursor := lx.cursor.skipWhile isHorizontal } := rfl
    rw [hinner, hend]
  | cons u more => rfl

theorem next_ofLexer (lx : Lexer) :
    (ofLexer lx).next = (lx.next.1, ofLexer lx.next.2) := by
  unfold next Lexer.next
  rw [cursor_ofLexer, readLineStart_ofLexer]
  by_cases hstart : (lx.cursor.column == 0 && !lx.cursor.atEnd) = true
  · rw [if_pos hstart, if_pos hstart]
    rcases lx.readLineStart with ⟨fault | _ | token, after⟩
    · rfl
    · exact readInLine_ofLexer after
    · rfl
  · rw [if_neg hstart, if_neg hstart]
    exact readInLine_ofLexer lx

end Stacked

/-! ## After any operations -/

namespace Session

theorem Operations.nested {sources : List Text} {w : Session}
    (h : Operations Action.IsOperation (ofSources sources) w) (i : Nat) :
    (w.stream i).NestedBlocks := by
  obtain ⟨tag, source, hstart⟩ := stream_ofSources sources i
  have hnested := Stream.nestedBlocks_ofSource tag source
  rw [← hstart] at hnested
  exact hnested.moves (h.stream i)

/-- After any operations on the streams of some sources, the runs of the open blocks are an
`IndentStack`, and so are those of every state that a stream can be taken back to.

To keep the runs on one stack and to pop them one by one comes to the same, whatever is
read next.  In particular, a leading run that is shorter than the run on top never takes
off the bottom. -/
theorem indents_stacked {sources : List Text} {w : Session}
    (hw : Operations Action.IsOperation (ofSources sources) w) (i : Nat) :
    let lx := (w.stream i).lexer
    let k := Stacked.ofLexer lx
    IndentStack lx.indents ∧
    (∀ x ∈ (w.stream i).snapshots, IndentStack x.saved.indents) ∧
    k.readLineStart = (lx.readLineStart.1, .ofLexer lx.readLineStart.2) ∧
    k.readEndOfInput = (lx.readEndOfInput.1, .ofLexer lx.readEndOfInput.2) ∧
    k.next = (lx.next.1, .ofLexer lx.next.2) ∧
    (lx.leading.length < k.top.length →
      1 < k.stack.length ∧ k.pop.stack.head? = some []) := by
  intro lx k
  have hnested := hw.nested i
  refine ⟨hnested.now.indentStack, ?_, Stacked.readLineStart_ofLexer lx,
    Stacked.readEndOfInput_ofLexer lx, Stacked.next_ofLexer lx, ?_⟩
  · intro x hx
    exact (hnested.saved x hx).indentStack
  · intro hlt
    exact Stacked.bottom_of_shorter hlt

/-- A snapshot is taken inside one block, and inside another one the stream comes to a line
that belongs to the outer of the two. -/
theorem indents_stacked_shorter_run :
    let source : Text :=
      [0x61, 0x0A, 0x20, 0x62, 0x0A, 0x20, 0x09, 0x63, 0x0A, 0x20, 0x64]
    let inside := ((ofSources [source]).perform 0 (.iterate (some 4))).2
    let w := ((inside.perform 0 (.capture [0x6F])).2.perform 0 (.iterate (some 4))).2
    let lx := (w.stream 0).lexer
    let k := Stacked.ofLexer lx
    Operations Action.IsOperation (ofSources [source]) w ∧
      lx.indents = [[], [0x20], [0x20, 0x09]] ∧ lx.leading = [0x20] ∧
      (w.stream 0).snapshots.map (·.saved.indents) = [[[], [0x20]]] ∧
      IndentStack lx.indents ∧ (∀ x ∈ (w.stream 0).snapshots, IndentStack x.saved.indents) ∧
      1 < k.stack.length ∧ k.pop.stack.head? = some [] := by
  intro source inside w lx k
  have hinside : Operation Action.IsOperation (ofSources [source]) inside := .move (.act 0 trivial)
  have hcapture : Operation Action.IsOperation inside (inside.perform 0 (.capture [0x6F])).2 :=
    .move (.act 0 trivial)
  have hw : Operations Action.IsOperation (ofSources [source]) w :=
    ((ReflTransGen.single hinside).tail hcapture).tail (.move (.act 0 trivial))
  have hshorter : lx.leading.length < k.top.length := by decide +kernel
  obtain ⟨hnow, hsaved, -, -, -, hbottom⟩ := indents_stacked hw 0
  exact ⟨hw, by decide +kernel, by decide +kernel, by decide +kernel, hnow, hsaved,
    hbottom hshorter⟩

end Session

end SceneTokens
