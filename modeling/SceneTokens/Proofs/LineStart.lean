import SceneTokens.Proofs.Blocks

/-!
# The start of a line

A filled line is compared with the open blocks one block at a time, by as many steps as
it closes blocks and one more.  This module says what these steps amount to, in terms of
the leading run of the line and all blocks that are open when the line is reached.

* `calls_dedents`: one token for each block with a longer run, innermost first.
* `next_opening` and `next_staying`: the step behind them opens a block or reads on.
* `line_lt_of_later_fault`: behind a first step there is no fault of indentation on the
  same line, because the run agrees with all blocks once it agrees with one of them.

Main statement: `Stream.line_structure`.
-/

namespace SceneTokens

open CodeUnit

namespace Lexer

/-! ## What a line closes -/

/-- The blocks that the line at the cursor closes, innermost first. -/
def longer (lx : Lexer) : List Text := lx.blocks.filter (lx.leading.length < ·.length)

/-- The blocks that stay open on the line at the cursor. -/
def kept (lx : Lexer) : List Text := lx.blocks.filter (·.length ≤ lx.leading.length)

/-- The state in which the `n` innermost blocks are closed. -/
def closeBlocks (lx : Lexer) (n : Nat) : Lexer := { lx with blocks := lx.blocks.drop n }

/-- The token that closes one block more than `n`: it has no width, and its value is the
run that is left innermost. -/
def dedentAt (lx : Lexer) (n : Nat) : Token :=
  lx.cursor.mark .dedent ((lx.blocks.drop (n + 1)).headD [])

theorem dedent_closeBlocks (lx : Lexer) (n : Nat) :
    (lx.closeBlocks n).dedent = (lx.dedentAt n, lx.closeBlocks (n + 1)) := by
  have htail : (lx.closeBlocks n).closeBlock = lx.closeBlocks (n + 1) := by
    simp only [closeBlocks, closeBlock, List.tail_drop]
  unfold dedent
  rw [htail]
  rfl

theorem drop_longer_eq_kept {lx : Lexer} (h : Nested lx.blocks) :
    lx.blocks.drop lx.longer.length = lx.kept :=
  h.drop_longer lx.leading.length

theorem closeBlocks_longer {lx : Lexer} (h : Nested lx.blocks) :
    lx.closeBlocks lx.longer.length = { lx with blocks := lx.kept } := by
  rw [closeBlocks, drop_longer_eq_kept h]

theorem length_le_of_mem_kept {lx : Lexer} {run : Text} (h : run ∈ lx.kept) :
    run.length ≤ lx.leading.length :=
  of_decide_eq_true (List.mem_filter.1 h).2

section FilledLine

variable {lx : Lexer} (hnested : Nested lx.blocks) (hcolumn : lx.cursor.column = 0)
  (hfilled : LineShape.of lx.cursor.rest = .filled)

include hnested

/-- Once the longer blocks are closed, the run continues the innermost one. -/
theorem kept_prefix (hagrees : lx.leading.Agrees lx.indent) : lx.kept.headD [] <+: lx.leading := by
  have hdrop := hnested.agrees_drop hagrees lx.longer.length
  rw [drop_longer_eq_kept hnested] at hdrop
  rcases hdrop with hinside | hbeyond
  · have hle : (lx.kept.headD []).length ≤ lx.leading.length := by
      cases hblocks : lx.kept with
      | nil => exact Nat.zero_le _
      | cons b more =>
        have hmem : b ∈ lx.kept := hblocks ▸ List.mem_cons_self
        exact length_le_of_mem_kept hmem
    have heq := hinside.eq_of_length (Nat.le_antisymm hinside.length_le hle)
    exact heq ▸ List.prefix_rfl
  · exact hbeyond

/-- A line without a leading run keeps the top level only. -/
theorem kept_eq_nil (h : lx.leading = []) : lx.kept = [] := by
  cases hblocks : lx.kept with
  | nil => rfl
  | cons b more =>
    have hle : b.length ≤ lx.leading.length :=
      length_le_of_mem_kept (hblocks ▸ List.mem_cons_self)
    have hne : b ≠ [] := by
      have hdrop := hnested.drop lx.longer.length
      rw [drop_longer_eq_kept hnested, hblocks] at hdrop
      exact hdrop.ne_nil
    rw [h, List.length_nil, Nat.le_zero, List.length_eq_zero_iff] at hle
    exact absurd hle hne

include hcolumn hfilled

/-- The step that closes one block more, as long as there is a longer one. -/
theorem next_closeBlocks (hhash : lx.leading = [] ∨ lx.behind.head? ≠ some hash)
    (hagrees : lx.leading.Agrees lx.indent) {n : Nat} (hn : n < lx.longer.length) :
    (lx.closeBlocks n).next = (.ok (lx.dedentAt n), lx.closeBlocks (n + 1)) := by
  have hlt : lx.leading.length < (lx.closeBlocks n).indent.length := hnested.lt_headD_drop hn
  have hpre : lx.leading <+: (lx.closeBlocks n).indent := by
    refine (hnested.agrees_drop hagrees n).resolve_right fun hbeyond => ?_
    exact Nat.not_le.2 hlt hbeyond.length_le
  have hblocks : (lx.closeBlocks n).blocks ≠ [] := blocks_ne_nil_of_lt_indent hlt
  have hclose : (lx.closeBlocks n).next = _ :=
    next_of_close hcolumn hfilled hblocks hhash hpre (.inr hlt)
  rw [hclose, dedent_closeBlocks]

/-- One step for each longer block, up to any number of them; the cursor stays. -/
theorem calls_dedents (hhash : lx.leading = [] ∨ lx.behind.head? ≠ some hash)
    (hagrees : lx.leading.Agrees lx.indent) (n : Nat) (hn : n ≤ lx.longer.length) :
    Calls Lexer.next lx ((List.range n).map lx.dedentAt) (lx.closeBlocks n) := by
  induction n with
  | zero => exact .nil lx
  | succ n ih =>
    rw [List.range_succ, List.map_append]
    exact (ih (Nat.le_of_succ_le hn)).snoc
      (next_closeBlocks hnested hcolumn hfilled hhash hagrees hn)

/-! ## What a line opens -/

/-- A run that is longer than the blocks kept opens one more. -/
theorem next_opening (hhash : lx.behind.head? ≠ some hash) (hagrees : lx.leading.Agrees lx.indent)
    (hlt : (lx.kept.headD []).length < lx.leading.length) :
    (lx.closeBlocks lx.longer.length).next =
      (.ok (lx.cursor.cut .indent lx.leading.length),
        ⟨lx.cursor.skip lx.leading.length, lx.leading :: lx.kept⟩) := by
  rw [closeBlocks_longer hnested]
  have hpre := kept_prefix hnested hagrees
  exact @next_of_open { lx with blocks := lx.kept } hcolumn hfilled hhash hpre hlt

omit hfilled hnested in
/-- Behind the run of a line with an open block the line is read. -/
theorem next_behind {u : CodeUnit} {more : Text} (hbehind : lx.behind = u :: more)
    (hne : lx.leading ≠ []) (blocks : List Text) :
    (⟨lx.cursor.skip lx.leading.length, blocks⟩ : Lexer).next =
      (⟨lx.cursor.skip lx.leading.length, blocks⟩ : Lexer).onCursor (·.readLexeme u) := by
  have hfeed : lineFeed ∉ lx.cursor.rest.take lx.leading.length := by
    rw [← leading_append_behind, List.take_left]
    intro hmem
    exact absurd (isHorizontal_of_mem_leading hmem) (by decide)
  have hmoved : (lx.cursor.skip lx.leading.length).column ≠ 0 := by
    rw [(Cursor.line_column_skip_of_notMem lx.length_leading_le hfeed).2, hcolumn, Nat.zero_add]
    exact fun hzero => hne (List.length_eq_zero_iff.1 hzero)
  have hahead : (⟨lx.cursor.skip lx.leading.length, blocks⟩ : Lexer).behind = u :: more :=
    lx.behind_skip_leading.trans hbehind
  have hnone : (⟨lx.cursor.skip lx.leading.length, blocks⟩ : Lexer).leading = [] :=
    lx.leading_skip_leading
  rw [next_of_column_ne_zero hmoved, readInLine_of_behind hahead, hnone]
  rfl

/-- A run that is not longer is equal to the innermost block kept, and the line is read. -/
theorem next_staying {u : CodeUnit} {more : Text} (hbehind : lx.behind = u :: more)
    (hagrees : lx.leading.Agrees lx.indent)
    (hle : lx.leading.length ≤ (lx.kept.headD []).length) :
    (lx.closeBlocks lx.longer.length).next =
      (⟨lx.cursor.skip lx.leading.length, lx.kept⟩ : Lexer).onCursor (·.readLexeme u) := by
  rw [closeBlocks_longer hnested]
  have hpre := kept_prefix hnested hagrees
  have heq : lx.leading = lx.kept.headD [] :=
    (hpre.eq_of_length (Nat.le_antisymm hpre.length_le hle)).symm
  exact @next_of_stay { lx with blocks := lx.kept } hcolumn hfilled u more hbehind
    (kept_eq_nil hnested) (.inr heq)

end FilledLine

/-! ## Behind the first step -/

/-- `after` is `n` units ahead of `lx`.  If that is no unit at all, the leading run is
settled: it agrees with the innermost block. -/
structure Ahead (lx after : Lexer) (n : Nat) : Prop where
  le : n ≤ lx.cursor.rest.length
  cursor : after.cursor = lx.cursor.skip n
  settled : n = 0 → after.leading.Agrees after.indent

theorem ahead_of_pos {lx after : Lexer} {n : Nat} (hpos : 0 < n) (hle : n ≤ lx.cursor.rest.length)
    (hcursor : after.cursor = lx.cursor.skip n) : Ahead lx after n :=
  ⟨hle, hcursor, fun hzero => absurd hzero (Nat.ne_of_gt hpos)⟩

theorem agrees_of_leading_nil {lx : Lexer} (h : lx.leading = []) : lx.leading.Agrees lx.indent :=
  .inl (h ▸ List.nil_prefix)

/-- A step that succeeds moves on, or settles the leading run. -/
theorem ahead_of_next {lx after : Lexer} {token : Token} (hnested : Nested lx.blocks)
    (h : lx.next = (.ok token, after)) : ∃ n, Ahead lx after n := by
  have hout := outcome_of_next h
  generalize hr : (Except.ok token : Except Fault Token) = r at hout
  cases hout with
  | blank hcolumn hshape =>
    obtain ⟨gap, more, hrest, -, hw⟩ := LineShape.exists_of_blank hshape
    exact ⟨_, ahead_of_pos (by omega) (by simp [hrest, hw]) rfl⟩
  | closing hcolumn hshape hblocks hhash hrun hlt =>
    -- The cursor stays.  The run agrees with the block just closed, so with the next one too.
    refine ⟨0, Nat.zero_le _, rfl, fun _ => ?_⟩
    have hsettled := hnested.agrees_drop (.inl hrun) 1
    rw [List.drop_one] at hsettled
    exact hsettled
  | opening hcolumn hshape hhash hrun hlt =>
    exact ⟨_, ahead_of_pos (Nat.zero_lt_of_lt hlt) lx.length_leading_le rfl⟩
  | divergence => cases hr
  | ending hgap =>
    obtain ⟨kind, value, -, hcursor, -⟩ :=
      (lx.skip lx.cursor.rest.length).readEndOfInput_eq_mark
    refine ⟨_, Nat.le_refl _, hcursor, fun _ => agrees_of_leading_nil ?_⟩
    simp [leading, hcursor, Cursor.run]
  | @lexeme u more hbehind hstay =>
    obtain ⟨n, htakes⟩ := (lx.cursor.skip lx.leading.length).takes_readLexeme u
    have hlead := lx.length_leading_le
    have hle := htakes.le
    rw [Cursor.rest_skip, List.length_drop] at hle
    have hcursor : ((lx.cursor.skip lx.leading.length).readLexeme u).2 =
        lx.cursor.skip (lx.leading.length + n) := by
      rw [htakes.after, Cursor.skip_add]
    refine ⟨lx.leading.length + n, by omega, hcursor, fun hzero => agrees_of_leading_nil ?_⟩
    have hnil : lx.leading = [] := List.length_eq_zero_iff.1 (by omega)
    rw [leading, hcursor, hzero]
    exact hnil

theorem ahead_of_calls {lx after : Lexer} {tokens : List Token} (hnested : Nested lx.blocks)
    (h : Calls Lexer.next lx tokens after) (hne : tokens ≠ []) : ∃ n, Ahead lx after n := by
  induction h with
  | nil => exact absurd rfl hne
  | @cons lx mid after token rest hstep hrest ih =>
    obtain ⟨m, hfirst⟩ := ahead_of_next hnested hstep
    have hmoves := lx.moves_next
    rw [hstep] at hmoves
    cases hrest with
    | nil => exact ⟨m, hfirst⟩
    | cons hnext hlater =>
      obtain ⟨n, hmore⟩ := ih (hmoves.nested hnested) (List.cons_ne_nil _ _)
      have hle := hmore.le
      rw [hfirst.cursor, Cursor.rest_skip, List.length_drop] at hle
      have hlefirst := hfirst.le
      refine ⟨m + n, by omega, ?_, fun hzero => hmore.settled (by omega)⟩
      rw [hmore.cursor, hfirst.cursor, Cursor.skip_add]

/-- The one step that finds a fault of indentation. -/
theorem divergence_of_fault {lx after : Lexer} {fault : Fault} (h : lx.next = (.error fault, after))
    (hcode : fault.code = .inconsistentIndentation) :
    lx.cursor.column = 0 ∧ ¬lx.leading.Agrees lx.indent ∧
      fault.location.line = lx.cursor.line := by
  have hout := outcome_of_next h
  generalize hr : (Except.error fault : Except Fault Token) = r at hout
  cases hout with
  | divergence hcolumn hshape hhash hdiv =>
    cases hr
    refine ⟨hcolumn, fun hagrees => ?_, rfl⟩
    rw [Text.divergence?_eq_none_iff.2 hagrees] at hdiv
    cases hdiv
  | @lexeme u more hbehind hstay =>
    obtain ⟨n, htakes⟩ := (lx.cursor.skip lx.leading.length).takes_readLexeme u
    exact absurd hcode (htakes.fault fault hr.symm)
  | blank | closing | opening | ending => cases hr

/-- Behind a first step, a fault of indentation is on a later line. -/
theorem line_lt_of_later_fault {lx after final : Lexer} {tokens : List Token} {fault : Fault}
    (hnested : Nested lx.blocks) (hcalls : Calls Lexer.next lx tokens after) (hne : tokens ≠ [])
    (hfault : after.next = (.error fault, final)) (hcode : fault.code = .inconsistentIndentation) :
    (lx.cursor.line : Int) < fault.location.line := by
  obtain ⟨hcolumn, hdiv, hline⟩ := divergence_of_fault hfault hcode
  obtain ⟨n, hahead⟩ := ahead_of_calls hnested hcalls hne
  have hpos : 0 < n := Nat.pos_of_ne_zero fun hzero => hdiv (hahead.settled hzero)
  rw [hahead.cursor] at hcolumn hline
  have hlt := Cursor.line_lt_line_skip hpos hahead.le hcolumn
  rw [hline]
  exact Int.ofNat_lt.2 hlt

/-- A comment behind a run is read at once, whatever the run is. -/
theorem next_comment {lx : Lexer} {more : Text} (hcolumn : lx.cursor.column = 0)
    (hfilled : LineShape.of lx.cursor.rest = .filled) (hbehind : lx.behind = hash :: more)
    (hne : lx.leading ≠ []) :
    lx.next = (lx.skip lx.leading.length).onCursor Cursor.readComment := by
  rw [next_of_stay hcolumn hfilled hbehind (fun hnil => absurd hnil hne) (.inl rfl)]
  rfl

end Lexer

/-! ## Streams -/

namespace Stream

theorem calls_of_lexer {s : Stream} {tokens : List Token} {after : Lexer}
    (h : Calls Lexer.next s.lexer tokens after) :
    Calls Stream.next s tokens { s with lexer := after } := by
  generalize hlexer : s.lexer = lx at h
  induction h generalizing s with
  | nil lx =>
    subst hlexer
    exact .nil s
  | @cons lx mid after token rest hstep hrest ih =>
    subst hlexer
    have hnext : s.next = (.ok token, { s with lexer := mid }) := by rw [next_eq, hstep]
    have hmid : ({ s with lexer := mid } : Stream).lexer = mid := rfl
    exact .cons hnext (ih hmid)

theorem lexer_calls {s after : Stream} {tokens : List Token}
    (h : Calls Stream.next s tokens after) : Calls Lexer.next s.lexer tokens after.lexer := by
  induction h with
  | nil s => exact .nil s.lexer
  | @cons s mid after token rest hstep hrest ih =>
    rw [next_eq] at hstep
    refine .cons ?_ ih
    rw [← (Prod.mk.inj hstep).1, ← (Prod.mk.inj hstep).2]

/-- What the steps at the start of a filled line do, where the leading run agrees with the
innermost block and `c` stands behind it. -/
structure Settles (s : Stream) (c : CodeUnit) : Prop where
  /-- One token closes each block with a longer run, innermost first.  Nothing else
  changes, and the cursor stays at the start of the line. -/
  dedents : ∀ n ≤ s.lexer.longer.length,
    Calls Stream.next s ((List.range n).map s.lexer.dedentAt)
      { s with lexer := s.lexer.closeBlocks n }
  /-- The other blocks are left then. -/
  remaining : s.lexer.closeBlocks s.lexer.longer.length = { s.lexer with blocks := s.lexer.kept }
  /-- A longer run opens a block, and the line is read behind it. -/
  opens : (s.lexer.kept.headD []).length < s.lexer.leading.length →
    let closed : Stream := { s with lexer := s.lexer.closeBlocks s.lexer.longer.length }
    let behind := s.lexer.cursor.skip s.lexer.leading.length
    let opened : Stream := { s with lexer := ⟨behind, s.lexer.leading :: s.lexer.kept⟩ }
    closed.next =
        (.ok ⟨.indent, s.lexer.leading, ⟨s.lexer.cursor.location, behind.location⟩⟩, opened) ∧
      opened.next = opened.onLexer (·.onCursor (·.readLexeme c))
  /-- Otherwise the line is read behind the run at once, and no structure comes first. -/
  stays : s.lexer.leading.length ≤ (s.lexer.kept.headD []).length →
    let closed : Stream := { s with lexer := s.lexer.closeBlocks s.lexer.longer.length }
    let behind := s.lexer.cursor.skip s.lexer.leading.length
    let passed : Stream := { s with lexer := ⟨behind, s.lexer.kept⟩ }
    closed.next = passed.onLexer (·.onCursor (·.readLexeme c)) ∧
      ∀ token, closed.next.1 = .ok token → token.kind.isLexeme = true

theorem settles_of_agrees {s : Stream} {c : CodeUnit} {more : Text}
    (hnested : Nested s.lexer.blocks) (hcolumn : s.lexer.cursor.column = 0)
    (hfilled : LineShape.of s.lexer.cursor.rest = .filled) (hbehind : s.lexer.behind = c :: more)
    (hhash : s.lexer.leading = [] ∨ c ≠ hash) (hagrees : s.lexer.leading.Agrees s.lexer.indent) :
    s.Settles c := by
  have hhead : s.lexer.leading = [] ∨ s.lexer.behind.head? ≠ some hash := by
    rw [hbehind]
    exact hhash.imp_right fun hne h => hne (Option.some.inj h)
  refine ⟨?_, Lexer.closeBlocks_longer hnested, ?_, ?_⟩
  · intro n hn
    exact calls_of_lexer (Lexer.calls_dedents hnested hcolumn hfilled hhead hagrees n hn)
  · intro hlt
    have hne : s.lexer.leading ≠ [] := List.ne_nil_of_length_pos (Nat.zero_lt_of_lt hlt)
    have hopen := Lexer.next_opening hnested hcolumn hfilled (hhead.resolve_left hne) hagrees hlt
    have hcut : s.lexer.cursor.cut .indent s.lexer.leading.length =
        ⟨.indent, s.lexer.leading, ⟨s.lexer.cursor.location,
          (s.lexer.cursor.skip s.lexer.leading.length).location⟩⟩ := by
      rw [Cursor.cut, ← s.lexer.leading_append_behind, List.take_left]
    constructor
    · rw [next_eq, hopen, hcut]
    · exact congrArg (fun step : Step Token => (step.1, ({ s with lexer := step.2 } : Stream)))
        (Lexer.next_behind hcolumn hbehind hne (s.lexer.leading :: s.lexer.kept))
  · intro hle
    have hstay := Lexer.next_staying hnested hcolumn hfilled hbehind hagrees hle
    obtain ⟨n, htakes⟩ := (s.lexer.cursor.skip s.lexer.leading.length).takes_readLexeme c
    constructor
    · rw [next_eq, hstay]
      rfl
    · intro token htoken
      rw [next_eq, hstay] at htoken
      obtain ⟨kind, hkind, rfl⟩ := htakes.token token htoken
      exact hkind

/-- The structure of a filled line, at any state that the operations lead to.

* A comment behind a run of spaces and tabs is read, and no block is opened or closed.
* Otherwise, a run that disagrees with the innermost block is a fault, and nothing changes.
* Otherwise the blocks with longer runs are closed one by one, and then one block is
  opened if the run is longer than what is left; `Settles` has the details.

In no case is there a fault of indentation on the line behind a first token of it. -/
theorem line_structure {w : Session} (hw : w.Reachable Action.IsOperation) (i : Nat)
    (hcolumn : (w.stream i).lexer.cursor.column = 0)
    (hline : ∃ u ∈ (w.stream i).lexer.cursor.rest.takeWhile (· != lineFeed), isSpace u = false) :
    let s := w.stream i
    let run := s.lexer.leading
    ∃ c more, s.lexer.behind = c :: more ∧
      (run ≠ [] → c = hash →
        let start := s.lexer.cursor.skip run.length
        let width := (start.run (!isLineTerminator ·)).length
        s.next =
          (.ok (start.cut .comment width),
            { s with lexer := { s.lexer with cursor := start.skip width } })) ∧
      (run = [] ∨ c ≠ hash → ¬run.Agrees s.lexer.indent →
        ∃ k, Text.divergence? run s.lexer.indent = some k ∧
          s.next =
            (.error (.inconsistentIndentation
              ⟨s.lexer.cursor.location, s.lexer.cursor.locationAhead run.length⟩
              (s.lexer.cursor.locationAhead k) s.lexer.indent run), s)) ∧
      (run = [] ∨ c ≠ hash → run.Agrees s.lexer.indent → s.Settles c) ∧
      (∀ tokens after fault final, Calls Stream.next s tokens after → tokens ≠ [] →
        after.next = (.error fault, final) → fault.code = .inconsistentIndentation →
          (s.lexer.cursor.line : Int) < fault.location.line) := by
  intro s run
  have hnested : Nested s.lexer.blocks := (hw.nested i).now
  have hfilled : LineShape.of s.lexer.cursor.rest = .filled := LineShape.of_eq_filled_iff.2 hline
  obtain ⟨c, more, hbehind⟩ := Lexer.behind_ne_nil_of_filled hfilled
  refine ⟨c, more, hbehind, ?_, ?_, ?_, ?_⟩
  · rintro hne rfl
    rw [next_eq, Lexer.next_comment hcolumn hfilled hbehind hne]
    rfl
  · intro hhash hdiffers
    have hne : run ≠ [] := fun hnil => hdiffers (Lexer.agrees_of_leading_nil hnil)
    have hhead : s.lexer.behind.head? ≠ some hash := by
      rw [hbehind]
      exact fun h => hhash.resolve_left hne (Option.some.inj h)
    cases hdiv : Text.divergence? run s.lexer.indent with
    | none => exact absurd (Text.divergence?_eq_none_iff.1 hdiv) hdiffers
    | some k => exact ⟨k, rfl, by rw [next_eq, Lexer.next_of_diverge hcolumn hfilled hhead hdiv]⟩
  · intro hhash hagrees
    exact settles_of_agrees hnested hcolumn hfilled hbehind hhash hagrees
  · intro tokens after fault final hcalls hne hfault hcode
    rw [next_eq] at hfault
    have hstep : after.lexer.next = (.error fault, after.lexer.next.2) :=
      Prod.ext (Prod.mk.inj hfault).1 rfl
    exact Lexer.line_lt_of_later_fault hnested (lexer_calls hcalls) hne hstep hcode

/-- Two blocks are open, with the runs of a space and of a space and two tabs, and a line
with a space and one tab is reached: it closes the inner block and opens another one. -/
theorem line_structure_close_and_open :
    let source : Text :=
      [0x61, 0x0A, 0x20, 0x62, 0x0A, 0x20, 0x09, 0x09, 0x63, 0x0A, 0x20, 0x09, 0x64]
    let w := ((Session.ofSources [source]).perform 0 (.iterate (some 8))).2
    w.Reachable Action.IsOperation ∧
      (w.stream 0).lexer.cursor.column = 0 ∧
      (∃ u ∈ (w.stream 0).lexer.cursor.rest.takeWhile (· != lineFeed), isSpace u = false) ∧
      (w.stream 0).lexer.longer = [[0x20, 0x09, 0x09]] ∧
      (w.stream 0).lexer.kept = [[0x20]] ∧
      (w.stream 0).Settles 0x64 := by
  intro source w
  have hw : w.Reachable Action.IsOperation := ⟨_, .single (.act 0 trivial)⟩
  have hcolumn : (w.stream 0).lexer.cursor.column = 0 := by decide +kernel
  have hline : ∃ u ∈ (w.stream 0).lexer.cursor.rest.takeWhile (· != lineFeed),
      isSpace u = false := by decide +kernel
  have hagrees : (w.stream 0).lexer.leading <+: (w.stream 0).lexer.indent := by decide +kernel
  obtain ⟨c, more, hbehind, -, -, hsettles, -⟩ := line_structure hw 0 hcolumn hline
  have hunit : (w.stream 0).lexer.behind = [0x64] := by decide +kernel
  rw [hunit] at hbehind
  cases hbehind
  refine ⟨hw, hcolumn, hline, by decide +kernel, by decide +kernel, ?_⟩
  exact hsettles (.inr (by decide)) (.inl hagrees)

end Stream

end SceneTokens
