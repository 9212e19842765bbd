import Mathlib.Logic.Relation
import SceneTokens.Proofs.Lookahead
import SceneTokens.Stream.Script

/-!
# Reachable states

Every state is reached from the start of a source by a few elementary moves, on three
levels.

* `Lexer.Move`: the cursor moves on, the innermost block is closed, or a block is opened
  whose run continues the innermost one.  Reading is nothing but such moves
  (`Lexer.moves_next`, `Reader.moves_read`).
* `Stream.Move`: the lexer moves, a snapshot is taken, the innermost one is released, or
  the stream is taken back to an open one.
* `Session.Move`: an action is performed on one of the streams, or a scope is entered or
  left there.  Any snapshot may be given when a scope is left, so these moves are more
  than a script can make (`Script.runAll_reaches`).

A move of a session is a series of moves of each of its streams
(`Session.Move.stream`), so an invariant of the streams has to be checked for the
elementary moves only.

The actions that are allowed are a parameter.  One of them writes to the blocks directly
and is no operation of the lexer, see `Action.IsOperation`.
-/

namespace SceneTokens

open CodeUnit Relation

/-! ## Moves of the lexer -/

namespace Lexer

/-- The elementary moves of a lexer. -/
inductive Move (lx : Lexer) : Lexer → Prop
  | skip {n : Nat} (h : n ≤ lx.cursor.rest.length) : Move lx (lx.skip n)
  | closeBlock (h : lx.blocks ≠ []) : Move lx lx.closeBlock
  | openBlock {run : Text} (hrun : ∀ u ∈ run, isHorizontal u = true)
      (hpre : lx.indent <+: run) (hlt : lx.indent.length < run.length) :
      Move lx (lx.openBlock run)

/-- Any number of moves. -/
abbrev Moves : Lexer → Lexer → Prop := ReflTransGen Move

theorem moves_skip {lx : Lexer} {n : Nat} (h : n ≤ lx.cursor.rest.length) :
    Moves lx (lx.skip n) :=
  .single (.skip h)

theorem moves_onCursor {lx : Lexer} (read : Cursor → Reading Token)
    (h : ∃ n, lx.cursor.Takes (read lx.cursor) n) : Moves lx (lx.onCursor read).2 := by
  obtain ⟨n, htakes⟩ := h
  have hafter : (lx.onCursor read).2 = lx.skip n := by
    show ({ lx with cursor := (read lx.cursor).2 } : Lexer) = lx.skip n
    rw [htakes.after]
    rfl
  rw [hafter]
  exact moves_skip htakes.le

theorem moves_dedent {lx : Lexer} (h : lx.blocks ≠ []) : Moves lx lx.dedent.2 :=
  .single (.closeBlock h)

theorem moves_readEndOfInput (lx : Lexer) : Moves lx lx.readEndOfInput.2 := by
  unfold readEndOfInput
  split
  · exact .refl
  · rename_i hblocks
    exact moves_dedent (by simpa using hblocks)

theorem moves_readInLine (lx : Lexer) : Moves lx lx.readInLine.2 := by
  cases hbehind : lx.behind with
  | nil =>
    have hall : ∀ u ∈ lx.cursor.rest, isHorizontal u = true := by
      rw [← leading_append_behind, hbehind, List.append_nil]
      exact fun u hu => isHorizontal_of_mem_leading hu
    rw [readInLine_of_horizontal hall]
    exact (moves_skip (Nat.le_refl _)).trans (moves_readEndOfInput _)
  | cons u more =>
    rw [readInLine_of_behind hbehind]
    exact (moves_skip lx.length_leading_le).trans
      (moves_onCursor (·.readLexeme u) (Cursor.takes_readLexeme _ u))

theorem moves_readIndentation (lx : Lexer) : Moves lx lx.readIndentation.2 := by
  rw [readIndentation_eq]
  split
  · exact .refl
  split
  · exact .refl
  · rename_i hdiv
    split
    · rename_i hlt
      exact moves_dedent (blocks_ne_nil_of_lt_indent hlt)
    split
    · rename_i hlt
      have hpre : lx.indent <+: lx.leading :=
        (Text.divergence?_eq_none_iff.1 hdiv).resolve_left
          fun h => absurd h.length_le (by omega)
      exact (moves_skip lx.length_leading_le).tail
        (.openBlock (fun u hu => isHorizontal_of_mem_leading hu) hpre hlt)
    · exact moves_skip lx.length_leading_le

theorem moves_readLineStart (lx : Lexer) : Moves lx lx.readLineStart.2 := by
  unfold readLineStart
  split
  · rename_i w hshape
    obtain ⟨gap, more, hrest, -, hw⟩ := LineShape.exists_of_blank hshape
    exact moves_skip (by simp [hrest, hw])
  · rename_i w hshape
    exact moves_skip (Nat.le_of_eq (LineShape.eq_length_of_trailing hshape).1)
  · unfold readFilledLine
    split
    · rename_i hclose
      rw [Bool.and_eq_true] at hclose
      exact moves_dedent (by simpa using hclose.2)
    · exact moves_readIndentation lx

theorem moves_next (lx : Lexer) : Moves lx lx.next.2 := by
  by_cases hline : lx.cursor.column = 0 ∧ lx.cursor.rest ≠ []
  · rw [next_of_line_start hline.1 hline.2]
    have hstart := moves_readLineStart lx
    rcases hread : lx.readLineStart with ⟨fault | _ | token, after⟩ <;> rw [hread] at hstart
    · exact hstart
    · exact hstart.trans (moves_readInLine after)
    · exact hstart
  · have heq : lx.next = lx.readInLine := by
      rcases Classical.not_and_iff_not_or_not.1 hline with h | h
      · exact next_of_column_ne_zero h
      · exact next_of_rest_nil (by_contra h)
    rw [heq]
    exact moves_readInLine lx

theorem moves_scan (lx : Lexer) : Moves lx lx.scan.final := by
  fun_induction scan lx with
  | case1 lx fault after hnext =>
    have := moves_next lx
    rwa [hnext] at this
  | case2 lx token after hnext hkind =>
    have := moves_next lx
    rwa [hnext] at this
  | case3 lx token after hnext hkind ih =>
    have := moves_next lx
    rw [hnext] at this
    exact this.trans ih

theorem moves_scanUpTo (lx : Lexer) (limit : Nat) : Moves lx (lx.scanUpTo limit).final := by
  induction limit generalizing lx with
  | zero => exact .refl
  | succ limit ih =>
    have hmoves := moves_next lx
    unfold scanUpTo
    rcases hnext : lx.next with ⟨fault | token, after⟩ <;> rw [hnext] at hmoves
    · exact hmoves
    · dsimp only
      split
      · exact hmoves
      · exact hmoves.trans (ih after)

theorem moves_readUnit (lx : Lexer) : Moves lx (lx.onCursor Cursor.readUnit).2 := by
  unfold onCursor Cursor.readUnit
  cases hrest : lx.cursor.rest with
  | nil => exact .refl
  | cons u rest => exact moves_skip (n := 1) (by simp [hrest])

end Lexer

theorem Reader.moves_read (lx : Lexer) (reader : Reader) : Lexer.Moves lx (reader.read lx).2 := by
  cases reader with
  | comment => exact Lexer.moves_onCursor Cursor.readComment (Cursor.takes_readRun _ rfl _)
  | integer => exact Lexer.moves_onCursor Cursor.readInteger (Cursor.takes_readRun _ rfl _)
  | identifier => exact Lexer.moves_onCursor Cursor.readIdentifier (Cursor.takes_readRun _ rfl _)
  | string => exact Lexer.moves_onCursor Cursor.readString (Cursor.takes_readString _)
  | newline => exact Lexer.moves_onCursor Cursor.readNewline (Cursor.takes_readNewline _)
  | symbol => exact Lexer.moves_onCursor Cursor.readSymbol (Cursor.takes_readSymbol _)
  | lineStart => exact lx.moves_readLineStart
  | endOfInput => exact lx.moves_readEndOfInput
  | token => exact lx.moves_next

/-! ## Moves of a stream -/

namespace Stream

/-- The elementary moves of a stream. -/
inductive Move (allowed : Action → Prop) (s : Stream) : Stream → Prop
  | lexer {after : Lexer} (h : Lexer.Move s.lexer after) :
      Move allowed s { s with lexer := after }
  | force {run : Text} (h : allowed (.pushIndent run)) :
      Move allowed s { s with lexer := s.lexer.openBlock run }
  | look : Move allowed s { s with taken := s.taken + 1 }
  | capture : Move allowed s s.capture.2
  | release {x : Snapshot} {below : List Snapshot} (h : s.snapshots = x :: below) :
      Move allowed s { s with snapshots := below }
  | rewind {x : Snapshot} {later below : List Snapshot}
      (h : s.snapshots = later ++ x :: below) :
      Move allowed s { s with lexer := x.saved, snapshots := below }

/-- Any number of moves. -/
abbrev Moves (allowed : Action → Prop) : Stream → Stream → Prop := ReflTransGen (Move allowed)

variable {allowed : Action → Prop}

theorem moves_lexer {s : Stream} {after : Lexer} (h : Lexer.Moves s.lexer after) :
    Moves allowed s { s with lexer := after } := by
  induction h with
  | refl => exact .refl
  | tail _ hmove ih => exact ih.tail (.lexer hmove)

theorem moves_onLexer {α : Type} {s : Stream} (step : Lexer → Step α)
    (h : Lexer.Moves s.lexer (step s.lexer).2) : Moves allowed s (s.onLexer step).2 :=
  moves_lexer h

/-- A fault that is an answer leaves the stream where it came to. -/
theorem snd_tryNext (s : Stream) : s.tryNext.2 = s.next.2 := by
  unfold tryNext
  rcases s.next with ⟨fault | token, after⟩
  · dsimp only
    split <;> rfl
  · rfl

theorem moves_tryNext (s : Stream) : Moves allowed s s.tryNext.2 := by
  rw [snd_tryNext]
  exact moves_onLexer Lexer.next s.lexer.moves_next

theorem moves_peek (s : Stream) (k : Nat) : Moves allowed s (s.peek k).2 := by
  rw [peek_eq]
  exact .single .look

theorem moves_rewind {s : Stream} {x : Snapshot} {below : List Snapshot}
    (h : s.snapshots = x :: below) :
    Moves allowed s { s with lexer := x.saved, snapshots := below } := by
  have hsplit : s.snapshots = [] ++ x :: below := h
  exact .single (.rewind hsplit)

theorem moves_restore {s after : Stream} {x : Snapshot} (h : s.restore x = .ok after) :
    Moves allowed s after := by
  obtain ⟨below, hbelow, rfl⟩ := restore_eq_ok_iff.1 h
  exact moves_rewind hbelow

theorem moves_release {s after : Stream} {x : Snapshot} (h : s.release x = .ok after) :
    Moves allowed s after := by
  obtain ⟨below, hbelow, rfl⟩ := close_eq_ok_iff.1 h
  exact .single (.release hbelow)

theorem moves_abandon (s : Stream) (x : Snapshot) : Moves allowed s (s.abandon x) := by
  by_cases hmem : x ∈ s.snapshots
  · obtain ⟨later, below, hsplit, hlater⟩ := List.eq_append_cons_of_mem hmem
    rw [abandon_of_split hsplit hlater]
    exact .single (.rewind hsplit)
  · rw [abandon_of_not_mem hmem]

theorem moves_leave (s : Stream) (x : Snapshot) (committed : Bool) :
    Moves allowed s (s.leave x committed).2 := by
  by_cases hhead : s.snapshots.head? = some x
  · obtain ⟨below, hbelow⟩ := List.head?_eq_some_iff.1 hhead
    rw [leave_of_innermost committed hbelow]
    cases committed with
    | true => exact .single (.release hbelow)
    | false => exact moves_rewind hbelow
  · rw [leave_of_ne committed hhead]
    exact moves_abandon s x

/-- A property holds of the state of a stream and of every state that it can be taken back
to. -/
structure Keeps (P : Lexer → Prop) (s : Stream) : Prop where
  now : P s.lexer
  saved : ∀ x ∈ s.snapshots, P x.saved

namespace Keeps

variable {P : Lexer → Prop} {s after : Stream}

theorem ofSource {tag : Nat} {source : Text} (h : P (Lexer.ofSource source)) :
    (Stream.ofSource tag source).Keeps P :=
  ⟨h, fun _ hx => absurd hx List.not_mem_nil⟩

/-- An invariant of the lexer is one of the stream. -/
theorem move (h : s.Keeps P) (hlexer : ∀ {lx after}, P lx → Lexer.Move lx after → P after)
    (hforce : ∀ {lx run}, allowed (.pushIndent run) → P lx → P (lx.openBlock run))
    (hmove : Move allowed s after) : after.Keeps P := by
  cases hmove with
  | lexer hmove => exact ⟨hlexer h.now hmove, h.saved⟩
  | force hallowed => exact ⟨hforce hallowed h.now, h.saved⟩
  | look => exact ⟨h.now, h.saved⟩
  | capture =>
    refine ⟨h.now, fun x hx => ?_⟩
    rcases List.mem_cons.1 hx with rfl | hx
    · exact h.now
    · exact h.saved x hx
  | release hsnapshots =>
    refine ⟨h.now, fun x hx => h.saved x ?_⟩
    rw [hsnapshots]
    exact List.mem_cons_of_mem _ hx
  | rewind hsnapshots =>
    refine ⟨h.saved _ (by simp [hsnapshots]), fun x hx => h.saved x ?_⟩
    rw [hsnapshots]
    exact List.mem_append_right _ (List.mem_cons_of_mem _ hx)

theorem moves (h : s.Keeps P) (hlexer : ∀ {lx after}, P lx → Lexer.Move lx after → P after)
    (hforce : ∀ {lx run}, allowed (.pushIndent run) → P lx → P (lx.openBlock run))
    (hmoves : Moves allowed s after) : after.Keeps P := by
  induction hmoves with
  | refl => exact h
  | tail _ hmove ih => exact ih.move hlexer hforce hmove

end Keeps

/-- Moves over the units ahead that belong to a class. -/
def consume (s : Stream) (p : CodeUnit → Bool) : Stream :=
  { s with lexer := s.lexer.skip (s.lexer.cursor.run p).length }

theorem moves_consume (s : Stream) (p : CodeUnit → Bool) : Moves allowed s (s.consume p) :=
  moves_lexer (Lexer.moves_skip (Cursor.length_run_le _ p))

end Stream

/-! ## Moves of a session -/

/-- The actions that are operations of the lexer.  The other one opens a block by force. -/
def Action.IsOperation : Action → Prop
  | .pushIndent _ => False
  | _ => True

namespace Session

/-- The elementary moves of a session: an action on one of its streams, or the entering
or leaving of a scope there. -/
inductive Move (allowed : Action → Prop) (w : Session) : Session → Prop
  | act (i : Nat) {action : Action} (h : allowed action) :
      Move allowed w (w.perform i action).2
  | enter (i : Nat) : Move allowed w (w.setStream i (w.stream i).capture.2)
  | leave (i : Nat) (x : Snapshot) (committed : Bool) :
      Move allowed w (w.setStream i ((w.stream i).leave x committed).2)
  | abandon (i : Nat) (x : Snapshot) :
      Move allowed w (w.setStream i ((w.stream i).abandon x))

/-- Any number of moves. -/
abbrev Reaches (allowed : Action → Prop) : Session → Session → Prop :=
  ReflTransGen (Move allowed)

/-- The sessions that the allowed actions lead to, from the start of some sources.  They
include all sessions in the middle of a scope. -/
def Reachable (allowed : Action → Prop) (w : Session) : Prop :=
  ∃ sources, Reaches allowed (ofSources sources) w

variable {allowed : Action → Prop}

/-- At the start every number has the stream of some source. -/
theorem stream_ofSources (sources : List Text) (i : Nat) :
    ∃ tag source, (ofSources sources).stream i = Stream.ofSource tag source := by
  unfold stream ofSources
  rw [List.getElem?_map]
  cases sources.zipIdx[i]? with
  | none => exact ⟨i, [], rfl⟩
  | some numbered => exact ⟨numbered.2, numbered.1, rfl⟩

theorem stream_setStream_self {w : Session} {i : Nat} {s : Stream} (h : i < w.streams.length) :
    (w.setStream i s).stream i = s := by
  simp [stream, setStream, h]

theorem stream_setStream_of_ne {w : Session} {i j : Nat} {s : Stream} (h : i ≠ j) :
    (w.setStream i s).stream j = w.stream j := by
  simp [stream, setStream, List.getElem?_set_ne h]

theorem setStream_of_le {w : Session} {i : Nat} {s : Stream} (h : w.streams.length ≤ i) :
    w.setStream i s = w := by
  unfold setStream
  rw [List.set_eq_of_length_le h]

/-- Where one stream moves, every stream moves or stays. -/
theorem moves_setStream {w : Session} {i : Nat} {s : Stream}
    (h : Stream.Moves allowed (w.stream i) s) (j : Nat) :
    Stream.Moves allowed (w.stream j) ((w.setStream i s).stream j) := by
  rcases Nat.lt_or_ge i w.streams.length with hlt | hge
  · by_cases hij : i = j
    · subst hij
      rw [stream_setStream_self hlt]
      exact h
    · rw [stream_setStream_of_ne hij]
  · rw [setStream_of_le hge]

theorem moves_closing {w : Session} {i : Nat} {name : Text}
    {close : Stream → Snapshot → Except Fault Stream}
    (hclose : ∀ {s after x}, close s x = .ok after → Stream.Moves allowed s after) (j : Nat) :
    Stream.Moves allowed (w.stream j) ((w.closing i name close).2.stream j) := by
  unfold closing
  split
  · exact .refl
  · split
    · rename_i after hafter
      exact moves_setStream (hclose hafter) j
    · exact .refl

/-- What an action does to the streams. -/
theorem moves_perform (w : Session) (i : Nat) {action : Action} (h : allowed action) (j : Nat) :
    Stream.Moves allowed (w.stream j) ((w.perform i action).2.stream j) := by
  cases action with
  | next => exact moves_setStream (Stream.moves_onLexer Lexer.next (Lexer.moves_next _)) j
  | tryNext => exact moves_setStream (Stream.moves_tryNext _) j
  | peek offset =>
    unfold perform
    dsimp only
    split
    · exact moves_setStream (Stream.moves_peek _ _) j
    · exact .refl
  | iterate limit =>
    cases limit with
    | none => exact moves_setStream (Stream.moves_lexer (Lexer.moves_scan _)) j
    | some n => exact moves_setStream (Stream.moves_lexer (Lexer.moves_scanUpTo _ n)) j
  | capture name => exact moves_setStream (.single .capture) j
  | innermost name =>
    unfold perform
    dsimp only
    split <;> exact .refl
  | restore name => exact moves_closing Stream.moves_restore j
  | release name => exact moves_closing Stream.moves_release j
  | advance =>
    exact moves_setStream (Stream.moves_onLexer (·.onCursor Cursor.readUnit)
      (Lexer.moves_readUnit _)) j
  | pushIndent run => exact moves_setStream (.single (.force h)) j
  | consume units => exact moves_setStream (Stream.moves_consume _ units.holds) j
  | read reader =>
    exact moves_setStream (Stream.moves_onLexer (reader.read ·) (reader.moves_read _)) j
  | depth | commit | throw | peekUnit | atEnd | indent => exact .refl

/-- A move of a session is a series of moves of each of its streams. -/
theorem Move.stream {w after : Session} (h : Move allowed w after) (j : Nat) :
    Stream.Moves allowed (w.stream j) (after.stream j) := by
  cases h with
  | act i h => exact moves_perform w i h j
  | enter i => exact moves_setStream (.single .capture) j
  | leave i x committed => exact moves_setStream (Stream.moves_leave _ x committed) j
  | abandon i x => exact moves_setStream (Stream.moves_abandon _ x) j

theorem Reaches.stream {w after : Session} (h : Reaches allowed w after) (j : Nat) :
    Stream.Moves allowed (w.stream j) (after.stream j) := by
  induction h with
  | refl => exact .refl
  | tail _ hmove ih => exact ih.trans (hmove.stream j)

theorem length_setStream (w : Session) (i : Nat) (s : Stream) :
    (w.setStream i s).streams.length = w.streams.length := by
  simp [setStream]

theorem length_perform (w : Session) (i : Nat) (action : Action) :
    (w.perform i action).2.streams.length = w.streams.length := by
  cases action with
  | peek | innermost =>
    unfold perform
    dsimp only
    split
    · simp [reading, keep, setStream]
    · rfl
  | restore | release =>
    unfold perform closing
    dsimp only
    split
    · rfl
    · split <;> simp [setStream]
  | next | tryNext | iterate | capture | advance | pushIndent | consume | read =>
    exact length_setStream w i _
  | depth | commit | throw | peekUnit | atEnd | indent => rfl

/-- No stream comes or goes. -/
theorem Reaches.length_eq {w after : Session} (h : Reaches allowed w after) :
    after.streams.length = w.streams.length := by
  induction h with
  | refl => rfl
  | tail _ hmove ih =>
    rw [← ih]
    cases hmove with
    | act i => exact length_perform _ i _
    | enter i => exact length_setStream _ i _
    | leave i x committed => exact length_setStream _ i _
    | abandon i x => exact length_setStream _ i _

/-! ## Any class of units

The actions of a script move over the units of a few classes.  An operation may ask for
any class at all. -/

/-- The operations on a session: its moves, and moving over the units ahead that belong to
a class. -/
inductive Operation (allowed : Action → Prop) (w : Session) : Session → Prop
  | move {after : Session} (h : Move allowed w after) : Operation allowed w after
  | consume (i : Nat) (p : CodeUnit → Bool) :
      Operation allowed w (w.setStream i ((w.stream i).consume p))

/-- Any number of operations. -/
abbrev Operations (allowed : Action → Prop) : Session → Session → Prop :=
  ReflTransGen (Operation allowed)

/-- The operations on a session are moves of each of its streams. -/
theorem Operations.stream {w after : Session} (h : Operations allowed w after) (j : Nat) :
    Stream.Moves allowed (w.stream j) (after.stream j) := by
  induction h with
  | refl => exact .refl
  | tail _ hstep ih =>
    refine ih.trans ?_
    cases hstep with
    | move hmove => exact hmove.stream j
    | consume i p => exact moves_setStream (Stream.moves_consume _ p) j

end Session

/-! ## Scripts make such moves only -/

namespace Script

mutual

/-- All actions of a step are allowed. -/
def Uses (allowed : Action → Prop) : Script → Prop
  | .act _ _ action => allowed action
  | .peeking _ _ body => UsesAll allowed body

/-- All actions of some steps are allowed. -/
def UsesAll (allowed : Action → Prop) : List Script → Prop
  | [] => True
  | step :: rest => Uses allowed step ∧ UsesAll allowed rest

end

variable {allowed : Action → Prop}

mutual

theorem uses_of_forall (h : ∀ action, allowed action) : ∀ step, Uses allowed step
  | .act _ _ action => h action
  | .peeking _ _ body => usesAll_of_forall h body

theorem usesAll_of_forall (h : ∀ action, allowed action) : ∀ steps, UsesAll allowed steps
  | [] => trivial
  | step :: rest => ⟨uses_of_forall h step, usesAll_of_forall h rest⟩

end

/-- How a scope ends: the failure of its body leaves it, or else its snapshot is closed. -/
def exit (s : Stream) (x : Snapshot) (committed : Bool) :
    Option Failure → Except Failure Answer × Stream
  | some failure => (.error failure, s.abandon x)
  | none =>
    (((s.leave x committed).1.map fun _ => .done).mapError .fault, (s.leave x committed).2)

/-- What the body of a scope makes of a session. -/
def inside (w : Session) (i : Nat) (body : List Script) : Progress :=
  runAll (w.setStream i (w.stream i).capture.2) false body

/-- A scope runs its body on the stream with a snapshot more, and then ends. -/
theorem run_peeking (w : Session) (committed caught : Bool) (i : Nat) (body : List Script) :
    let progress := inside w i body
    let ending := exit (progress.session.stream i) (w.stream i).capture.1 progress.committed
      progress.failure
    let after := progress.session.setStream i ending.2
    run w committed (.peeking i caught body) =
      { session := after
        committed := committed
        entries := [.mk ending.1 (some progress.entries) (after.stream i).view]
        failure := run.escaping caught ending.1 } := by
  unfold run inside
  cases (runAll (w.setStream i (w.stream i).capture.2) false body).failure <;> rfl

mutual

/-- A step of a script makes moves of its session. -/
theorem run_reaches : ∀ (w : Session) (committed : Bool) (step : Script),
    Uses allowed step → Session.Reaches allowed w (run w committed step).session
  | w, committed, .act i caught action, h => .single (.act i h)
  | w, committed, .peeking i caught body, h => by
    have hbody : Session.Reaches allowed w (inside w i body).session :=
      ReflTransGen.trans (.single (.enter i)) (runAll_reaches _ false body h)
    rw [run_peeking]
    cases (inside w i body).failure with
    | some failure => exact hbody.tail (.abandon i _)
    | none => exact hbody.tail (.leave i _ _)

/-- Steps of a script make moves of their session. -/
theorem runAll_reaches : ∀ (w : Session) (committed : Bool) (steps : List Script),
    UsesAll allowed steps → Session.Reaches allowed w (runAll w committed steps).session
  | w, committed, [], _ => .refl
  | w, committed, step :: rest, h => by
    have hstep := run_reaches w committed step h.1
    unfold runAll
    dsimp only
    split
    · exact hstep
    · exact hstep.trans (runAll_reaches _ _ rest h.2)

end

end Script

end SceneTokens
