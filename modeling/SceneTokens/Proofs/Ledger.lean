import Mathlib.Data.List.Nodup
import SceneTokens.Proofs.Locations
import SceneTokens.Proofs.Scope

/-!
# The ledger of snapshots

Which snapshots of a stream should be open can be told from what happened to them, without
a look at the stack that the stream keeps.  A `History` records what happened, on all
streams, by the outcomes of the operations alone: a snapshot was taken, it was closed, or a
scope with it failed.

* `History.openOn`: the snapshots taken on a stream, less those that were closed and those
  that a failed scope abandoned.
* `Stream.Ledger`: the stack of a stream is what its history says.  Each kind of event has
  its lemma, `Ledger.captured`, `Ledger.closed` and `Ledger.threw`.
* `Session.Traced`: the sessions that any operations on any number of streams lead to, with
  their histories.  All the states in the middle of a scope are among them.
* `Stream.Ordered`: the places of the open snapshots are in order, up to the cursor.

Main statement: `Session.snapshots_disciplined`.
-/

namespace SceneTokens

open Relation

/-! ## Histories -/

/-- What may happen to a snapshot, and the number of the stream where it happens. -/
inductive SnapshotEvent
  /-- It is taken. -/
  | captured (on : Nat) (x : Snapshot)
  /-- It is restored or released. -/
  | closed (on : Nat) (x : Snapshot)
  /-- The scope that it belongs to fails. -/
  | threw (on : Nat) (x : Snapshot)
  deriving DecidableEq, Repr

/-- The stream of an event. -/
def SnapshotEvent.stream : SnapshotEvent → Nat
  | .captured i _ | .closed i _ | .threw i _ => i

/-- What happened so far, the latest event first. -/
abbrev History := List SnapshotEvent

namespace History

/-- The snapshots taken on a stream, the latest first. -/
def capturedOn (i : Nat) : History → List Snapshot
  | [] => []
  | .captured j x :: older => if j = i then x :: capturedOn i older else capturedOn i older
  | .closed _ _ :: older | .threw _ _ :: older => capturedOn i older

/-- The snapshots of a stream that were closed, or abandoned by a scope that failed.  Such a
scope closes its own snapshot and abandons the later ones, unless its own is gone already. -/
def goneOn (i : Nat) : History → List Snapshot
  | [] => []
  | .captured _ _ :: older => goneOn i older
  | .closed j x :: older => if j = i then x :: goneOn i older else goneOn i older
  | .threw j x :: older =>
    let opened := (capturedOn i older).filter fun y => y ∉ goneOn i older
    if j = i ∧ x ∈ opened then x :: opened.takeWhile (· != x) ++ goneOn i older
    else goneOn i older

/-- The snapshots of a stream that are neither closed nor abandoned, the latest first. -/
def openOn (i : Nat) (log : History) : List Snapshot :=
  (capturedOn i log).filter fun x => x ∉ goneOn i log

variable {i : Nat} {log : History} {x : Snapshot}

theorem mem_openOn : x ∈ openOn i log ↔ x ∈ capturedOn i log ∧ x ∉ goneOn i log := by
  simp [openOn]

theorem mem_capturedOn : x ∈ capturedOn i log ↔ .captured i x ∈ log := by
  fun_induction capturedOn i log with
  | case1 => simp
  | case2 y older ih => simp [ih]
  | case3 j y older hne ih => simp [ih, Ne.symm hne]
  | case4 j y older ih => simp [ih]
  | case5 j y older ih => simp [ih]

/-- Every snapshot that was closed is gone, as many times as it was closed. -/
theorem count_closed_le (i : Nat) (log : History) (x : Snapshot) :
    log.count (.closed i x) ≤ (goneOn i log).count x := by
  induction log with
  | nil => simp
  | cons e older ih =>
    cases e with
    | captured j y =>
      rw [List.count_cons_of_ne (by simp)]
      exact ih
    | closed j y =>
      rw [goneOn]
      split
      · rename_i hj
        subst hj
        by_cases hy : y = x
        · subst hy
          rw [List.count_cons_self, List.count_cons_self]
          omega
        · rw [List.count_cons_of_ne (by simpa using hy), List.count_cons_of_ne hy]
          exact ih
      · rename_i hj
        rw [List.count_cons_of_ne (by simp [hj])]
        exact ih
    | threw j y =>
      rw [List.count_cons_of_ne (by simp), goneOn]
      split
      · rw [List.count_append]
        omega
      · exact ih

/-! ### Events on other streams -/

theorem capturedOn_cons_of_ne (log : History) {e : SnapshotEvent} (h : e.stream ≠ i) :
    capturedOn i (e :: log) = capturedOn i log := by
  cases e with
  | captured j x => exact if_neg h
  | closed | threw => rfl

theorem goneOn_cons_of_ne (log : History) {e : SnapshotEvent} (h : e.stream ≠ i) :
    goneOn i (e :: log) = goneOn i log := by
  cases e with
  | captured => rfl
  | closed j x => exact if_neg h
  | threw j x => exact if_neg fun hboth => h hboth.1

/-! ### Events on the stream itself -/

theorem capturedOn_captured : capturedOn i (.captured i x :: log) = x :: capturedOn i log :=
  if_pos rfl

theorem openOn_captured (h : x ∉ goneOn i log) :
    openOn i (.captured i x :: log) = x :: openOn i log := by
  show (capturedOn i (.captured i x :: log)).filter (fun y => y ∉ goneOn i log) = _
  rw [capturedOn_captured]
  exact List.filter_cons_of_pos (by simpa using h)

/-- What more is gone is open no more. -/
theorem openOn_of_gone {e : SnapshotEvent} {dropped : List Snapshot}
    (hcaptured : capturedOn i (e :: log) = capturedOn i log)
    (hgone : goneOn i (e :: log) = dropped ++ goneOn i log) :
    openOn i (e :: log) = (openOn i log).filter fun y => y ∉ dropped := by
  rw [openOn, hcaptured, hgone, openOn, List.filter_filter]
  apply List.filter_congr
  intro y _
  simp

/-- Without an element of a list and all before it, the ones behind it are left. -/
theorem filter_notMem_of_split {α : Type} [DecidableEq α] {a : α} {before behind : List α}
    (h : (before ++ a :: behind).Nodup) :
    (before ++ a :: behind).filter (fun y => y ∉ a :: before) = behind := by
  obtain ⟨-, htail, hdisjoint⟩ := List.nodup_append.1 h
  have hbefore : before.filter (fun y => y ∉ a :: before) = [] := by
    rw [List.filter_eq_nil_iff]
    intro y hy
    simp [hy]
  have hbehind : behind.filter (fun y => y ∉ a :: before) = behind := by
    rw [List.filter_eq_self]
    intro y hy
    have hne : y ≠ a := by
      intro heq
      exact (List.nodup_cons.1 htail).1 (heq ▸ hy)
    have hnot : y ∉ before := by
      intro hmem
      exact hdisjoint y hmem y (List.mem_cons_of_mem a hy) rfl
    simp [hne, hnot]
  rw [List.filter_append, hbefore, List.nil_append, List.filter_cons_of_neg (by simp), hbehind]

/-- The event closes or abandons the innermost snapshots of a stream, up to `x`. -/
structure Drops (i : Nat) (x : Snapshot) (later : List Snapshot) (e : SnapshotEvent)
    (log : History) : Prop where
  captured : capturedOn i (e :: log) = capturedOn i log
  gone : goneOn i (e :: log) = x :: later ++ goneOn i log

theorem drops_closed (i : Nat) (x : Snapshot) (log : History) : Drops i x [] (.closed i x) log :=
  ⟨rfl, if_pos rfl⟩

theorem drops_threw {later below : List Snapshot} (hnodup : (openOn i log).Nodup)
    (h : openOn i log = later ++ x :: below) : Drops i x later (.threw i x) log := by
  have hmem : x ∈ openOn i log := by simp [h]
  have hlater : ∀ y ∈ later, (y != x) = true := by
    rw [h] at hnodup
    intro y hy
    exact bne_iff_ne.2 ((List.nodup_append.1 hnodup).2.2 y hy x List.mem_cons_self)
  have htake : (openOn i log).takeWhile (· != x) = later := by
    rw [h, List.takeWhile_append_of_pos hlater, List.takeWhile_cons_of_neg (by simp),
      List.append_nil]
  refine ⟨rfl, ?_⟩
  rw [goneOn, ← openOn, if_pos ⟨rfl, hmem⟩, htake]

theorem goneOn_threw_of_not_open (h : x ∉ openOn i log) :
    goneOn i (.threw i x :: log) = goneOn i log :=
  if_neg fun hboth => h hboth.2

end History

/-! ## The stack of a stream -/

namespace Stream

open History

/-- The stream of a number keeps the stack that the history calls for. -/
structure Ledger (i : Nat) (s : Stream) (log : History) : Prop where
  tag : s.tag = i
  snapshots : s.snapshots = openOn i log
  /-- The snapshots that were taken have numbers below the next one. -/
  numbered : ∀ x ∈ capturedOn i log, x.stream = i ∧ x.serial < s.taken
  distinct : (capturedOn i log).Nodup
  /-- Only what was taken goes, and it goes once. -/
  gone : ∀ x ∈ goneOn i log, x ∈ capturedOn i log
  once : (goneOn i log).Nodup

namespace Ledger

variable {i : Nat} {s after : Stream} {log : History} {x : Snapshot}

theorem ofSource (i : Nat) (source : Text) : Ledger i (Stream.ofSource i source) [] where
  tag := rfl
  snapshots := rfl
  numbered := by simp [capturedOn]
  distinct := List.nodup_nil
  gone := by simp [goneOn]
  once := List.nodup_nil

/-- Reading leaves the stack as it is. -/
theorem reads (h : Ledger i s log) (htag : after.tag = s.tag)
    (hsnapshots : after.snapshots = s.snapshots) (htaken : s.taken ≤ after.taken) :
    Ledger i after log where
  tag := htag.trans h.tag
  snapshots := hsnapshots.trans h.snapshots
  numbered := by
    intro y hy
    obtain ⟨hstream, hserial⟩ := h.numbered y hy
    exact ⟨hstream, by omega⟩
  distinct := h.distinct
  gone := h.gone
  once := h.once

/-- Nothing changes by an event after which the same snapshots are taken and gone. -/
theorem same (h : Ledger i s log) {e : SnapshotEvent}
    (hcaptured : capturedOn i (e :: log) = capturedOn i log)
    (hgone : goneOn i (e :: log) = goneOn i log) : Ledger i s (e :: log) := by
  refine ⟨h.tag, ?_, ?_, ?_, ?_, ?_⟩
  · rw [h.snapshots, openOn, openOn, hcaptured, hgone]
  · rw [hcaptured]
    exact h.numbered
  · rw [hcaptured]
    exact h.distinct
  · rw [hcaptured, hgone]
    exact h.gone
  · rw [hgone]
    exact h.once

theorem other (h : Ledger i s log) {e : SnapshotEvent} (he : e.stream ≠ i) :
    Ledger i s (e :: log) :=
  h.same (capturedOn_cons_of_ne log he) (goneOn_cons_of_ne log he)

/-- No snapshot with the next number was taken before. -/
theorem capture_notMem (h : Ledger i s log) : s.capture.1 ∉ capturedOn i log := by
  intro hmem
  have hlt : s.taken < s.taken := (h.numbered _ hmem).2
  omega

theorem captured (h : Ledger i s log) :
    Ledger i s.capture.2 (.captured i s.capture.1 :: log) := by
  refine ⟨h.tag, ?_, ?_, ?_, ?_, h.once⟩
  · have hgone : s.capture.1 ∉ goneOn i log := fun hmem => h.capture_notMem (h.gone _ hmem)
    rw [openOn_captured hgone, ← h.snapshots]
    rfl
  · intro y hy
    rw [capturedOn_captured] at hy
    show y.stream = i ∧ y.serial < s.taken + 1
    rcases List.mem_cons.1 hy with rfl | hy
    · exact ⟨h.tag, Nat.lt_succ_self s.taken⟩
    · obtain ⟨hstream, hserial⟩ := h.numbered y hy
      exact ⟨hstream, by omega⟩
  · rw [capturedOn_captured]
    exact List.nodup_cons.2 ⟨h.capture_notMem, h.distinct⟩
  · intro y hy
    rw [capturedOn_captured]
    exact List.mem_cons_of_mem _ (h.gone y hy)

theorem nodup_openOn (h : Ledger i s log) : (openOn i log).Nodup := h.distinct.filter _

/-- A snapshot is dropped from the stack with all later ones. -/
theorem drops (h : Ledger i s log) {e : SnapshotEvent} {later below : List Snapshot}
    (hstack : s.snapshots = later ++ x :: below) (hdrops : Drops i x later e log) (lx : Lexer) :
    Ledger i { s with lexer := lx, snapshots := below } (e :: log) := by
  have hopen : openOn i log = later ++ x :: below := h.snapshots.symm.trans hstack
  have hnodup := h.nodup_openOn
  have hdropped : ∀ y ∈ x :: later, y ∈ openOn i log := by
    intro y hy
    rw [hopen, List.mem_append]
    rcases List.mem_cons.1 hy with rfl | hy
    · exact .inr List.mem_cons_self
    · exact .inl hy
  refine ⟨h.tag, ?_, ?_, ?_, ?_, ?_⟩
  · show below = openOn i (e :: log)
    rw [openOn_of_gone hdrops.captured hdrops.gone, hopen]
    exact (filter_notMem_of_split (hopen ▸ hnodup)).symm
  · rw [hdrops.captured]
    exact h.numbered
  · rw [hdrops.captured]
    exact h.distinct
  · rw [hdrops.captured, hdrops.gone]
    intro y hy
    rcases List.mem_append.1 hy with hy | hy
    · exact (mem_openOn.1 (hdropped y hy)).1
    · exact h.gone y hy
  · -- What is dropped was open, so it was not gone before.
    rw [hdrops.gone, List.nodup_append]
    refine ⟨?_, h.once, ?_⟩
    · rw [hopen] at hnodup
      exact (List.nodup_middle.1 hnodup).sublist (by simp)
    · intro y hy z hz heq
      subst heq
      exact (mem_openOn.1 (hdropped y hy)).2 hz

theorem closed (h : Ledger i s log) {below : List Snapshot} (hinnermost : s.snapshots = x :: below)
    (lx : Lexer) : Ledger i { s with lexer := lx, snapshots := below } (.closed i x :: log) :=
  h.drops hinnermost (drops_closed i x log) lx

theorem threw (h : Ledger i s log) (x : Snapshot) :
    Ledger i (s.abandon x) (.threw i x :: log) := by
  by_cases hmem : x ∈ s.snapshots
  · obtain ⟨later, below, hstack, hlater⟩ := List.eq_append_cons_of_mem hmem
    have hopen : openOn i log = later ++ x :: below := h.snapshots.symm.trans hstack
    rw [abandon_of_split hstack hlater]
    exact h.drops hstack (drops_threw h.nodup_openOn hopen) x.saved
  · rw [abandon_of_not_mem hmem]
    exact h.same rfl (goneOn_threw_of_not_open (h.snapshots ▸ hmem))

end Ledger

/-! ## What the operations of a stream record -/

/-- An operation on the stream of a number records events of that stream only, and the
ledger stays right. -/
structure Records (i : Nat) (s : Stream) (events : History) (after : Stream) : Prop where
  here : ∀ e ∈ events, e.stream = i
  ledger : ∀ log, Ledger i s log → Ledger i after (events ++ log)

/-- How a scope ended. -/
def scopeEnd {α : Type} (i : Nat) (x : Snapshot) : Except Fault α → SnapshotEvent
  | .ok _ => .closed i x
  | .error _ => .threw i x

variable {i : Nat} {s after : Stream} {x : Snapshot}

theorem records_reads (htag : after.tag = s.tag) (hsnapshots : after.snapshots = s.snapshots)
    (htaken : s.taken ≤ after.taken) : Records i s [] after :=
  ⟨by simp, fun _ h => h.reads htag hsnapshots htaken⟩

theorem records_lexer (i : Nat) (s : Stream) (lx : Lexer) :
    Records i s [] { s with lexer := lx } :=
  records_reads rfl rfl (Nat.le_refl _)

theorem records_capture (i : Nat) (s : Stream) :
    Records i s [.captured i s.capture.1] s.capture.2 :=
  ⟨by simp [SnapshotEvent.stream], fun _ h => h.captured⟩

theorem records_restore (h : s.restore x = .ok after) : Records i s [.closed i x] after := by
  obtain ⟨below, hbelow, rfl⟩ := restore_eq_ok_iff.1 h
  exact ⟨by simp [SnapshotEvent.stream], fun _ hledger => hledger.closed hbelow x.saved⟩

theorem records_release (h : s.release x = .ok after) : Records i s [.closed i x] after := by
  obtain ⟨below, hbelow, rfl⟩ := close_eq_ok_iff.1 h
  exact ⟨by simp [SnapshotEvent.stream], fun _ hledger => hledger.closed hbelow s.lexer⟩

theorem records_abandon (i : Nat) (s : Stream) (x : Snapshot) :
    Records i s [.threw i x] (s.abandon x) :=
  ⟨by simp [SnapshotEvent.stream], fun _ h => h.threw x⟩

theorem records_leave (i : Nat) (s : Stream) (x : Snapshot) (committed : Bool) :
    Records i s [scopeEnd i x (s.leave x committed).1] (s.leave x committed).2 := by
  by_cases hhead : s.snapshots.head? = some x
  · obtain ⟨below, hbelow⟩ := List.head?_eq_some_iff.1 hhead
    rw [leave_of_innermost committed hbelow]
    exact ⟨by simp [scopeEnd, SnapshotEvent.stream], fun _ h => h.closed hbelow _⟩
  · rw [leave_of_ne committed hhead]
    exact records_abandon i s x

/-- A scope that is opened and left in one operation, whatever is read in it. -/
theorem records_scope {α : Type} (r : Except Fault α) (htag : after.tag = s.tag)
    (hsnapshots : after.snapshots = s.snapshots) (htaken : after.taken = s.taken + 1) :
    Records i s [scopeEnd i s.capture.1 r, .captured i s.capture.1] after := by
  cases r with
  | ok a =>
    refine ⟨by simp [scopeEnd, SnapshotEvent.stream], fun log h => ?_⟩
    have hstack : s.capture.2.snapshots = s.capture.1 :: s.snapshots := rfl
    have hclosed := h.captured.closed hstack s.lexer
    exact hclosed.reads htag hsnapshots (Nat.le_of_eq htaken.symm)
  | error fault =>
    refine ⟨by simp [scopeEnd, SnapshotEvent.stream], fun log h => ?_⟩
    have hthrew := h.captured.threw s.capture.1
    have hsplit : s.capture.2.snapshots = [] ++ s.capture.1 :: s.snapshots := rfl
    rw [abandon_of_split hsplit List.not_mem_nil] at hthrew
    exact hthrew.reads htag hsnapshots (Nat.le_of_eq htaken.symm)

theorem records_peek (i : Nat) (s : Stream) (k : Nat) :
    Records i s [scopeEnd i s.capture.1 (s.peek k).1, .captured i s.capture.1] (s.peek k).2 := by
  rw [peek_eq]
  exact records_scope _ rfl rfl rfl

theorem records_tryNext (i : Nat) (s : Stream) : Records i s [] s.tryNext.2 := by
  rw [snd_tryNext]
  exact records_lexer i s _

/-- Reading looks for a blank line at the start of a line only. -/
def atLineStart (s : Stream) : Bool :=
  s.lexer.cursor.column == 0 && !s.lexer.cursor.atEnd

/-- The scope in which a blank line is looked for takes one snapshot. -/
theorem taken_nextInScope (s : Stream) :
    s.nextInScope.2.taken = if s.atLineStart then s.taken + 1 else s.taken := by
  unfold nextInScope atLineStart
  split
  · rw [readBlankLine_eq]
    cases LineShape.of s.lexer.cursor.rest with
    | blank w => rfl
    | trailing w =>
      dsimp only
      split <;> rfl
    | filled =>
      dsimp only
      split <;> rfl
  · rfl

/-- The events of the scope in which a blank line is looked for.  It never fails. -/
def blankLineEvents (i : Nat) (s : Stream) : History :=
  if s.atLineStart then [.closed i s.capture.1, .captured i s.capture.1] else []

theorem records_nextInScope (i : Nat) (s : Stream) :
    Records i s (s.blankLineEvents i) s.nextInScope.2 := by
  have htaken := s.taken_nextInScope
  obtain ⟨taken, hscope⟩ := nextInScope_eq s
  have htag : s.nextInScope.2.tag = s.tag := by rw [hscope]; rfl
  have hsnapshots : s.nextInScope.2.snapshots = s.snapshots := by rw [hscope]; rfl
  unfold blankLineEvents
  split
  · rename_i hstart
    rw [if_pos hstart] at htaken
    exact records_scope (.ok ()) htag hsnapshots htaken
  · rename_i hstart
    rw [if_neg hstart] at htaken
    exact records_reads htag hsnapshots (Nat.le_of_eq htaken.symm)

/-- Reading with a scope for blank lines makes moves of the stream. -/
theorem moves_nextInScope {allowed : Action → Prop} (s : Stream) :
    Moves allowed s s.nextInScope.2 := by
  have hnext : Moves allowed s s.next.2 := moves_onLexer Lexer.next s.lexer.moves_next
  have htaken := s.taken_nextInScope
  obtain ⟨taken, hscope⟩ := nextInScope_eq s
  have hafter : s.nextInScope.2 = { s.next.2 with taken := taken } := by rw [hscope]
  rw [hafter] at htaken ⊢
  have hvalue : taken = if s.atLineStart then s.taken + 1 else s.taken := htaken
  rw [hvalue]
  split
  · exact hnext.tail .look
  · exact hnext

/-! ## The places of the snapshots -/

/-- The places of the open snapshots do not decrease from the outermost to the innermost,
and none is beyond the cursor. -/
structure Ordered (s : Stream) : Prop where
  places : s.snapshots.Pairwise fun inner outer =>
    outer.saved.cursor.offset ≤ inner.saved.cursor.offset
  reached : ∀ x ∈ s.snapshots, x.saved.cursor.offset ≤ s.lexer.cursor.offset

theorem ordered_ofSource (tag : Nat) (source : Text) : (Stream.ofSource tag source).Ordered :=
  ⟨List.Pairwise.nil, fun _ h => absurd h List.not_mem_nil⟩

end Stream

/-- A lexer moves forward only. -/
theorem Lexer.Move.offset_le {lx after : Lexer} (h : lx.Move after) :
    lx.cursor.offset ≤ after.cursor.offset := by
  cases h with
  | @skip n hn =>
    show lx.cursor.offset ≤ (lx.cursor.skip n).offset
    rw [Cursor.offset_skip hn]
    omega
  | closeBlock | openBlock => exact Nat.le_refl _

namespace Stream.Ordered

variable {s after : Stream} {allowed : Action → Prop}

theorem move (h : s.Ordered) (hmove : Move allowed s after) : after.Ordered := by
  cases hmove with
  | @lexer lx hlexer =>
    refine ⟨h.places, fun x hx => ?_⟩
    have hbefore := h.reached x hx
    have hforward := hlexer.offset_le
    show x.saved.cursor.offset ≤ lx.cursor.offset
    omega
  | force | look => exact ⟨h.places, h.reached⟩
  | capture =>
    refine ⟨List.pairwise_cons.2 ⟨h.reached, h.places⟩, fun x hx => ?_⟩
    rcases List.mem_cons.1 hx with rfl | hx
    · exact Nat.le_refl _
    · exact h.reached x hx
  | release hsnapshots =>
    obtain ⟨hplaces, hreached⟩ := h
    rw [hsnapshots] at hplaces hreached
    exact ⟨(List.pairwise_cons.1 hplaces).2, fun x hx => hreached x (List.mem_cons_of_mem _ hx)⟩
  | rewind hsnapshots =>
    -- The snapshots below are no further than the place that the stream is taken back to.
    have hplaces := h.places
    rw [hsnapshots] at hplaces
    have hbelow := List.pairwise_cons.1 (List.pairwise_append.1 hplaces).2.1
    exact ⟨hbelow.2, hbelow.1⟩

theorem moves (h : s.Ordered) (hmoves : Moves allowed s after) : after.Ordered := by
  induction hmoves with
  | refl => exact h
  | tail _ hmove ih => exact ih.move hmove

end Stream.Ordered

/-! ## Sessions and their histories -/

namespace Session

open History

/-- What a restore or a release records: it closes its snapshot if it succeeds. -/
def closingEvents (w : Session) (i : Nat) (name : Text)
    (close : Stream → Snapshot → Except Fault Stream) : History :=
  match w.names.lookup name with
  | none => []
  | some x =>
    match close (w.stream i) x with
    | .ok _ => [.closed i x]
    | .error _ => []

/-- What an action records.  A look ahead is a scope of its own. -/
def events (w : Session) (i : Nat) : Action → History
  | .capture _ => [.captured i (w.stream i).capture.1]
  | .restore name => w.closingEvents i name Stream.restore
  | .release name => w.closingEvents i name Stream.release
  | .peek offset =>
    match offset.toNat? with
    | some k =>
      [Stream.scopeEnd i (w.stream i).capture.1 ((w.stream i).peek k).1,
        .captured i (w.stream i).capture.1]
    | none => []
  | .next | .tryNext | .iterate _ | .depth | .innermost _ | .commit | .throw _ | .advance
  | .peekUnit _ | .atEnd | .indent | .pushIndent _ | .consume _ | .read _ => []

/-- The sessions that any operations lead to, from the start of some sources, and what has
happened to their snapshots by then.  A scope may be left with any snapshot at all. -/
inductive Traced (sources : List Text) : History → Session → Prop
  | start : Traced sources [] (ofSources sources)
  | act {log : History} {w : Session} (i : Nat) (action : Action) (h : Traced sources log w) :
      Traced sources (w.events i action ++ log) (w.perform i action).2
  | enter {log : History} {w : Session} (i : Nat) (h : Traced sources log w) :
      Traced sources ([.captured i (w.stream i).capture.1] ++ log)
        (w.setStream i (w.stream i).capture.2)
  | leave {log : History} {w : Session} (i : Nat) (x : Snapshot) (committed : Bool)
      (h : Traced sources log w) :
      Traced sources ([Stream.scopeEnd i x ((w.stream i).leave x committed).1] ++ log)
        (w.setStream i ((w.stream i).leave x committed).2)
  | abandon {log : History} {w : Session} (i : Nat) (x : Snapshot) (h : Traced sources log w) :
      Traced sources ([.threw i x] ++ log) (w.setStream i ((w.stream i).abandon x))
  | consume {log : History} {w : Session} (i : Nat) (p : CodeUnit → Bool)
      (h : Traced sources log w) :
      Traced sources log (w.setStream i ((w.stream i).consume p))
  /-- Reading that looks for a blank line in a scope of its own. -/
  | nextInScope {log : History} {w : Session} (i : Nat) (h : Traced sources log w) :
      Traced sources ((w.stream i).blankLineEvents i ++ log)
        (w.setStream i (w.stream i).nextInScope.2)

/-- Every stream of a session has its ledger. -/
def Ledgers (w : Session) (log : History) : Prop :=
  ∀ i < w.streams.length, (w.stream i).Ledger i log

section Ledgers

variable {w : Session} {log : History} (h : w.Ledgers log)
include h

/-- What one stream records has no part in the ledgers of the others. -/
theorem ledgers_setStream {i : Nat} {events : History} {after : Stream}
    (hrecords : Stream.Records i (w.stream i) events after) :
    (w.setStream i after).Ledgers (events ++ log) := by
  intro j hj
  rw [length_setStream] at hj
  by_cases hij : i = j
  · subst hij
    rw [stream_setStream_self hj]
    exact hrecords.ledger log (h i hj)
  · rw [stream_setStream_of_ne hij]
    have hother : ∀ e ∈ events, e.stream ≠ j := by
      intro e he
      rw [hrecords.here e he]
      exact hij
    clear hrecords
    induction events with
    | nil => exact h j hj
    | cons e events ih =>
      obtain ⟨hfirst, hrest⟩ := List.forall_mem_cons.1 hother
      exact (ih hrest).other hfirst

theorem ledgers_closing {i : Nat} {name : Text} {close : Stream → Snapshot → Except Fault Stream}
    (hclose : ∀ {s after x}, close s x = .ok after → Stream.Records i s [.closed i x] after) :
    (w.closing i name close).2.Ledgers (w.closingEvents i name close ++ log) := by
  unfold closing closingEvents
  cases w.names.lookup name with
  | none => exact h
  | some x =>
    dsimp only
    cases hresult : close (w.stream i) x with
    | error fault => exact h
    | ok after => exact ledgers_setStream h (hclose hresult)

theorem ledgers_perform (i : Nat) (action : Action) :
    (w.perform i action).2.Ledgers (w.events i action ++ log) := by
  have hreads := fun lx => ledgers_setStream h (Stream.records_lexer i (w.stream i) lx)
  cases action with
  | next | advance | pushIndent | consume | read => exact hreads _
  | iterate limit => cases limit <;> exact hreads _
  | tryNext => exact ledgers_setStream h (Stream.records_tryNext i _)
  | peek offset =>
    unfold perform events
    dsimp only
    cases offset.toNat? with
    | none => exact h
    | some k => exact ledgers_setStream h (Stream.records_peek i _ k)
  | capture name => exact ledgers_setStream h (Stream.records_capture i _)
  | innermost name =>
    unfold perform
    dsimp only
    split <;> exact h
  | restore name => exact ledgers_closing h Stream.records_restore
  | release name => exact ledgers_closing h Stream.records_release
  | depth | commit | throw | peekUnit | atEnd | indent => exact h

end Ledgers

/-- At the start no snapshot has been taken. -/
theorem ledgers_ofSources (sources : List Text) : (ofSources sources).Ledgers [] := by
  intro i hi
  have hlength : i < sources.length := by simpa [ofSources] using hi
  rw [stream_ofSources_of_getElem? (List.getElem?_eq_getElem hlength)]
  exact .ofSource i _

namespace Traced

variable {sources : List Text} {log : History} {w : Session}

theorem ledgers (h : Traced sources log w) : w.Ledgers log := by
  induction h with
  | start => exact ledgers_ofSources sources
  | act i action _ ih => exact ledgers_perform ih i action
  | enter i _ ih => exact ledgers_setStream ih (Stream.records_capture i _)
  | leave i x committed _ ih => exact ledgers_setStream ih (Stream.records_leave i _ x committed)
  | abandon i x _ ih => exact ledgers_setStream ih (Stream.records_abandon i _ x)
  | consume i p _ ih => exact ledgers_setStream ih (Stream.records_lexer i _ _)
  | nextInScope i _ ih => exact ledgers_setStream ih (Stream.records_nextInScope i _)

/-- The operations are moves of each stream. -/
theorem moves (h : Traced sources log w) (j : Nat) :
    Stream.Moves (fun _ => True) ((ofSources sources).stream j) (w.stream j) := by
  induction h with
  | start => exact .refl
  | act i action _ ih => exact ih.trans (moves_perform _ i trivial j)
  | enter i _ ih => exact ih.trans (moves_setStream (.single .capture) j)
  | leave i x committed _ ih =>
    exact ih.trans (moves_setStream (Stream.moves_leave _ x committed) j)
  | abandon i x _ ih => exact ih.trans (moves_setStream (Stream.moves_abandon _ x) j)
  | consume i p _ ih => exact ih.trans (moves_setStream (Stream.moves_consume _ p) j)
  | nextInScope i _ ih => exact ih.trans (moves_setStream (Stream.moves_nextInScope _) j)

theorem ordered (h : Traced sources log w) (i : Nat) : (w.stream i).Ordered := by
  obtain ⟨tag, source, hstart⟩ := stream_ofSources sources i
  have hordered := Stream.ordered_ofSource tag source
  rw [← hstart] at hordered
  exact hordered.moves (h.moves i)

/-- Whatever moves a session makes, its history goes on. -/
theorem reaches {allowed : Action → Prop} {after : Session} (h : Traced sources log w)
    (hreaches : Reaches allowed w after) : ∃ more, Traced sources (more ++ log) after := by
  induction hreaches with
  | refl => exact ⟨[], h⟩
  | @tail v _ _ hmove ih =>
    obtain ⟨more, hmore⟩ := ih
    cases hmove with
    | @act i action =>
      refine ⟨v.events i action ++ more, ?_⟩
      rw [List.append_assoc]
      exact hmore.act i action
    | enter i => exact ⟨_ :: more, hmore.enter i⟩
    | leave i x committed => exact ⟨_ :: more, hmore.leave i x committed⟩
    | abandon i x => exact ⟨_ :: more, hmore.abandon i x⟩

end Traced

/-! ## Closing -/

/-- What the refusal to close a snapshot says of it. -/
def refusal (x : Snapshot) (snapshots : List Snapshot) : Context :=
  [("reason", .text (if x ∈ snapshots then "a later snapshot is still open"
    else "snapshot is not open on this lexer"))]

/-- How an attempt to close a snapshot ends: it succeeds on the innermost open snapshot of
the stream, and fails on every other one with nothing changed. -/
structure ClosesInnermost (w : Session) (i : Nat) (x : Snapshot)
    (attempt : Except Failure Answer × Session) : Prop where
  succeeds : attempt.1 = .ok .done ↔ (w.stream i).snapshots.head? = some x
  fails : (w.stream i).snapshots.head? ≠ some x →
    attempt.2 = w ∧ ∃ fault, attempt.1 = .error (.fault fault) ∧
      fault.code.id = "SCN-C003" ∧ fault.context = some (refusal x (w.stream i).snapshots)

theorem context_snapshotOrder (place : Location) (x : Snapshot) (snapshots : List Snapshot) :
    (Fault.snapshotOrder place (if x ∈ snapshots then .laterStillOpen else .notOpen)).context =
      some (refusal x snapshots) := by
  unfold refusal
  split <;> rfl

theorem closesInnermost_closing {w : Session} {name : Text} {x : Snapshot}
    {close : Stream → Snapshot → Except Fault Stream} (i : Nat)
    (hname : w.names.lookup name = some x)
    (hinnermost : ∀ {s : Stream} {below}, s.snapshots = x :: below → ∃ after, close s x = .ok after)
    (hother : ∀ {s : Stream}, s.snapshots.head? ≠ some x →
      close s x = .error (.snapshotOrder s.lexer.cursor.location
        (if x ∈ s.snapshots then .laterStillOpen else .notOpen))) :
    w.ClosesInnermost i x (w.closing i name close) := by
  unfold closing
  rw [hname]
  by_cases hhead : (w.stream i).snapshots.head? = some x
  · obtain ⟨below, hbelow⟩ := List.head?_eq_some_iff.1 hhead
    obtain ⟨after, hafter⟩ := hinnermost hbelow
    refine ⟨?_, fun hne => absurd hhead hne⟩
    dsimp only
    rw [hafter]
    exact iff_of_true rfl hhead
  · dsimp only
    rw [hother hhead]
    exact ⟨iff_of_false (by simp) hhead,
      fun _ => ⟨rfl, _, rfl, rfl, context_snapshotOrder _ _ _⟩⟩

/-- What the snapshots of a session owe to its history. -/
structure Disciplined (w : Session) (log : History) : Prop where
  /-- The open snapshots are those that were taken, less those closed and those that a
  failed scope abandoned, in the order in which they were taken. -/
  opened : ∀ i < w.streams.length, (w.stream i).snapshots = openOn i log
  nodup : ∀ i < w.streams.length, (w.stream i).snapshots.Nodup
  ordered : ∀ i, (w.stream i).Ordered
  restores : ∀ i name x, w.names.lookup name = some x →
    w.ClosesInnermost i x (w.perform i (.restore name))
  releases : ∀ i name x, w.names.lookup name = some x →
    w.ClosesInnermost i x (w.perform i (.release name))
  /-- A snapshot is closed at most once, on the stream where it was taken. -/
  once : ∀ i < w.streams.length, ∀ x, .closed i x ∈ log →
    log.count (.closed i x) = 1 ∧ .captured i x ∈ log ∧
      ∀ j < w.streams.length, .closed j x ∈ log → j = i

theorem Ledgers.captured_of_closed {w : Session} {log : History} (h : w.Ledgers log) {i : Nat}
    (hi : i < w.streams.length) {x : Snapshot} (hclosed : .closed i x ∈ log) :
    log.count (.closed i x) = 1 ∧ x ∈ capturedOn i log := by
  have hcount : 0 < log.count (.closed i x) := List.count_pos_iff.2 hclosed
  have hle := count_closed_le i log x
  have honce := List.nodup_iff_count_le_one.1 (h i hi).once x
  have hgone : x ∈ goneOn i log := List.count_pos_iff.1 (by omega)
  exact ⟨by omega, (h i hi).gone x hgone⟩

/-- Whatever is done to the streams of a session, in any order and in scopes within scopes,
their snapshots keep the discipline; a script takes the session and its history on. -/
theorem snapshots_disciplined {sources : List Text} {log : History} {w : Session}
    (h : Traced sources log w) :
    w.Disciplined log ∧
      ∀ committed steps, ∃ more,
        Traced sources (more ++ log) (Script.runAll w committed steps).session := by
  have hledgers := h.ledgers
  refine ⟨⟨?_, ?_, h.ordered, ?_, ?_, ?_⟩, ?_⟩
  · intro i hi
    exact (hledgers i hi).snapshots
  · intro i hi
    rw [(hledgers i hi).snapshots]
    exact (hledgers i hi).nodup_openOn
  · intro i name x hname
    exact closesInnermost_closing i hname
      (fun hbelow => ⟨_, Stream.restore_eq_ok_iff.2 ⟨_, hbelow, rfl⟩⟩) Stream.restore_of_ne
  · intro i name x hname
    exact closesInnermost_closing i hname
      (fun hbelow => ⟨_, Stream.close_eq_ok_iff.2 ⟨_, hbelow, rfl⟩⟩) Stream.close_of_ne
  · intro i hi x hclosed
    obtain ⟨hcount, hcaptured⟩ := hledgers.captured_of_closed hi hclosed
    refine ⟨hcount, mem_capturedOn.1 hcaptured, fun j hj hclosed' => ?_⟩
    -- The snapshot names the one stream where it was taken.
    have hother := (hledgers.captured_of_closed hj hclosed').2
    rw [← ((hledgers j hj).numbered x hother).1, ((hledgers i hi).numbered x hcaptured).1]
  · intro committed steps
    exact h.reaches (Script.runAll_reaches w committed steps
      (Script.usesAll_of_forall (fun _ => trivial) steps))

/-- A snapshot on each of two streams, and a scope on the first that takes another one, reads
and fails: only the first snapshot is left there, and the second stream refuses it. -/
theorem snapshots_disciplined_two_streams :
    let sources : List Text := [[0x61, 0x20, 0x62], [0x63]]
    let start := ofSources sources
    let first := (start.perform 0 (.capture [0x6F])).2
    let both := (first.perform 1 (.capture [0x70])).2
    let body : List Script :=
      [.act 0 false (.capture [0x71]), .act 0 false .next, .act 0 false (.throw [])]
    let after := (Script.runAll both false [.peeking 0 true body]).session
    (after.stream 0).snapshots = (first.stream 0).snapshots ∧
      (after.stream 0).lexer = (start.stream 0).lexer ∧
      after.ClosesInnermost 0 (start.stream 0).capture.1 (after.perform 0 (.release [0x6F])) ∧
      after.ClosesInnermost 1 (start.stream 0).capture.1 (after.perform 1 (.release [0x6F])) ∧
      (after.stream 1).snapshots.head? ≠ some (start.stream 0).capture.1 := by
  intro sources start first both body after
  have hboth : Traced sources _ both :=
    (Traced.start.act 0 (.capture [0x6F])).act 1 (.capture [0x70])
  obtain ⟨-, hruns⟩ := snapshots_disciplined hboth
  obtain ⟨more, hafter⟩ := hruns false [.peeking 0 true body]
  have hreleases := (snapshots_disciplined hafter).1.releases
  have hname : after.names.lookup [0x6F] = some (start.stream 0).capture.1 := by decide +kernel
  exact ⟨by decide +kernel, by decide +kernel, hreleases 0 _ _ hname, hreleases 1 _ _ hname,
    by decide +kernel⟩

end Session

end SceneTokens
