import SceneTokens.Proofs.Reach

/-!
# Scopes on every way out

Whatever runs in a scope, the snapshot of the scope is found in one of two places
afterwards (`Above`): it is open with the snapshots of the entry right below it, or it is
closed and stays so.  Both follow from what a single move does to the snapshots
(`Stream.Move.snapshots_cases`): it takes one with a new number, or drops some of the
innermost ones.

Main statement: `scope_rewinds`.
-/

namespace SceneTokens

open Relation

variable {allowed : Action → Prop}

/-! ## New numbers -/

namespace Stream

/-- The next snapshot will have a number that no open one has. -/
def Fresh (s : Stream) : Prop := ∀ y ∈ s.snapshots, y.serial < s.taken

/-- A move takes one snapshot more, or drops innermost ones. -/
theorem Move.snapshots_cases {s after : Stream} (h : Move allowed s after) :
    after = s.capture.2 ∨ after.snapshots <:+ s.snapshots := by
  cases h with
  | capture => exact .inl rfl
  | @release x below h =>
    refine .inr ?_
    rw [h]
    exact List.suffix_cons x below
  | @rewind x later below h =>
    refine .inr ?_
    rw [h]
    exact (List.suffix_cons x below).trans (List.suffix_append later _)
  | lexer | force | look => exact .inr (List.suffix_refl _)

theorem Move.taken_le {s after : Stream} (h : Move allowed s after) : s.taken ≤ after.taken := by
  cases h with
  | look | capture => exact Nat.le_succ _
  | lexer | force | release | rewind => exact Nat.le_refl _

theorem Fresh.capture {s : Stream} (h : s.Fresh) : s.capture.2.Fresh := by
  intro y hy
  show y.serial < s.taken + 1
  rcases List.mem_cons.1 hy with rfl | hy
  · exact Nat.lt_succ_self s.taken
  · exact Nat.lt_succ_of_lt (h y hy)

theorem Fresh.move {s after : Stream} (h : s.Fresh) (hmove : Move allowed s after) :
    after.Fresh := by
  rcases hmove.snapshots_cases with rfl | hsuffix
  · exact h.capture
  · intro y hy
    exact Nat.lt_of_lt_of_le (h y (hsuffix.subset hy)) hmove.taken_le

theorem Fresh.moves {s after : Stream} (h : s.Fresh) (hmoves : Moves allowed s after) :
    after.Fresh := by
  induction hmoves with
  | refl => exact h
  | tail _ hmove ih => exact ih.move hmove

theorem Fresh.capture_notMem {s : Stream} (h : s.Fresh) : s.capture.1 ∉ s.snapshots := by
  intro hmem
  exact Nat.lt_irrefl s.taken (h _ hmem)

/-! ## The snapshot of a scope -/

/-- What becomes of a snapshot `x` that was taken on top of others: it is open with just
these below it, or it is closed.  Its number is in use either way. -/
structure Above (x : Snapshot) (below : List Snapshot) (t : Stream) : Prop where
  used : x.serial < t.taken
  place : (∃ later, x ∉ later ∧ t.snapshots = later ++ x :: below) ∨ x ∉ t.snapshots

theorem above_capture (s : Stream) : Above s.capture.1 s.snapshots s.capture.2 :=
  ⟨Nat.lt_succ_self s.taken, .inl ⟨[], List.not_mem_nil, rfl⟩⟩

theorem notMem_cons_capture {x : Snapshot} {t : Stream} {l : List Snapshot}
    (hused : x.serial < t.taken) (h : x ∉ l) : x ∉ t.capture.1 :: l := by
  intro hmem
  rcases List.mem_cons.1 hmem with rfl | hmem
  · exact Nat.lt_irrefl t.taken hused
  · exact h hmem

/-- To drop innermost snapshots is to stay above `x` or to close it. -/
theorem place_of_suffix {x : Snapshot} {later below l : List Snapshot} (hbelow : x ∉ below)
    (hlater : x ∉ later) (h : l <:+ later ++ x :: below) :
    (∃ later', x ∉ later' ∧ l = later' ++ x :: below) ∨ x ∉ l := by
  induction later with
  | nil =>
    rcases List.suffix_cons_iff.1 h with rfl | h
    · exact .inl ⟨[], List.not_mem_nil, rfl⟩
    · exact .inr fun hmem => hbelow (h.subset hmem)
  | cons y later ih =>
    rcases List.suffix_cons_iff.1 h with rfl | h
    · exact .inl ⟨y :: later, hlater, rfl⟩
    · exact ih (fun hmem => hlater (List.mem_cons_of_mem y hmem)) h

/-- A closed snapshot stays closed. -/
theorem notMem_of_move {x : Snapshot} {t after : Stream} (hused : x.serial < t.taken)
    (h : x ∉ t.snapshots) (hmove : Move allowed t after) : x ∉ after.snapshots := by
  rcases hmove.snapshots_cases with rfl | hsuffix
  · exact notMem_cons_capture hused h
  · exact fun hmem => h (hsuffix.subset hmem)

theorem Above.move {x : Snapshot} {below : List Snapshot} {t after : Stream}
    (hbelow : x ∉ below) (h : Above x below t) (hmove : Move allowed t after) :
    Above x below after := by
  have hused : x.serial < after.taken := Nat.lt_of_lt_of_le h.used hmove.taken_le
  rcases h.place with ⟨later, hlater, hplace⟩ | hclosed
  · rcases hmove.snapshots_cases with rfl | hsuffix
    · -- The snapshot taken here has a number of its own, so `x` is not found above its place.
      refine ⟨hused, .inl ⟨t.capture.1 :: later, notMem_cons_capture h.used hlater, ?_⟩⟩
      rw [List.cons_append, ← hplace]
      rfl
    · rw [hplace] at hsuffix
      exact ⟨hused, place_of_suffix hbelow hlater hsuffix⟩
  · exact ⟨hused, .inr (notMem_of_move h.used hclosed hmove)⟩

theorem Above.moves {x : Snapshot} {below : List Snapshot} {t after : Stream}
    (hbelow : x ∉ below) (h : Above x below t) (hmoves : Moves allowed t after) :
    Above x below after := by
  induction hmoves with
  | refl => exact h
  | tail _ hmove ih => exact ih.move hbelow hmove

end Stream

namespace Session

theorem Reachable.fresh {w : Session} (h : w.Reachable allowed) (i : Nat) :
    (w.stream i).Fresh := by
  obtain ⟨sources, hreaches⟩ := h
  obtain ⟨tag, source, hstart⟩ := stream_ofSources sources i
  have hfresh : ((ofSources sources).stream i).Fresh := by
    rw [hstart]
    intro y hy
    cases hy
  exact hfresh.moves (hreaches.stream i)

theorem setStream_stream_self (w : Session) (i : Nat) : w.setStream i (w.stream i) = w := by
  rcases Nat.lt_or_ge i w.streams.length with hlt | hge
  · simp [setStream, stream, hlt]
  · exact setStream_of_le hge

/-- A number without a stream has no open snapshots. -/
theorem lt_length_of_mem_snapshots {w : Session} {i : Nat} {x : Snapshot}
    (h : x ∈ (w.stream i).snapshots) : i < w.streams.length := by
  by_contra hge
  have hnone : w.streams[i]? = none := List.getElem?_eq_none (Nat.le_of_not_lt hge)
  rw [stream, hnone] at h
  cases h

end Session

/-! ## The ways out -/

namespace Script

variable {t : Stream} {x : Snapshot} {later below : List Snapshot}

theorem exit_of_failure (committed : Bool) (failure : Failure) (hlater : x ∉ later)
    (hplace : t.snapshots = later ++ x :: below) :
    exit t x committed (some failure) =
      (.error failure, { t with lexer := x.saved, snapshots := below }) := by
  unfold exit
  rw [Stream.abandon_of_split hplace hlater]

theorem exit_of_innermost (committed : Bool) (hplace : t.snapshots = x :: below) :
    exit t x committed none =
      (.ok .done, { t with
        lexer := if committed then t.lexer else x.saved
        snapshots := below }) := by
  unfold exit
  rw [Stream.leave_of_innermost committed hplace]
  rfl

theorem exit_of_buried (committed : Bool) (hlater : x ∉ later)
    (hplace : t.snapshots = later ++ x :: below) (hne : later ≠ []) :
    exit t x committed none =
      (.error (.fault (.snapshotOrder t.lexer.cursor.location .laterStillOpen)),
        { t with lexer := x.saved, snapshots := below }) := by
  unfold exit
  rw [Stream.leave_of_buried committed hplace hlater hne]
  rfl

theorem exit_of_closed (committed : Bool) (failure : Option Failure) (h : x ∉ t.snapshots) :
    exit t x committed failure =
      (.error (failure.getD (.fault (.snapshotOrder t.lexer.cursor.location .notOpen))), t) := by
  unfold exit
  cases failure with
  | none =>
    rw [Stream.leave_of_not_mem committed h]
    rfl
  | some failure =>
    rw [Stream.abandon_of_not_mem h]
    rfl

/-- What a scope entered at `s` owes to its surroundings, where the body led to `inner`
and left the snapshot of the scope open. -/
structure Rewinds (s inner after : Stream) (committed : Bool) (failure : Option Failure)
    (outcome : Except Failure Answer) : Prop where
  /-- The open snapshots are those of the entry. -/
  snapshots : after.snapshots = s.snapshots
  /-- A committed scope that left no later snapshot open keeps what it read. -/
  kept : failure = none → committed = true → inner.snapshots = s.capture.2.snapshots →
    after.lexer = inner.lexer
  /-- Any other scope takes the lexer back. -/
  rewound :
    ¬(failure = none ∧ committed = true ∧ inner.snapshots = s.capture.2.snapshots) →
      after.lexer = s.lexer
  failed : ∀ f, failure = some f → outcome = .error f
  returned : failure = none → inner.snapshots = s.capture.2.snapshots → outcome = .ok .done
  /-- To leave a later snapshot open is an error of its own. -/
  misused : failure = none → inner.snapshots ≠ s.capture.2.snapshots →
    outcome = .error (.fault (.snapshotOrder inner.lexer.cursor.location .laterStillOpen))

theorem rewinds_exit {s inner : Stream} (committed : Bool) (failure : Option Failure)
    (hlater : s.capture.1 ∉ later)
    (hplace : inner.snapshots = later ++ s.capture.1 :: s.snapshots) :
    Rewinds s inner (exit inner s.capture.1 committed failure).2 committed failure
      (exit inner s.capture.1 committed failure).1 := by
  have hinnermost : inner.snapshots = s.capture.2.snapshots ↔ later = [] := by
    rw [hplace]
    exact List.append_left_eq_self
  cases failure with
  | some failure =>
    rw [exit_of_failure committed failure hlater hplace]
    exact {
      snapshots := rfl
      kept := fun h => by cases h
      rewound := fun _ => rfl
      failed := fun f h => by cases h; rfl
      returned := fun h => by cases h
      misused := fun h => by cases h }
  | none =>
    by_cases hnil : later = []
    · have hhead : inner.snapshots = s.capture.1 :: s.snapshots := hinnermost.2 hnil
      rw [exit_of_innermost committed hhead]
      refine ⟨rfl, ?_, ?_, fun f h => (by cases h), fun _ _ => rfl, ?_⟩
      · intro _ hcommitted _
        exact if_pos hcommitted
      · intro hback
        exact if_neg fun hcommitted => hback ⟨rfl, hcommitted, hinnermost.2 hnil⟩
      · intro _ hne
        exact absurd (hinnermost.2 hnil) hne
    · rw [exit_of_buried committed hlater hplace hnil]
      refine ⟨rfl, ?_, fun _ => rfl, fun f h => (by cases h), ?_, fun _ _ => rfl⟩
      · intro _ _ h
        exact absurd (hinnermost.1 h) hnil
      · intro _ h
        exact absurd (hinnermost.1 h) hnil

theorem inside_reaches (w : Session) (i : Nat) (body : List Script) :
    Session.Reaches (fun _ => True) (w.setStream i (w.stream i).capture.2)
      (inside w i body).session :=
  runAll_reaches _ false body (usesAll_of_forall (fun _ => trivial) body)

/-- The body of a scope leaves the snapshot of the scope above those of the entry, or
closes it. -/
theorem above_inside {w : Session} (hw : w.Reachable allowed) {i : Nat}
    (hi : i < w.streams.length) (body : List Script) :
    Stream.Above (w.stream i).capture.1 (w.stream i).snapshots
      ((inside w i body).session.stream i) := by
  have hmoves := (inside_reaches w i body).stream i
  rw [Session.stream_setStream_self hi] at hmoves
  exact (Stream.above_capture (w.stream i)).moves (hw.fresh i).capture_notMem hmoves

theorem length_inside (w : Session) (i : Nat) (body : List Script) :
    (inside w i body).session.streams.length = w.streams.length := by
  rw [(inside_reaches w i body).length_eq, Session.length_setStream]

/-- A scope takes its stream back on every way out but one.  Whatever its body does to any
of the streams, there are two cases.

* The snapshot of the scope is still open: the open snapshots are those of the entry
  again, and so is the state of the lexer, unless the body returned committed and with no
  later snapshot open.
* The body closed it: the scope fails and changes nothing more. -/
theorem scope_rewinds {w : Session} (hw : w.Reachable fun _ => True) (i : Nat)
    (committed caught : Bool) (body : List Script) :
    let s := w.stream i
    let progress := inside w i body
    let inner := progress.session.stream i
    let result := run w committed (.peeking i caught body)
    let after := result.session.stream i
    ∃ outcome,
      result.entries = [.mk outcome (some progress.entries) after.view] ∧
      result.failure = run.escaping caught outcome ∧
      result.committed = committed ∧
      (∀ j, i ≠ j → result.session.stream j = progress.session.stream j) ∧
      (s.capture.1 ∈ inner.snapshots →
        Rewinds s inner after progress.committed progress.failure outcome) ∧
      (s.capture.1 ∉ inner.snapshots →
        result.session = progress.session ∧
          outcome = .error (progress.failure.getD
            (.fault (.snapshotOrder inner.lexer.cursor.location .notOpen)))) := by
  intro s progress inner result after
  have hresult : result = _ := run_peeking w committed caught i body
  have hsession : result.session =
      progress.session.setStream i
        (exit inner s.capture.1 progress.committed progress.failure).2 := by
    rw [hresult]
  refine ⟨(exit inner s.capture.1 progress.committed progress.failure).1, ?_, ?_, ?_, ?_, ?_, ?_⟩
  · show result.entries = [.mk _ _ (result.session.stream i).view]
    rw [hresult]
  · rw [hresult]
  · rw [hresult]
  · intro j hij
    rw [hsession, Session.stream_setStream_of_ne hij]
  · intro hopen
    have hi : i < progress.session.streams.length := Session.lt_length_of_mem_snapshots hopen
    have habove := above_inside hw (length_inside w i body ▸ hi) body
    obtain ⟨later, hlater, hplace⟩ := habove.place.resolve_right (not_not_intro hopen)
    have hafter : after = (exit inner s.capture.1 progress.committed progress.failure).2 := by
      show result.session.stream i = _
      rw [hsession, Session.stream_setStream_self hi]
    rw [hafter]
    exact rewinds_exit progress.committed progress.failure hlater hplace
  · intro hclosed
    rw [hsession, exit_of_closed progress.committed progress.failure hclosed]
    exact ⟨Session.setStream_stream_self progress.session i, rfl⟩

/-- Under an open snapshot a scope reads a token, takes another snapshot, commits, and
returns with that snapshot open: nothing is kept. -/
theorem scope_rewinds_abandoned_capture :
    let w := ((Session.ofSources [[0x61, 0x20, 0x62]]).perform 0 (.capture [0x6F])).2
    let body : List Script :=
      [.act 0 false .next, .act 0 false (.capture [0x70]), .act 0 false .commit]
    let result := run w false (.peeking 0 false body)
    w.Reachable (fun _ => True) ∧
      (result.session.stream 0).snapshots = (w.stream 0).snapshots ∧
      (result.session.stream 0).lexer = (w.stream 0).lexer ∧
      result.failure = some (.fault (.snapshotOrder ⟨1, 1, 1⟩ .laterStillOpen)) := by
  intro w body result
  have hw : w.Reachable fun _ => True := ⟨_, .single (.act 0 trivial)⟩
  obtain ⟨outcome, -, hfailure, -, -, hopen, -⟩ := scope_rewinds hw 0 false false body
  have hrewinds := hopen (by decide +kernel)
  have hburied : ((inside w 0 body).session.stream 0).snapshots ≠
      (w.stream 0).capture.2.snapshots := by decide +kernel
  refine ⟨hw, hrewinds.snapshots, hrewinds.rewound fun h => hburied h.2.2, ?_⟩
  rw [hfailure, hrewinds.misused (by decide +kernel) hburied]
  decide +kernel

end Script

end SceneTokens
