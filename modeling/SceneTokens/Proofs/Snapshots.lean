import SceneTokens.Stream.Basic

/-!
# Closing snapshots

The open snapshots of a stream are a stack, innermost first, and the snapshot of a scope
is in one of three places when the scope is left.

* It is innermost: it is closed, and the stream stays or is taken back.
* It is open below later ones: leaving fails, and they are all closed with it
  (`abandon_of_split`, `leave_of_buried`).
* It is not open: leaving fails, and nothing changes (`leave_of_not_mem`).
-/

namespace SceneTokens.Stream

/-! ## The innermost snapshot -/

/-- Only the innermost snapshot can be closed. -/
theorem close_eq_ok_iff {s t : Stream} {x : Snapshot} :
    s.close x = .ok t ↔
      ∃ below, s.snapshots = x :: below ∧ t = { s with snapshots := below } := by
  unfold close
  constructor
  · intro h
    split at h
    · rename_i hhead
      cases h
      obtain ⟨below, hbelow⟩ := List.head?_eq_some_iff.1 hhead
      exact ⟨below, hbelow, by rw [hbelow, List.tail_cons]⟩
    · cases h
  · rintro ⟨below, hbelow, rfl⟩
    rw [if_pos (by rw [hbelow, List.head?_cons]), hbelow, List.tail_cons]

/-- The closing of any other snapshot fails, for the reason that it is not open or that a
later one is. -/
theorem close_of_ne {s : Stream} {x : Snapshot} (h : s.snapshots.head? ≠ some x) :
    s.close x =
      .error (.snapshotOrder s.lexer.cursor.location
        (if x ∈ s.snapshots then .laterStillOpen else .notOpen)) := by
  unfold close
  rw [if_neg h]

theorem restore_eq_ok_iff {s t : Stream} {x : Snapshot} :
    s.restore x = .ok t ↔
      ∃ below, s.snapshots = x :: below ∧
        t = { s with lexer := x.saved, snapshots := below } := by
  unfold restore
  constructor
  · intro h
    cases hclose : s.close x with
    | error fault =>
      rw [hclose] at h
      cases h
    | ok after =>
      rw [hclose] at h
      cases h
      obtain ⟨below, hbelow, rfl⟩ := close_eq_ok_iff.1 hclose
      exact ⟨below, hbelow, rfl⟩
  · rintro ⟨below, hbelow, rfl⟩
    rw [close_eq_ok_iff.2 ⟨below, hbelow, rfl⟩]
    rfl

theorem restore_of_ne {s : Stream} {x : Snapshot} (h : s.snapshots.head? ≠ some x) :
    s.restore x =
      .error (.snapshotOrder s.lexer.cursor.location
        (if x ∈ s.snapshots then .laterStillOpen else .notOpen)) := by
  rw [restore, close_of_ne h]
  rfl

/-- A scope whose snapshot is innermost is left without a fault.  The stream stays if the
scope is committed, and is taken back otherwise. -/
theorem leave_of_innermost {s : Stream} {x : Snapshot} {below : List Snapshot} (committed : Bool)
    (h : s.snapshots = x :: below) :
    s.leave x committed =
      (.ok (), { s with lexer := if committed then s.lexer else x.saved, snapshots := below }) := by
  unfold leave
  cases committed with
  | true =>
    rw [if_pos rfl, release, close_eq_ok_iff.2 ⟨below, h, rfl⟩]
    rfl
  | false =>
    rw [if_neg (by decide), restore_eq_ok_iff.2 ⟨below, h, rfl⟩]
    rfl

/-! ## Buried and closed snapshots -/

theorem dropWhile_ne_of_split {x : Snapshot} {later below : List Snapshot} (h : x ∉ later) :
    (later ++ x :: below).dropWhile (· != x) = x :: below := by
  induction later with
  | nil => simp
  | cons y later ih =>
    rw [List.mem_cons, not_or] at h
    have hne : (y != x) = true := bne_iff_ne.2 (Ne.symm h.1)
    rw [List.cons_append, List.dropWhile_cons, if_pos hne]
    exact ih h.2

/-- An abandoned scope closes its snapshot and all later ones, and takes the stream back. -/
theorem abandon_of_split {s : Stream} {x : Snapshot} {later below : List Snapshot}
    (hsplit : s.snapshots = later ++ x :: below) (h : x ∉ later) :
    s.abandon x = { s with lexer := x.saved, snapshots := below } := by
  have hmem : x ∈ s.snapshots := by simp [hsplit]
  rw [abandon, if_pos hmem, hsplit, dropWhile_ne_of_split h, List.tail_cons]

theorem abandon_of_not_mem {s : Stream} {x : Snapshot} (h : x ∉ s.snapshots) :
    s.abandon x = s :=
  if_neg h

/-- Leaving a scope whose snapshot is not innermost fails, and the scope is abandoned. -/
theorem leave_of_ne {s : Stream} {x : Snapshot} (committed : Bool)
    (h : s.snapshots.head? ≠ some x) :
    s.leave x committed =
      (.error (.snapshotOrder s.lexer.cursor.location
        (if x ∈ s.snapshots then .laterStillOpen else .notOpen)), s.abandon x) := by
  unfold leave
  cases committed with
  | true => rw [if_pos rfl, release, close_of_ne h]
  | false => rw [if_neg (by decide), restore_of_ne h]

/-- A scope is left below later snapshots: that fails, they are closed with it, and the
stream is taken back, committed or not. -/
theorem leave_of_buried {s : Stream} {x : Snapshot} {later below : List Snapshot}
    (committed : Bool) (hsplit : s.snapshots = later ++ x :: below) (h : x ∉ later)
    (hlater : later ≠ []) :
    s.leave x committed =
      (.error (.snapshotOrder s.lexer.cursor.location .laterStillOpen),
        { s with lexer := x.saved, snapshots := below }) := by
  have hmem : x ∈ s.snapshots := by simp [hsplit]
  have hhead : s.snapshots.head? ≠ some x := by
    obtain ⟨y, rest, rfl⟩ := List.exists_cons_of_ne_nil hlater
    rw [List.mem_cons, not_or] at h
    simpa [hsplit] using Ne.symm h.1
  rw [leave_of_ne committed hhead, if_pos hmem, abandon_of_split hsplit h]

/-- A scope whose snapshot is closed already cannot be left, and nothing changes. -/
theorem leave_of_not_mem {s : Stream} {x : Snapshot} (committed : Bool) (h : x ∉ s.snapshots) :
    s.leave x committed =
      (.error (.snapshotOrder s.lexer.cursor.location .notOpen), s) := by
  have hhead : s.snapshots.head? ≠ some x := fun hhead => h (List.mem_of_head? hhead)
  rw [leave_of_ne committed hhead, if_neg h, abandon_of_not_mem h]

/-! ## Scopes that leave the snapshots alone -/

/-- A scope whose reading leaves the snapshots as they are passes its outcome on.  What it
read is kept if it succeeded and is committed. -/
theorem peeking_eq {α : Type} (s : Stream) (body : Stream → Except Fault α × Bool × Stream)
    (hkeeps : (body s.capture.2).2.2.snapshots = s.capture.2.snapshots) :
    s.peeking body =
      ((body s.capture.2).1,
        { (body s.capture.2).2.2 with
          lexer :=
            if (body s.capture.2).1.isOk && (body s.capture.2).2.1 then
              (body s.capture.2).2.2.lexer
            else s.lexer
          snapshots := s.snapshots }) := by
  rcases hbody : body s.capture.2 with ⟨fault | value, committed, after⟩
  · rw [hbody] at hkeeps
    have hsplit : after.snapshots = [] ++ s.capture.1 :: s.snapshots := hkeeps
    have hback : after.abandon s.capture.1 = _ := abandon_of_split hsplit (by simp)
    simp only [peeking, hbody, hback]
    rfl
  · rw [hbody] at hkeeps
    have hleave : after.leave s.capture.1 committed = _ := leave_of_innermost committed hkeeps
    simp only [peeking, hbody, hleave]
    rfl

end SceneTokens.Stream
