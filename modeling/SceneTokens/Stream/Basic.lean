import SceneTokens.Lexer.Tokenize

/-!
# Token streams

A stream is a lexer that can be taken back.  A snapshot of a stream remembers the
state of its lexer; while it is open it can be restored, which takes the lexer back,
or released, which keeps what was read since.  Either way it is closed, and only the
innermost open snapshot may be closed.

A scope runs some reading under a snapshot of its own.  It is left by releasing the
snapshot if the scope was committed, and by restoring it otherwise; reading that
fails abandons every snapshot that it left open, and takes the stream back.
-/

namespace SceneTokens

/-- A remembered state.  The stream and the number among its snapshots tell it apart
from every other one. -/
structure Snapshot where
  stream : Nat
  serial : Nat
  saved : Lexer
  deriving DecidableEq, Repr

/-- A lexer with its open snapshots, innermost first.  `taken` counts the snapshots
ever taken. -/
structure Stream where
  tag : Nat
  lexer : Lexer
  snapshots : List Snapshot
  taken : Nat
  deriving DecidableEq, Repr

namespace Stream

/-- The stream of a source, before anything is read. -/
def ofSource (tag : Nat) (source : Text) : Stream := ⟨tag, Lexer.ofSource source, [], 0⟩

/-! ## Reading -/

/-- Takes a step of the lexer. -/
def onLexer {α : Type} (s : Stream) (step : Lexer → Step α) : Except Fault α × Stream :=
  let (outcome, after) := step s.lexer
  (outcome, { s with lexer := after })

/-- Reads the next token. -/
def next (s : Stream) : Except Fault Token × Stream := s.onLexer Lexer.next

/-- Reads the next token; malformed source is an answer and not a failure. -/
def tryNext (s : Stream) : Except Fault (Except Fault Token) × Stream :=
  match s.next with
  | (.ok token, after) => (.ok (.ok token), after)
  | (.error fault, after) =>
    if fault.isLexical then (.ok (.error fault), after) else (.error fault, after)

/-- Reads `k` tokens and then one more, which is the outcome. -/
def nextAfter (s : Stream) : Nat → Except Fault Token × Stream
  | 0 => s.next
  | k + 1 =>
    match s.next with
    | (.ok _, after) => after.nextAfter k
    | (.error fault, after) => (.error fault, after)

/-! ## Snapshots -/

/-- Takes a snapshot and opens it. -/
def capture (s : Stream) : Snapshot × Stream :=
  let snapshot : Snapshot := ⟨s.tag, s.taken, s.lexer⟩
  (snapshot, { s with snapshots := snapshot :: s.snapshots, taken := s.taken + 1 })

/-- Closes the innermost open snapshot, which has to be the given one. -/
def close (s : Stream) (x : Snapshot) : Except Fault Stream :=
  if s.snapshots.head? = some x then .ok { s with snapshots := s.snapshots.tail }
  else
    let misuse : SnapshotMisuse := if x ∈ s.snapshots then .laterStillOpen else .notOpen
    .error (.snapshotOrder s.lexer.cursor.location misuse)

/-- Closes a snapshot and takes the stream back to it. -/
def restore (s : Stream) (x : Snapshot) : Except Fault Stream :=
  (s.close x).map fun after => { after with lexer := x.saved }

/-- Closes a snapshot and keeps everything read since. -/
def release (s : Stream) (x : Snapshot) : Except Fault Stream := s.close x

/-! ## Scopes -/

/-- Leaves a scope after a failure: its snapshot and all later ones are closed, and the
stream is taken back, unless the snapshot is no longer open. -/
def abandon (s : Stream) (x : Snapshot) : Stream :=
  if x ∈ s.snapshots then
    { s with lexer := x.saved, snapshots := (s.snapshots.dropWhile (· != x)).tail }
  else s

/-- Leaves a scope whose reading is done.  It fails if the snapshot of the scope is not
the innermost open one. -/
def leave (s : Stream) (x : Snapshot) (committed : Bool) : Except Fault Unit × Stream :=
  match (if committed then s.release x else s.restore x) with
  | .ok after => (.ok (), after)
  | .error fault => (.error fault, s.abandon x)

/-- Runs some reading in a scope.  The reading also says whether it commits. -/
def peeking {α : Type} (s : Stream) (body : Stream → Except Fault α × Bool × Stream) :
    Except Fault α × Stream :=
  let (x, inner) := s.capture
  match body inner with
  | (.error fault, _, after) => (.error fault, after.abandon x)
  | (.ok value, committed, after) =>
    match after.leave x committed with
    | (.ok (), outer) => (.ok value, outer)
    | (.error fault, outer) => (.error fault, outer)

/-- The token `k` places ahead, without reading anything. -/
def peek (s : Stream) (k : Nat) : Except Fault Token × Stream :=
  s.peeking fun inner =>
    let (outcome, after) := inner.nextAfter k
    (outcome, false, after)

end Stream

end SceneTokens
