import SceneTokens.Number.Layout
import SceneTokens.Stream.Basic

/-!
# Scripts

A script is a finite program of operations on several streams.  Its actions read,
look ahead, take and close snapshots kept under names, and run further scripts in a
scope.  Running a script leaves an entry for every step: its result and the state of
its stream afterwards.

A step that fails ends the scope around it, unless the step is marked as caught; at
the top level every failure is caught.
-/

namespace SceneTokens

/-- Why a step of a script failed. -/
inductive Failure
  /-- Reading failed, or a snapshot was misused. -/
  | fault (f : Fault)
  /-- A look ahead by something other than a natural number. -/
  | peekOffset (offset : Number)
  /-- The script itself failed. -/
  | thrown (message : Text)
  deriving DecidableEq, Repr

/-- The wording of a look ahead that makes no sense. -/
def Failure.peekOffsetMessage (offset : Number) : Text :=
  "Peek offset must be a non-negative integer, got " ++ offset.text

/-- The readers that can be called at any place. -/
inductive Reader
  | comment
  | integer
  | identifier
  | string
  | newline
  | symbol
  | lineStart
  | endOfInput
  | token
  deriving DecidableEq, Repr

/-- Calls a reader. -/
def Reader.read (lx : Lexer) : Reader → Step (Option Token)
  | .comment => always (lx.onCursor Cursor.readComment)
  | .integer => always (lx.onCursor Cursor.readInteger)
  | .identifier => always (lx.onCursor Cursor.readIdentifier)
  | .string => always (lx.onCursor Cursor.readString)
  | .newline => always (lx.onCursor Cursor.readNewline)
  | .symbol => always (lx.onCursor Cursor.readSymbol)
  | .lineStart => lx.readLineStart
  | .endOfInput =>
    let (ending, after) := lx.readEndOfInput
    (.ok (some ending), after)
  | .token => always lx.next
where
  /-- A reader that has a token whenever it succeeds. -/
  always (step : Step Token) : Step (Option Token) := (step.1.map some, step.2)

/-- An operation on one stream. -/
inductive Action
  | next
  | tryNext
  | peek (offset : Number)
  | iterate (limit : Option Nat)
  | depth
  | capture (name : Text)
  | innermost (name : Text)
  | restore (name : Text)
  | release (name : Text)
  | commit
  | throw (message : Text)
  | advance
  | peekUnit (offset : Int)
  | atEnd
  | indent
  | pushIndent (run : Text)
  | consume (units : UnitClass)
  | read (reader : Reader)
  deriving DecidableEq, Repr

/-- A step of a script: an action, or a script in a scope, on the stream of a number. -/
inductive Script
  | act (on : Nat) (caught : Bool) (action : Action)
  | peeking (on : Nat) (caught : Bool) (body : List Script)

/-- What a step that did not fail has to show. -/
inductive Answer
  | done
  | token (t : Option Token)
  | attempt (outcome : Except Fault Token)
  | tokens (ts : List Token)
  | count (n : Nat)
  | flag (b : Bool)
  | text (t : Text)

/-- What can be seen of a stream. -/
structure View where
  location : Location
  indents : List Text
  openSnapshots : Nat
  deriving DecidableEq, Repr

/-- The view of a stream. -/
def Stream.view (s : Stream) : View :=
  ⟨s.lexer.cursor.location, s.lexer.indents, s.snapshots.length⟩

/-- The record of a step: its outcome, the records of the steps in its scope, and the
view of its stream afterwards. -/
inductive Entry
  | mk (outcome : Except Failure Answer) (inner : Option (List Entry)) (view : View)

/-- Several streams, and snapshots under names. -/
structure Session where
  streams : List Stream
  names : List (Text × Snapshot)

namespace Session

/-- One stream for each source. -/
def ofSources (sources : List Text) : Session :=
  ⟨sources.zipIdx.map fun (source, tag) => Stream.ofSource tag source, []⟩

/-- The stream of a number; a number without a stream has an empty one. -/
def stream (w : Session) (i : Nat) : Stream := w.streams[i]?.getD (Stream.ofSource i [])

/-- Replaces the stream of a number. -/
def setStream (w : Session) (i : Nat) (s : Stream) : Session :=
  { w with streams := w.streams.set i s }

/-- Keeps a snapshot under a name. -/
def keep (w : Session) (name : Text) (x : Snapshot) : Session :=
  { w with names := (name, x) :: w.names }

/-- The effect of reading on the stream of a number. -/
def reading {α : Type} (w : Session) (i : Nat) (answer : α → Answer)
    (r : Except Fault α × Stream) : Except Failure Answer × Session :=
  ((r.1.map answer).mapError .fault, w.setStream i r.2)

/-- The effect of closing a snapshot. -/
def closing (w : Session) (i : Nat) (name : Text)
    (close : Stream → Snapshot → Except Fault Stream) : Except Failure Answer × Session :=
  match w.names.lookup name with
  | none => (.error (.thrown "no such snapshot"), w)
  | some x =>
    match close (w.stream i) x with
    | .ok after => (.ok .done, w.setStream i after)
    | .error fault => (.error (.fault fault), w)

/-- Performs an action on the stream of a number.  Committing is the business of the
scope around it. -/
def perform (w : Session) (i : Nat) : Action → Except Failure Answer × Session
  | .next => w.reading i (.token ∘ some) (w.stream i).next
  | .tryNext => w.reading i .attempt (w.stream i).tryNext
  | .peek offset =>
    match offset.toNat? with
    | some k => w.reading i (.token ∘ some) ((w.stream i).peek k)
    | none => (.error (.peekOffset offset), w)
  | .iterate limit =>
    let s := w.stream i
    let scan :=
      match limit with
      | some n => s.lexer.scanUpTo n
      | none => s.lexer.scan
    w.reading i .tokens (scan.result, { s with lexer := scan.final })
  | .depth => (.ok (.count (w.stream i).lexer.depth), w)
  | .capture name =>
    let (x, after) := (w.stream i).capture
    (.ok .done, (w.setStream i after).keep name x)
  | .innermost name =>
    match (w.stream i).snapshots with
    | x :: _ => (.ok .done, w.keep name x)
    | [] => (.ok .done, w)
  | .restore name => w.closing i name Stream.restore
  | .release name => w.closing i name Stream.release
  | .commit => (.ok .done, w)
  | .throw message => (.error (.thrown message), w)
  | .advance =>
    w.reading i (fun u => .text [u]) ((w.stream i).onLexer (·.onCursor Cursor.readUnit))
  | .peekUnit offset =>
    (.ok (.text ((w.stream i).lexer.cursor.peek? offset).toList), w)
  | .atEnd => (.ok (.flag (w.stream i).lexer.cursor.atEnd), w)
  | .indent => (.ok (.text (w.stream i).lexer.indent), w)
  | .pushIndent run =>
    let s := w.stream i
    (.ok .done, w.setStream i { s with lexer := s.lexer.openBlock run })
  | .consume units =>
    let s := w.stream i
    let run := s.lexer.cursor.run units.holds
    (.ok (.text run), w.setStream i { s with lexer := s.lexer.skip run.length })
  | .read reader => w.reading i .token ((w.stream i).onLexer (reader.read ·))

end Session

/-- What running steps gives: the streams, whether the scope around the steps is
committed, the entries, and the failure that ends the scope, if any. -/
structure Progress where
  session : Session
  committed : Bool
  entries : List Entry
  failure : Option Failure

namespace Script

mutual

/-- Runs one step in a scope that may already be committed. -/
def run (w : Session) (committed : Bool) : Script → Progress
  | .act i caught action =>
    let (outcome, after) := w.perform i action
    { session := after
      committed := committed || decide (action = .commit)
      entries := [.mk outcome none (after.stream i).view]
      failure := escaping caught outcome }
  | .peeking i caught body =>
    let (x, entered) := (w.stream i).capture
    let progress := runAll (w.setStream i entered) false body
    let inner := progress.session.stream i
    let (outcome, outer) : Except Failure Answer × Stream :=
      match progress.failure with
      | some failure => (.error failure, inner.abandon x)
      | none =>
        let (left, outer) := inner.leave x progress.committed
        ((left.map fun _ => .done).mapError .fault, outer)
    let after := progress.session.setStream i outer
    { session := after
      committed := committed
      entries := [.mk outcome (some progress.entries) (after.stream i).view]
      failure := escaping caught outcome }
where
  /-- The failure of a step, unless it is caught. -/
  escaping (caught : Bool) : Except Failure Answer → Option Failure
    | .ok _ => none
    | .error failure => if caught then none else some failure

/-- Runs steps up to the first failure that is not caught. -/
def runAll (w : Session) (committed : Bool) : List Script → Progress
  | [] => ⟨w, committed, [], none⟩
  | step :: rest =>
    let first := run w committed step
    match first.failure with
    | some _ => first
    | none =>
      let more := runAll first.session first.committed rest
      { more with entries := first.entries ++ more.entries }

end

/-- Marks a step as caught. -/
def catching : Script → Script
  | .act i _ action => .act i true action
  | .peeking i _ body => .peeking i true body

/-- The entries of a script on the streams of some sources.  No failure ends it. -/
def entries (sources : List Text) (script : List Script) : List Entry :=
  (runAll (Session.ofSources sources) false (script.map catching)).entries

end Script

end SceneTokens
