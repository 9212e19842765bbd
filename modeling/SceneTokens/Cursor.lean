import SceneTokens.Token

/-!
# The cursor

A cursor is a place in a source together with the text on both sides of it.  Its
line, column and offset are counted along as it moves, one unit at a time; a line
feed starts the next line, and nothing else does.

Scanning moves the cursor by `Cursor.skip` only, and `Cursor.cut` is the token of
the units skipped.
-/

namespace SceneTokens

open CodeUnit

/-- A place in a source.  `before` is the text behind it, nearest unit first, and
`rest` the text ahead of it. -/
structure Cursor where
  before : Text
  rest : Text
  line : Nat
  column : Nat
  offset : Nat
  deriving DecidableEq, Repr

namespace Cursor

/-- The cursor at the start of a source. -/
def ofSource (source : Text) : Cursor := ⟨[], source, 1, 0, 0⟩

/-- The whole source around a cursor. -/
def source (c : Cursor) : Text := c.before.reverse ++ c.rest

/-- The location of a cursor. -/
def location (c : Cursor) : Location := ⟨c.line, c.column, c.offset⟩

/-- The location `n` units further along the same line. -/
def locationAhead (c : Cursor) (n : Nat) : Location :=
  ⟨c.line, c.column + n, c.offset + n⟩

/-- Nothing is left ahead of the cursor. -/
def atEnd (c : Cursor) : Bool := c.rest.isEmpty

/-- Moves over one unit; at the end of the source the cursor stays. -/
def advance (c : Cursor) : Cursor :=
  match c.rest with
  | [] => c
  | u :: rest =>
    { before := u :: c.before
      rest := rest
      line := if u == lineFeed then c.line + 1 else c.line
      column := if u == lineFeed then 0 else c.column + 1
      offset := c.offset + 1 }

/-- Moves over `n` units. -/
def skip (c : Cursor) : Nat → Cursor
  | 0 => c
  | n + 1 => c.advance.skip n

/-- The unit at a distance from the cursor, ahead or behind. -/
def peek? (c : Cursor) : Int → Option CodeUnit
  | .ofNat n => c.rest[n]?
  | .negSucc n => c.before[n]?

/-- The units ahead that all belong to a class. -/
def run (c : Cursor) (p : CodeUnit → Bool) : Text := c.rest.takeWhile p

/-- Moves over the units ahead that all belong to a class. -/
def skipWhile (c : Cursor) (p : CodeUnit → Bool) : Cursor := c.skip (c.run p).length

/-- The token of the next `n` units. -/
def cut (c : Cursor) (kind : TokenKind) (n : Nat) : Token :=
  ⟨kind, c.rest.take n, ⟨c.location, (c.skip n).location⟩⟩

/-- A token of no width at the cursor. -/
def mark (c : Cursor) (kind : TokenKind) (value : Text) : Token :=
  ⟨kind, value, Span.point c.location⟩

/-! ## What moving does to the text ahead -/

@[simp]
theorem rest_advance (c : Cursor) : c.advance.rest = c.rest.tail := by
  unfold advance
  split <;> simp [*]

@[simp]
theorem rest_skip (c : Cursor) (n : Nat) : (c.skip n).rest = c.rest.drop n := by
  induction n generalizing c with
  | zero => rfl
  | succ n ih => simp [skip, ih]

end Cursor

end SceneTokens
