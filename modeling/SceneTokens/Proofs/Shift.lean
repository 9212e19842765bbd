import SceneTokens.Proofs.Relocation

/-!
# Text before a cursor

Scanning looks ahead only.  A text `p` in front of a source moves every location by the
lines and the units of `p`, and nothing else depends on it, as long as the columns stay
as they are.

* `Cursor.shift`, `Lexer.shift` and so on: a state with more text behind it, and the
  tokens and faults that are read from there.
* `Cursor.mirrors_shift`: the two states have the same text ahead, at shifted places.
* `Lexer.scan_shift`: so a scan behind the text gives the same, shifted.
-/

namespace SceneTokens

open CodeUnit

/-! ## Shifted places -/

/-- The location behind a text `p`, which ends a line. -/
def Location.shift (l : Location) (p : Text) : Location where
  line := l.line + p.count lineFeed
  column := l.column
  offset := l.offset + p.length

def Span.shift (s : Span) (p : Text) : Span := ⟨s.start.shift p, s.stop.shift p⟩

def Token.shift (t : Token) (p : Text) : Token := t.relocate (·.shift p)

/-- A fault at shifted places. -/
def Fault.shift (f : Fault) (p : Text) : Fault := f.relocate (·.shift p)

namespace Fault

variable (f : Fault) (p : Text)

theorem code_shift : (f.shift p).code = f.code := by cases f <;> rfl

theorem context_shift : (f.shift p).context = f.context := by cases f <;> rfl

theorem location_shift : (f.shift p).location = f.location.shift p := by cases f <;> rfl

theorem span_shift : (f.shift p).span = f.span.map (·.shift p) := by cases f <;> rfl

end Fault

/-! ## Cursors -/

namespace Cursor

/-- The cursor with a text in front of its source. -/
def shift (c : Cursor) (p : Text) : Cursor :=
  { c with
    before := c.before ++ p.reverse
    line := c.line + p.count lineFeed
    offset := c.offset + p.length }

variable (c : Cursor) (p : Text)

@[simp]
theorem rest_shift : (c.shift p).rest = c.rest := rfl

@[simp]
theorem column_shift : (c.shift p).column = c.column := rfl

@[simp]
theorem location_shift : (c.shift p).location = c.location.shift p := by
  simp [location, shift, Location.shift]

theorem advance_shift : (c.shift p).advance = c.advance.shift p := by
  unfold advance
  rw [rest_shift]
  cases c.rest with
  | nil => rfl
  | cons u rest =>
    by_cases hu : (u == lineFeed) = true
    · simp [shift, hu]
      omega
    · simp [shift, hu]
      omega

@[simp]
theorem skip_shift (n : Nat) : (c.shift p).skip n = (c.skip n).shift p := by
  induction n generalizing c with
  | zero => rfl
  | succ n ih => rw [skip, skip, advance_shift, ih]

theorem mirrors_shift : c.Mirrors (·.shift p) (c.shift p) := by
  refine ⟨rfl, ?_, ?_⟩
  · intro n _
    rw [skip_shift, location_shift]
  · intro n _
    rw [skip_shift, column_shift]

end Cursor

/-! ## Steps and scans -/

namespace Lexer

/-- The state with a text in front of its source. -/
def shift (lx : Lexer) (p : Text) : Lexer := { lx with cursor := lx.cursor.shift p }

theorem mirrors_shift (lx : Lexer) (p : Text) : lx.Mirrors (·.shift p) (lx.shift p) :=
  ⟨lx.cursor.mirrors_shift p, rfl⟩

end Lexer

/-- A scan behind a text. -/
def Scan.shift (s : Scan) (p : Text) : Scan :=
  ⟨s.tokens.map (·.shift p), s.fault.map (·.shift p), s.final.shift p⟩

/-- To scan behind a text is to scan without it and to shift what was read. -/
theorem Lexer.scan_shift (lx : Lexer) (p : Text) : (lx.shift p).scan = lx.scan.shift p := by
  obtain ⟨n, -, hfinal, hscan⟩ := scan_relocate (lx.mirrors_shift p)
  have hcursor : (lx.shift p).cursor.skip n = lx.scan.final.cursor.shift p := by
    rw [hfinal]
    exact lx.cursor.skip_shift p n
  rw [hscan, hcursor]
  rfl

end SceneTokens
