import SceneTokens.Cursor
import SceneTokens.Fault
import SceneTokens.Text.Class

/-!
# Lexemes

The readers of single tokens.  Each takes the cursor to the place behind what it
has read, whether it succeeds or fails, and none looks at the text behind the
cursor.

* Comments, integers and identifiers are runs of units of a class.
* A string goes on to the next unit equal to its first one.  A backslash takes the
  unit after it into the string, whatever it is; any other line feed ends the string
  as unterminated.
* A line ends by a line feed or by a carriage return and a line feed.
* A symbol is one code point that is no whitespace.

A reader may be called at any place: a run may be empty, a string may open with
any unit, and a line may end by any unit.
-/

namespace SceneTokens

open CodeUnit

/-- The outcome of a read, and the cursor it leaves behind. -/
abbrev Reading (α : Type) := Except Fault α × Cursor

namespace Cursor

/-! ## Runs -/

/-- Reads the units of a class as one token. -/
def readRun (c : Cursor) (kind : TokenKind) (p : CodeUnit → Bool) : Reading Token :=
  let width := (c.run p).length
  (.ok (c.cut kind width), c.skip width)

/-- Reads up to the end of the line. -/
def readComment (c : Cursor) : Reading Token := c.readRun .comment (!isLineTerminator ·)

/-- Reads digits. -/
def readInteger (c : Cursor) : Reading Token := c.readRun .integer isDigit

/-- Reads the units of an identifier. -/
def readIdentifier (c : Cursor) : Reading Token := c.readRun .identifier isIdentifierPart

/-! ## Strings -/

/-- How the scan of a string ends. -/
inductive StringEnd
  | closed
  | lineBreak
  | exhausted
  deriving DecidableEq, Repr

/-- Scans behind the opening quote of a string.  The result counts the units up to
the one that ends the scan, which is included. -/
def scanString (quote : CodeUnit) : Text → Nat × StringEnd
  | [] => (0, .exhausted)
  | u :: rest =>
    if u == backslash then
      match rest with
      | [] => (1, .exhausted)
      | _ :: rest =>
        let (n, ending) := scanString quote rest
        (n + 2, ending)
    else if u == quote then (1, .closed)
    else if u == lineFeed then (1, .lineBreak)
    else
      let (n, ending) := scanString quote rest
      (n + 1, ending)

/-- Reads a string, whose quote is the unit at the cursor. -/
def readString (c : Cursor) : Reading Token :=
  match c.rest with
  | [] => (.error (.unexpectedEnd c.location), c)
  | quote :: rest =>
    let (n, ending) := scanString quote rest
    let after := c.skip (n + 1)
    match ending with
    | .closed => (.ok (c.cut .string (n + 1)), after)
    | .lineBreak => (.error (.unterminatedString ⟨c.location, after.location⟩), after)
    | .exhausted => (.error (.unfinishedString ⟨c.location, after.location⟩), after)

/-! ## Line ends and symbols -/

/-- Reads the end of a line. -/
def readNewline (c : Cursor) : Reading Token :=
  match c.rest with
  | [] => (.error (.unexpectedEnd c.location), c)
  | u :: rest =>
    if u == carriageReturn then
      if rest.head? == some lineFeed then (.ok (c.cut .newline 2), c.skip 2)
      else (.error (.bareCarriageReturn c.location), c.skip 1)
    else (.ok (c.cut .newline 1), c.skip 1)

/-- Reads one code point. -/
def readSymbol (c : Cursor) : Reading Token :=
  match Text.headSymbol c.rest with
  | [] => (.error (.unexpectedEnd c.location), c)
  | symbol =>
    if Text.isOne isSpace symbol then
      (.error (.unsupportedWhitespace c.location symbol), c)
    else (.ok (c.cut .symbol symbol.length), c.skip symbol.length)

/-- Reads one unit of any kind. -/
def readUnit (c : Cursor) : Reading CodeUnit :=
  match c.rest with
  | [] => (.error (.unexpectedEnd c.location), c)
  | u :: _ => (.ok u, c.advance)

/-- Reads the token that the unit at the cursor begins. -/
def readLexeme (c : Cursor) (u : CodeUnit) : Reading Token :=
  if u == hash then c.readComment
  else if isDigit u then c.readInteger
  else if isIdentifierStart u then c.readIdentifier
  else if isQuote u then c.readString
  else if isLineTerminator u then c.readNewline
  else c.readSymbol

end Cursor

end SceneTokens
