import SceneTokens.Lexer.Basic

/-!
# Block structure

What happens at the start of a line.  A line of whitespace only is one `newline`
token and has no structure; whitespace that runs into the end of the source is
passed over.  On any other line the leading run of spaces and tabs is compared
with the run of the innermost block:

* a comment behind a run is not compared at all;
* a run that disagrees with the block at a place that both reach is a fault;
* a shorter run closes the innermost block and leaves the cursor at the line start,
  so the same line is measured again against the next block;
* a longer run opens a block;
* an equal run stays in the block.

At the end of the source every open block is closed, one token at a time.
-/

namespace SceneTokens

open CodeUnit

/-! ## Lines and runs -/

/-- What the text ahead is, up to the next line feed. -/
inductive LineShape
  /-- Whitespace only; the width includes the line feed. -/
  | blank (width : Nat)
  /-- Whitespace only, and no line feed before the end of the source. -/
  | trailing (width : Nat)
  /-- Something else. -/
  | filled
  deriving DecidableEq, Repr

/-- Whitespace that does not end a line. -/
def CodeUnit.isBlank (u : CodeUnit) : Bool := isSpace u && u != lineFeed

/-- The shape of the line at the head of a text. -/
def LineShape.of (t : Text) : LineShape :=
  let gap := t.takeWhile isBlank
  match t.drop gap.length with
  | [] => .trailing gap.length
  | u :: _ => if u == lineFeed then .blank (gap.length + 1) else .filled

/-- The first place that two runs both reach and where they differ. -/
def Text.divergence? : Text → Text → Option Nat
  | a :: as, b :: bs => if a == b then (divergence? as bs).map (· + 1) else some 0
  | _, _ => none

namespace Lexer

/-! ## Line starts -/

/-- Compares the leading run of a filled line with the innermost block. -/
def readIndentation (lx : Lexer) : Step (Option Token) :=
  let c := lx.cursor
  let run := c.run isHorizontal
  let width := run.length
  if (c.rest.drop width).head? == some hash then (.ok none, lx)
  else
    match run.divergence? lx.indent with
    | some i =>
      let span : Span := ⟨c.location, c.locationAhead width⟩
      (.error (.inconsistentIndentation span (c.locationAhead i) lx.indent run), lx)
    | none =>
      if width < lx.indent.length then
        let (token, outer) := lx.dedent
        (.ok (some token), outer)
      else if lx.indent.length < width then
        (.ok (some (c.cut .indent width)), (lx.skip width).openBlock run)
      else (.ok none, lx.skip width)

/-- Handles the start of a filled line.  A line without a leading run closes the innermost
block, whatever it begins with. -/
def readFilledLine (lx : Lexer) : Step (Option Token) :=
  if (lx.cursor.rest.head?.any fun u => !isHorizontal u) && !lx.blocks.isEmpty then
    let (token, outer) := lx.dedent
    (.ok (some token), outer)
  else lx.readIndentation

/-- Handles the start of a line.  There is a token if the line is blank or opens or
closes a block. -/
def readLineStart (lx : Lexer) : Step (Option Token) :=
  match LineShape.of lx.cursor.rest with
  | .blank width => (.ok (some (lx.cursor.cut .newline width)), lx.skip width)
  | .trailing width => (.ok none, lx.skip width)
  | .filled => lx.readFilledLine

/-! ## The end of the source -/

/-- Closes the innermost block, or marks the end when only the top level is open. -/
def readEndOfInput (lx : Lexer) : Token × Lexer :=
  if lx.blocks.isEmpty then (lx.cursor.mark .endOfStream [], lx) else lx.dedent

end Lexer

end SceneTokens
