import SceneTokens.Lexer.Lexeme

/-!
# Lexer states

A lexer is a cursor and the blocks that are open there.  A block is known by the
indentation run of its lines; the top level has the empty run and is always open,
so only the blocks inside it are stored.
-/

namespace SceneTokens

/-- The state of scanning: a place in the source and the runs of the open blocks,
innermost first. -/
structure Lexer where
  cursor : Cursor
  blocks : List Text
  deriving DecidableEq, Repr

/-- The outcome of a step of scanning, and the state it leaves behind. -/
abbrev Step (α : Type) := Except Fault α × Lexer

namespace Lexer

/-- The state at the start of a source. -/
def ofSource (source : Text) : Lexer := ⟨Cursor.ofSource source, []⟩

/-- The run of the innermost block. -/
def indent (lx : Lexer) : Text := lx.blocks.headD []

/-- The number of open blocks, the top level included. -/
def depth (lx : Lexer) : Nat := lx.blocks.length + 1

/-- The runs of all open blocks, outermost first. -/
def indents (lx : Lexer) : List Text := [] :: lx.blocks.reverse

/-- Opens a block inside the innermost one. -/
def openBlock (lx : Lexer) (run : Text) : Lexer := { lx with blocks := run :: lx.blocks }

/-- Closes the innermost block. -/
def closeBlock (lx : Lexer) : Lexer := { lx with blocks := lx.blocks.tail }

/-- Moves over `n` units. -/
def skip (lx : Lexer) (n : Nat) : Lexer := { lx with cursor := lx.cursor.skip n }

/-- A step that reads at the cursor and leaves the blocks as they are. -/
def onCursor {α : Type} (lx : Lexer) (read : Cursor → Reading α) : Step α :=
  let (outcome, after) := read lx.cursor
  (outcome, { lx with cursor := after })

/-- The marker of a closed block carries the run that is left innermost. -/
def dedent (lx : Lexer) : Token × Lexer :=
  let outer := lx.closeBlock
  (outer.cursor.mark .dedent outer.indent, outer)

end Lexer

end SceneTokens
