import SceneTokens.Location

/-!
# Tokens

A token is a kind, the text it stands for and the span it covers.  The markers
of block structure and of the end of the source are tokens as well: an `indent`
carries the new indentation run, and a `dedent` the run that is left innermost.
-/

namespace SceneTokens

/-- The kinds of token. -/
inductive TokenKind
  | endOfStream
  | newline
  | indent
  | dedent
  | comment
  | identifier
  | integer
  | string
  | symbol
  deriving DecidableEq, Repr

namespace TokenKind

/-- All kinds of token. -/
def all : List TokenKind :=
  [.endOfStream, .newline, .indent, .dedent, .comment, .identifier, .integer, .string, .symbol]

/-- The name of a kind in output. -/
def name : TokenKind → Text
  | .endOfStream => "END_OF_STREAM"
  | .newline => "NEWLINE"
  | .indent => "INDENT"
  | .dedent => "DEDENT"
  | .comment => "COMMENT"
  | .identifier => "IDENTIFIER"
  | .integer => "INTEGER"
  | .string => "STRING"
  | .symbol => "SYMBOL"

/-- The kind of a name. -/
def ofName? (t : Text) : Option TokenKind := all.find? fun k => k.name == t

end TokenKind

/-- A token of a source text. -/
structure Token where
  kind : TokenKind
  value : Text
  span : Span
  deriving DecidableEq, Repr

/-- Drops the comments of a token list unless they are wanted. -/
def Token.keepComments (wanted : Bool) (tokens : List Token) : List Token :=
  if wanted then tokens else tokens.filter fun t => t.kind != .comment

end SceneTokens
