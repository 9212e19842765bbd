import SceneTokens.Lexer.Next

/-!
# Whole sources

Scanning goes on to the end of the stream or to the first fault.  `Lexer.scan`
keeps the tokens read before a fault, and `tokenize` is the list of all tokens of
a source or the fault.
-/

namespace SceneTokens

/-- The tokens of a scan, the fault that stopped it, if any, and the last state. -/
structure Scan where
  tokens : List Token
  fault : Option Fault
  final : Lexer
  deriving DecidableEq, Repr

/-- Puts a token in front of a scan. -/
def Scan.cons (token : Token) (s : Scan) : Scan := { s with tokens := token :: s.tokens }

/-- The tokens of a scan that came to the end of the stream. -/
def Scan.result (s : Scan) : Except Fault (List Token) :=
  match s.fault with
  | some fault => .error fault
  | none => .ok s.tokens

namespace Lexer

/-- Reads up to the end of the stream, which is included, or to the first fault. -/
def scan (lx : Lexer) : Scan :=
  match _ : lx.next with
  | (.error fault, after) => ⟨[], some fault, after⟩
  | (.ok token, after) =>
    if _ : token.kind = .endOfStream then ⟨[token], none, after⟩
    else Scan.cons token after.scan
termination_by lx.weight
decreasing_by apply weight_next_lt <;> assumption

/-- Reads like `scan`, but at most `limit` tokens. -/
def scanUpTo (lx : Lexer) : Nat → Scan
  | 0 => ⟨[], none, lx⟩
  | limit + 1 =>
    match lx.next with
    | (.error fault, after) => ⟨[], some fault, after⟩
    | (.ok token, after) =>
      if token.kind = .endOfStream then ⟨[token], none, after⟩
      else Scan.cons token (after.scanUpTo limit)

end Lexer

/-- The tokens of a source, or why it has none. -/
def tokenize (source : Text) (comments : Bool) : Except Fault (List Token) :=
  (Lexer.ofSource source).scan.result.map (Token.keepComments comments)

end SceneTokens
