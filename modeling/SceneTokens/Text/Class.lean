import SceneTokens.Text.Basic
import SceneTokens.Text.Decimal

/-!
# Classes of code units

The lexical classes of a scene description.  Letters and digits are those of
ASCII; whitespace is the full set of Unicode spaces and line separators, of
which only the space, the tab and the line terminators may separate tokens.

`UnitClass` names the classes, and `Text.isOne` carries a class over to texts:
it holds of the texts that are a single unit of the class.
-/

namespace SceneTokens

namespace CodeUnit

/-- ASCII digit. -/
def isDigit (u : CodeUnit) : Bool := 0x30 ≤ u && u ≤ 0x39

/-- ASCII letter. -/
def isLetter (u : CodeUnit) : Bool := (0x61 ≤ u && u ≤ 0x7A) || (0x41 ≤ u && u ≤ 0x5A)

/-- A letter, an underscore or a dollar sign. -/
def isIdentifierStart (u : CodeUnit) : Bool := isLetter u || u == underscore || u == dollar

/-- What may follow the first unit of an identifier. -/
def isIdentifierPart (u : CodeUnit) : Bool := isIdentifierStart u || isDigit u

/-- Space or tab, the only units of an indentation run. -/
def isHorizontal (u : CodeUnit) : Bool := u == space || u == tab

/-- Line feed or carriage return. -/
def isLineTerminator (u : CodeUnit) : Bool := u == lineFeed || u == carriageReturn

/-- Any whitespace, line terminators and Unicode spaces included. -/
def isSpace (u : CodeUnit) : Bool :=
  (0x09 ≤ u && u ≤ 0x0D) || u == 0x20 || u == 0xA0 || u == 0x1680 ||
    (0x2000 ≤ u && u ≤ 0x200A) || u == 0x2028 || u == 0x2029 || u == 0x202F ||
    u == 0x205F || u == 0x3000 || u == 0xFEFF

/-- Double quote or apostrophe, either of which opens a string. -/
def isQuote (u : CodeUnit) : Bool := u == doubleQuote || u == apostrophe

end CodeUnit

/-- The classes that scanning asks for. -/
inductive UnitClass
  | digit
  | identifierStart
  | identifierPart
  | horizontal
  | lineTerminator
  | space
  | quote
  deriving DecidableEq, Repr

/-- Membership of a unit in a class. -/
def UnitClass.holds : UnitClass → CodeUnit → Bool
  | .digit => CodeUnit.isDigit
  | .identifierStart => CodeUnit.isIdentifierStart
  | .identifierPart => CodeUnit.isIdentifierPart
  | .horizontal => CodeUnit.isHorizontal
  | .lineTerminator => CodeUnit.isLineTerminator
  | .space => CodeUnit.isSpace
  | .quote => CodeUnit.isQuote

namespace Text

/-- The text is a single unit, and the unit is of the class. -/
def isOne (p : CodeUnit → Bool) : Text → Bool
  | [u] => p u
  | _ => false

/-- Names the first code point as `U+` and at least four hexadecimal digits; an
empty text is named like U+0000. -/
def codePointName (t : Text) : Text :=
  ofString "U+" ++ hexadecimal .upper 4 ((codePoints t).headD 0)

end Text

end SceneTokens
