import SceneTokens.Text.Class

/-!
# Error codes

Every failure of scanning has a registered code.  A code belongs to one of two
categories: `lexer` codes say that the source is malformed, `contract` codes that
the input or the caller broke a rule that scanning relies on.  The identifier of a
code shows its category by a letter and numbers the codes of a category from one.

`ErrorCode.definition` is the documentation of a code: a description, the template
of its message, cause, resolution, and examples.
-/

namespace SceneTokens

open CodeUnit

/-- What kind of failure a code stands for. -/
inductive Category
  | lexer
  | contract
  deriving DecidableEq, Repr

namespace Category

/-- The name of a category in messages. -/
def name : Category → Text
  | .lexer => "lexer"
  | .contract => "contract"

/-- The category that a letter of an identifier stands for. -/
def ofLetter? (u : CodeUnit) : Option Category :=
  if u == 0x4C then some .lexer else if u == 0x43 then some .contract else none

end Category

/-- The registered failures. -/
inductive ErrorCode
  | unterminatedString
  | inconsistentIndentation
  | unexpectedEnd
  | bareCarriageReturn
  | unsupportedWhitespace
  | snapshotOrder
  deriving DecidableEq, Repr

/-- A source that shows a failure. -/
structure Example where
  description : Text
  code : Text
  deriving DecidableEq, Repr

/-- The documentation of a code. -/
structure Definition where
  description : Text
  template : Text
  cause : Text
  resolution : Text
  examples : List Example
  deriving DecidableEq, Repr

namespace ErrorCode

/-- All codes, in the order in which they are listed. -/
def all : List ErrorCode :=
  [.unterminatedString, .inconsistentIndentation, .unexpectedEnd,
    .bareCarriageReturn, .unsupportedWhitespace, .snapshotOrder]

/-- The identifier of a code. -/
def id : ErrorCode → Text
  | .unterminatedString => "SCN-L001"
  | .inconsistentIndentation => "SCN-L002"
  | .unexpectedEnd => "SCN-L003"
  | .bareCarriageReturn => "SCN-C001"
  | .unsupportedWhitespace => "SCN-C002"
  | .snapshotOrder => "SCN-C003"

/-- The code of an identifier. -/
def ofId? (t : Text) : Option ErrorCode := all.find? fun c => c.id == t

/-- The category of a code. -/
def category : ErrorCode → Category
  | .unterminatedString | .inconsistentIndentation | .unexpectedEnd => .lexer
  | .bareCarriageReturn | .unsupportedWhitespace | .snapshotOrder => .contract

/-- The documentation of a code. -/
def definition : ErrorCode → Definition
  | .unterminatedString =>
    { description := "Unterminated string literal"
      template := "Unterminated string literal"
      cause := "A line break appeared inside a quoted string before its closing quote."
      resolution :=
        "Close the string on the same line, or escape the line break with a backslash."
      examples := [⟨"Missing closing quote", "text = \"hello\nsize = 12"⟩] }
  | .inconsistentIndentation =>
    { description := "Inconsistent indentation"
      template := "Inconsistent use of tabs and spaces in indentation"
      cause :=
        "The leading whitespace of a line differs from the enclosing block at a column " ++
          "both of them cover."
      resolution :=
        "Indent every line of a block with the same characters. Do not mix tabs and spaces."
      examples := [⟨"Spaces on one line, a tab on the next", "Scene\n  Rect\n\tCircle"⟩] }
  | .unexpectedEnd =>
    { description := "Unexpected end of input"
      template := "Unexpected end of input"
      cause :=
        "The source ended in the middle of a token, e.g. inside a string or right after a " ++
          "backslash."
      resolution := "Complete the token before the end of the file."
      examples := [⟨"String never closed", "label = \"unfinished"⟩] }
  | .bareCarriageReturn =>
    { description := "Bare carriage return"
      template := "Carriage return not followed by line feed"
      cause := "Only \\n and \\r\\n are accepted as line terminators."
      resolution := "Convert the input to \\n or \\r\\n line endings before tokenizing."
      examples := [] }
  | .unsupportedWhitespace =>
    { description := "Unsupported whitespace"
      template := "Unsupported whitespace character \x7bchar\x7d"
      cause :=
        "Whitespace other than space, tab and line terminators appeared outside a string or " ++
          "comment."
      resolution := "Replace the character with a space."
      examples := [] }
  | .snapshotOrder =>
    { description := "Snapshot closed out of order"
      template := "Snapshot closed out of order: \x7breason\x7d"
      cause :=
        "A lexer snapshot was restored or released while a snapshot taken after it was still " ++
          "open, or it was already closed."
      resolution :=
        "Close snapshots in reverse order of capture, or use withSnapshot() to scope them."
      examples := [] }

/-- Whether a text has the form of an identifier: `SCN-`, the letter of a category
and three digits.  The identifier need not be registered. -/
def isWellFormedId (t : Text) : Bool :=
  match Text.dropLeading? "SCN-" t with
  | some [letter, a, b, c] =>
    (Category.ofLetter? letter).isSome && isDigit a && isDigit b && isDigit c
  | _ => false

end ErrorCode

end SceneTokens
