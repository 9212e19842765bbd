import SceneTokens.Text.Decimal

/-!
# Quoted text

A quoted text stands between double quotes.  Quotes and backslashes are escaped
by a backslash; control units have a short escape or `\u` and four small
hexadecimal digits; so has a surrogate that belongs to no pair.  Everything else
stands for itself, so a quoted text is well formed and holds no line feed.
-/

namespace SceneTokens.Text

open CodeUnit

/-- The escape of a unit by number: `\u` and four small hexadecimal digits. -/
def numericEscape (u : CodeUnit) : Text :=
  ofString "\\u" ++ hexadecimal .lower 4 u.toNat

/-- The quoted form of a unit that is no part of a surrogate pair. -/
def quoteUnit (u : CodeUnit) : Text :=
  if u == doubleQuote then ofString "\\\""
  else if u == backslash then ofString "\\\\"
  else if u == 0x08 then ofString "\\b"
  else if u == tab then ofString "\\t"
  else if u == lineFeed then ofString "\\n"
  else if u == 0x0C then ofString "\\f"
  else if u == carriageReturn then ofString "\\r"
  else if u < 0x20 || isHighSurrogate u || isLowSurrogate u then numericEscape u
  else [u]

/-- The quoted form of a text, without the quotes around it. -/
def quoteBody : Text → Text
  | [] => []
  | [u] => quoteUnit u
  | u :: v :: rest =>
    if isPair u v then u :: v :: quoteBody rest
    else quoteUnit u ++ quoteBody (v :: rest)

/-- A text between double quotes, with escapes. -/
def quoted (t : Text) : Text := doubleQuote :: quoteBody t ++ [doubleQuote]

end SceneTokens.Text
