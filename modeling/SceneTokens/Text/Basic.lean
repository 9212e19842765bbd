/-!
# Text as code units

Offsets, columns and widths of a scene description count sixteen-bit code
units.  A `Text` is therefore a list of code units, and it need not be well
formed: half of a surrogate pair may stand alone anywhere.

There are four groups.

* The units with a meaning of their own, by name.
* Surrogates: which units are halves, which two halves make a pair, and the
  symbol (one code point) at the head of a text.
* Conversions from and to character strings.
* Lines, trimming and padding.
-/

namespace SceneTokens

/-- One sixteen-bit unit of text. -/
abbrev CodeUnit := UInt16

/-- A text is a list of code units, well formed or not. -/
abbrev Text := List CodeUnit

/-! ## Units by name -/

namespace CodeUnit

abbrev tab : CodeUnit := 0x09
abbrev lineFeed : CodeUnit := 0x0A
abbrev carriageReturn : CodeUnit := 0x0D
abbrev space : CodeUnit := 0x20
abbrev doubleQuote : CodeUnit := 0x22
abbrev hash : CodeUnit := 0x23
abbrev dollar : CodeUnit := 0x24
abbrev apostrophe : CodeUnit := 0x27
abbrev plus : CodeUnit := 0x2B
abbrev comma : CodeUnit := 0x2C
abbrev hyphen : CodeUnit := 0x2D
abbrev dot : CodeUnit := 0x2E
abbrev slash : CodeUnit := 0x2F
abbrev zero : CodeUnit := 0x30
abbrev colon : CodeUnit := 0x3A
abbrev openBracket : CodeUnit := 0x5B
abbrev backslash : CodeUnit := 0x5C
abbrev closeBracket : CodeUnit := 0x5D
abbrev caret : CodeUnit := 0x5E
abbrev underscore : CodeUnit := 0x5F
abbrev openBrace : CodeUnit := 0x7B
abbrev closeBrace : CodeUnit := 0x7D
abbrev byteOrderMark : CodeUnit := 0xFEFF
abbrev replacement : CodeUnit := 0xFFFD

/-- First half of a surrogate pair. -/
def isHighSurrogate (u : CodeUnit) : Bool := 0xD800 ≤ u && u ≤ 0xDBFF

/-- Second half of a surrogate pair. -/
def isLowSurrogate (u : CodeUnit) : Bool := 0xDC00 ≤ u && u ≤ 0xDFFF

/-- Two units make one code point when a high half stands before a low one. -/
def isPair (high low : CodeUnit) : Bool := isHighSurrogate high && isLowSurrogate low

/-- The code point of a surrogate pair. -/
def pairValue (high low : CodeUnit) : Nat :=
  0x10000 + (high.toNat - 0xD800) * 0x400 + (low.toNat - 0xDC00)

end CodeUnit

namespace Text

open CodeUnit

/-! ## Code points -/

/-- The units of a code point: one below U+10000, a surrogate pair above. -/
def ofCodePoint (n : Nat) : Text :=
  if n < 0x10000 then [n.toUInt16]
  else
    [(0xD800 + (n - 0x10000) / 0x400).toUInt16, (0xDC00 + (n - 0x10000) % 0x400).toUInt16]

/-- The code points of a text; a half that stands alone counts for itself. -/
def codePoints : Text → List Nat
  | [] => []
  | [u] => [u.toNat]
  | u :: v :: rest =>
    if isPair u v then pairValue u v :: codePoints rest
    else u.toNat :: codePoints (v :: rest)

/-- The symbol at the head of a text: a surrogate pair, or else one unit. -/
def headSymbol : Text → Text
  | [] => []
  | [u] => [u]
  | u :: v :: _ => if isPair u v then [u, v] else [u]

/-- A text is well formed when every surrogate belongs to a pair. -/
def isWellFormed : Text → Bool
  | [] => true
  | [u] => !isHighSurrogate u && !isLowSurrogate u
  | u :: v :: rest =>
    if isPair u v then isWellFormed rest
    else !isHighSurrogate u && !isLowSurrogate u && isWellFormed (v :: rest)

/-! ## Character strings -/

/-- The code units of a character string. -/
def ofString (s : String) : Text := s.toList.flatMap fun c => ofCodePoint c.toNat

instance : Coe String Text := ⟨ofString⟩

/-- The character string of a text; a half that stands alone becomes U+FFFD. -/
def toString (t : Text) : String :=
  String.ofList <| (codePoints t).map fun n =>
    if 0xD800 ≤ n && n ≤ 0xDFFF then Char.ofNat 0xFFFD else Char.ofNat n

/-! ## Lines, trimming and padding -/

/-- The pieces between the occurrences of a unit; `n` occurrences make `n + 1` pieces. -/
def splitOn (mark : CodeUnit) : Text → List Text
  | [] => [[]]
  | u :: rest =>
    if u == mark then [] :: splitOn mark rest
    else
      match splitOn mark rest with
      | [] => [[u]]
      | piece :: more => (u :: piece) :: more

/-- The lines of a text, between its line feeds. -/
def lines (t : Text) : List Text := splitOn lineFeed t

/-- Joins the rows of a listing by line feeds. -/
def unlines (rows : List Text) : Text := [lineFeed].intercalate rows

/-- A line without the carriage return at its end. -/
def withoutReturn (line : Text) : Text :=
  if line.getLast? == some carriageReturn then line.dropLast else line

/-- A text without the units of a class at its end. -/
def trimEnd (p : CodeUnit → Bool) (t : Text) : Text := (t.reverse.dropWhile p).reverse

/-- A text without the units of a class at both ends. -/
def trim (p : CodeUnit → Bool) (t : Text) : Text := trimEnd p (t.dropWhile p)

/-- A run of `n` spaces. -/
def spaces (n : Nat) : Text := List.replicate n space

/-- Pads a text on the left with spaces up to a width. -/
def padLeft (width : Nat) (t : Text) : Text := spaces (width - t.length) ++ t

/-- Whether a text starts with another, and what follows it there. -/
def dropLeading? : Text → Text → Option Text
  | [], t => some t
  | _ :: _, [] => none
  | p :: ps, u :: us => if p == u then dropLeading? ps us else none

end Text

end SceneTokens
