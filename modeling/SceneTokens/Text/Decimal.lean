import SceneTokens.Text.Basic

/-!
# Numerals

Decimal numerals of naturals and integers, without leading zeros, and
hexadecimal numerals of a least width in either letter case.
-/

namespace SceneTokens.Text

open CodeUnit

/-- The unit of a decimal digit. -/
def digit (d : Nat) : CodeUnit := (0x30 + d).toUInt16

/-- The decimal numeral of a natural, without leading zeros. -/
def decimal (n : Nat) : Text :=
  if n < 10 then [digit n] else decimal (n / 10) ++ [digit (n % 10)]

/-- The decimal numeral of an integer, with a sign only below zero. -/
def decimalInt : Int → Text
  | .ofNat n => decimal n
  | .negSucc n => hyphen :: decimal (n + 1)

/-- The letters of a hexadecimal numeral are small or capital. -/
inductive LetterCase
  | lower
  | upper

/-- The unit of a hexadecimal digit. -/
def hexDigit (letters : LetterCase) (d : Nat) : CodeUnit :=
  if d < 10 then digit d
  else
    match letters with
    | .lower => (0x57 + d).toUInt16
    | .upper => (0x37 + d).toUInt16

/-- The hexadecimal numeral of at least `width` digits. -/
def hexadecimal (letters : LetterCase) (width n : Nat) : Text :=
  if n < 16 then List.replicate (width - 1) zero ++ [hexDigit letters n]
  else hexadecimal letters (width - 1) (n / 16) ++ [hexDigit letters (n % 16)]

end SceneTokens.Text
