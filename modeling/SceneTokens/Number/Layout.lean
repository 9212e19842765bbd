import SceneTokens.Number.Shortest
import SceneTokens.Text.Decimal

/-!
# The text of a number

A number is written with its fewest digits.  The numeral is positional when the
point lies at most twenty-one places after the first digit or at most five zeros
before it, and otherwise has an exponent with a sign.  Whole numbers have no point
and zero has no sign.
-/

namespace SceneTokens.Number

open CodeUnit

/-- Where positional numerals end: the greatest number of places before the point,
and the greatest number of zeros between the point and the first digit. -/
structure Layout where
  wholePlaces : Int
  leadingZeros : Int

/-- Numerals of up to twenty-one places, or with up to five zeros after the point,
are positional. -/
def layout : Layout := ⟨21, 5⟩

/-- The digits of a decimal without trailing zeros, and the place of the point
counted from the first digit. -/
def Decimal.normal (d : Decimal) : Text × Int :=
  let all := Text.decimal d.digits
  let kept := Text.trimEnd (· == zero) all
  (kept, all.length + d.exponent)

/-- The numeral of a positive decimal. -/
def Decimal.text (d : Decimal) : Text :=
  let (digits, point) := d.normal
  let count : Int := digits.length
  if count ≤ point && point ≤ layout.wholePlaces then
    digits ++ List.replicate (point - count).toNat zero
  else if 0 < point && point ≤ layout.wholePlaces then
    digits.take point.toNat ++ dot :: digits.drop point.toNat
  else if -layout.leadingZeros ≤ point && point ≤ 0 then
    zero :: dot :: List.replicate (-point).toNat zero ++ digits
  else
    let fraction := if digits.length ≤ 1 then [] else dot :: digits.drop 1
    let power := point - 1
    let sign := if power < 0 then hyphen else plus
    digits.take 1 ++ fraction ++ 0x65 :: sign :: Text.decimal power.natAbs

/-- The text of a number. -/
def text : Number → Text
  | .nan => "NaN"
  | .infinite negative => if negative then "-Infinity" else "Infinity"
  | .finite negative m e =>
    if m == 0 then [zero]
    else
      let numeral := (shortest m e).text
      if negative then hyphen :: numeral else numeral

end SceneTokens.Number
