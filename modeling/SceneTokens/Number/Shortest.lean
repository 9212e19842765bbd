import SceneTokens.Number.Basic

/-!
# The fewest digits that read back

A positive number is written with the fewest decimal digits that denote it.  The
decimals that denote `m · 2 ^ e` fill the interval between the midpoints to its
two neighbours, ends included exactly when `m` is even.  For one digit, two
digits and so on, up to the seventeen that always suffice, the two decimals next
to the number on that grid are tried; of two hits the nearer one is taken, and
the even one if both are equally near.
-/

namespace SceneTokens.Number

/-- A positive number with its interval, all as numerators over one denominator. -/
structure Interval where
  low : Nat
  value : Nat
  high : Nat
  den : Nat
  closed : Bool

/-- The interval of the reals that round to `m · 2 ^ e`.  Below a power of two the
numbers lie twice as close, so there the lower end is half as far away. -/
def Interval.ofNumber (m : Nat) (e : Int) : Interval :=
  let narrow := m == pow2 52 && leastExponent < e
  let scale := if 2 ≤ e then pow2 (e - 2).toNat else 1
  { low := (4 * m - (if narrow then 1 else 2)) * scale
    value := 4 * m * scale
    high := (4 * m + 2) * scale
    den := if 2 ≤ e then 1 else pow2 (2 - e).toNat
    closed := m % 2 == 0 }

/-- Whether `num / den` lies in the interval. -/
def Interval.holds (i : Interval) (num den : Nat) : Bool :=
  let a := num * i.den
  if i.closed then i.low * den ≤ a && a ≤ i.high * den
  else i.low * den < a && a < i.high * den

/-- A positive decimal `digits · 10 ^ exponent`. -/
structure Decimal where
  digits : Nat
  exponent : Int
  deriving DecidableEq, Repr

/-- The places of the fraction before its first digit, for a positive number below
one; `fuel` bounds their number. -/
def leadingPlaces (num den : Nat) : Nat → Nat
  | 0 => 0
  | fuel + 1 => if den ≤ num * 10 then 0 else leadingPlaces (num * 10) den fuel + 1

/-- The exponent `k` of the least power with `num / den < 10 ^ k`. -/
def magnitude (num den : Nat) : Int :=
  if den ≤ num then (Nat.toDigits 10 (num / den)).length
  else -(leadingPlaces num den 400 : Int)

/-- The decimal of the interval on the grid of `10 ^ k`, if one of the two next to
the value is in it. -/
def Interval.onGrid (i : Interval) (k : Int) : Option Decimal :=
  let up := if 0 ≤ k then pow10 k.toNat else 1
  let down := if 0 ≤ k then 1 else pow10 (-k).toNat
  let below := i.value * down / (i.den * up)
  let hitBelow := below != 0 && i.holds (below * up) down
  let hitAbove := i.holds ((below + 1) * up) down
  let twice := 2 * (i.value * down)
  let middle := (2 * below + 1) * up * i.den
  match hitBelow, hitAbove with
  | true, false => some ⟨below, k⟩
  | false, true => some ⟨below + 1, k⟩
  | true, true =>
    if twice < middle || (twice == middle && below % 2 == 0) then some ⟨below, k⟩
    else some ⟨below + 1, k⟩
  | false, false => none

/-- The decimal of fewest digits that denotes the positive number `m · 2 ^ e`.
Seventeen digits always suffice, so the search does not come to its default. -/
def shortest (m : Nat) (e : Int) : Decimal :=
  let i := Interval.ofNumber m e
  let k := magnitude i.value i.den
  ((List.range 17).findSome? fun n : Nat => i.onGrid (k - (n + 1))).getD ⟨0, 0⟩

end SceneTokens.Number
