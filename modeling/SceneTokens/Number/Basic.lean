/-!
# Numbers

The numbers of configurations and contexts are double-precision numbers, held
exactly: a finite number is a sign, a significand and a power of two.  A decimal
numeral denotes the nearest such number, and of two nearest ones the one with an
even significand.

`Number.ofDecimal` reads a decimal, and `Number.toNat?` recognises the natural
numbers.  Nothing here computes with machine floating point, so both are plain
statements about naturals.
-/

namespace SceneTokens

/-- A double-precision number.  `finite s m e` is `± m · 2 ^ e`, with
`m < 2 ^ 53` and `-1074 ≤ e`. -/
inductive Number
  | nan
  | infinite (negative : Bool)
  | finite (negative : Bool) (significand : Nat) (exponent : Int)
  deriving DecidableEq, Repr

namespace Number

/-- A power of two. -/
def pow2 (n : Nat) : Nat := Nat.pow 2 n

/-- A power of ten. -/
def pow10 (n : Nat) : Nat := Nat.pow 10 n

/-- The quotient to the nearest natural, a half to the even one. -/
def roundDiv (num den : Nat) : Nat :=
  let q := num / den
  let r := num % den
  if 2 * r < den || (2 * r == den && q % 2 == 0) then q else q + 1

/-- The least exponent, that of the smallest positive number. -/
def leastExponent : Int := -1074

/-- The greatest exponent of a significand of 53 bits. -/
def greatestExponent : Int := 971

/-- The quotient `num / (den · 2 ^ e)`, as numerator and denominator. -/
def scaled (num den : Nat) (e : Int) : Nat × Nat :=
  if 0 ≤ e then (num, den * pow2 e.toNat) else (num * pow2 (-e).toNat, den)

/-- The exponent at which the quotient of two positive naturals has 53 bits before
the point, unless that is below the least exponent. -/
def exponentOf (num den : Nat) : Int :=
  let guess : Int := (num.log2 : Int) - (den.log2 : Int) - 52
  let (a, b) := scaled num den guess
  max leastExponent (if a < b * pow2 52 then guess - 1 else guess)

/-- The number nearest to `± num / den`, for a positive denominator. -/
def ofQuotient (negative : Bool) (num den : Nat) : Number :=
  if num == 0 then .finite negative 0 leastExponent
  else
    let e := exponentOf num den
    let (a, b) := scaled num den e
    let m := roundDiv a b
    let (m, e) := if m == pow2 53 then (pow2 52, e + 1) else (m, e)
    if greatestExponent < e then .infinite negative else .finite negative m e

/-- The number nearest to `± digits · 10 ^ exponent`.  A decimal of magnitude
`10 ^ 400` or more is infinite and one below `10 ^ (-400)` is zero, whatever its
digits are, so no larger power is computed. -/
def ofDecimal (negative : Bool) (digits : Nat) (exponent : Int) : Number :=
  let width : Int := (Nat.toDigits 10 digits).length
  if digits == 0 || width + exponent < -400 then .finite negative 0 leastExponent
  else if 400 < width + exponent then .infinite negative
  else if 0 ≤ exponent then ofQuotient negative (digits * pow10 exponent.toNat) 1
  else ofQuotient negative digits (pow10 (-exponent).toNat)

/-- The number of an integer. -/
def ofInt (n : Int) : Number := ofDecimal (n < 0) n.natAbs 0

/-- The natural that a number is, if it is one; a negative zero is zero. -/
def toNat? : Number → Option Nat
  | .finite negative m e =>
    if negative && m != 0 then none
    else if 0 ≤ e then some (m * pow2 e.toNat)
    else if m % pow2 (-e).toNat == 0 then some (m / pow2 (-e).toNat)
    else none
  | _ => none

end Number

end SceneTokens
