import SceneTokens.Text.Class

/-!
# Reading numerals

The natural that a numeral denotes, in bases up to sixteen.
-/

namespace SceneTokens

/-- The value of a digit in bases up to sixteen. -/
def CodeUnit.digitValue? (u : CodeUnit) : Option Nat :=
  if isDigit u then some (u.toNat - 0x30)
  else if 0x61 ≤ u && u ≤ 0x66 then some (u.toNat - 0x57)
  else if 0x41 ≤ u && u ≤ 0x46 then some (u.toNat - 0x37)
  else none

/-- The natural that a numeral of at least one digit denotes in a base. -/
def Text.natural? (base : Nat) (t : Text) : Option Nat :=
  if t.isEmpty then none
  else
    t.foldl
      (fun acc u => do
        let value ← acc
        let d ← u.digitValue?
        if d < base then some (base * value + d) else none)
      (some 0)

end SceneTokens
