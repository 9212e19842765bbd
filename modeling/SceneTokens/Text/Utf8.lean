import SceneTokens.Text.Basic

/-!
# Text from bytes

Decoding of UTF-8 that never fails.  Each maximal part of the input that starts
a sequence and cannot be completed becomes one U+FFFD, and so does each byte
that starts none.  A byte order mark is kept.
-/

namespace SceneTokens.Text.Utf8

/-- A sequence that has begun: how many bytes are missing, the value so far, and
the range in which the next byte has to lie. -/
structure Pending where
  missing : Nat
  value : Nat
  least : UInt8
  greatest : UInt8

/-- What a byte does where no sequence is open: it is a code point by itself, it
opens a sequence, or it is invalid. -/
def start (b : UInt8) : Text × Option Pending :=
  let n := b.toNat
  if n < 0x80 then (ofCodePoint n, none)
  else if n < 0xC2 then ([CodeUnit.replacement], none)
  else if n < 0xE0 then ([], some ⟨1, n - 0xC0, 0x80, 0xBF⟩)
  else if n < 0xF0 then
    ([], some ⟨2, n - 0xE0, if n == 0xE0 then 0xA0 else 0x80, if n == 0xED then 0x9F else 0xBF⟩)
  else if n < 0xF5 then
    ([], some ⟨3, n - 0xF0, if n == 0xF0 then 0x90 else 0x80, if n == 0xF4 then 0x8F else 0xBF⟩)
  else ([CodeUnit.replacement], none)

/-- What a byte does inside an open sequence: it continues or completes it, or it
ends it as invalid and is read anew. -/
def resume (p : Pending) (b : UInt8) : Text × Option Pending :=
  if p.least ≤ b && b ≤ p.greatest then
    let value := p.value * 0x40 + (b.toNat - 0x80)
    if p.missing ≤ 1 then (ofCodePoint value, none)
    else ([], some ⟨p.missing - 1, value, 0x80, 0xBF⟩)
  else
    let (units, pending) := start b
    (CodeUnit.replacement :: units, pending)

/-- Decodes the bytes that follow an open sequence, if there is one. -/
def decodeFrom : Option Pending → List UInt8 → Text
  | none, [] => []
  | some _, [] => [CodeUnit.replacement]
  | pending, b :: rest =>
    let (units, next) :=
      match pending with
      | none => start b
      | some p => resume p b
    units ++ decodeFrom next rest

/-- The text of a sequence of bytes. -/
def decode (bytes : List UInt8) : Text := decodeFrom none bytes

end SceneTokens.Text.Utf8
