import SceneTokens.Text.Numeral
import SceneTokens.Value

/-!
# Plain scalars

A plain scalar is null, a boolean, a number or a text, by its spelling alone.
Integers are decimal, octal after `0o` or hexadecimal after `0x`; other numbers have
a point or an exponent, or are the infinities and the one that is not a number.  Any
other spelling is a text.
-/

namespace SceneTokens.Yaml

open CodeUnit

/-! ## Numerals -/

/-- Takes the sign off a numeral. -/
def splitSign : Text → Bool × Text
  | u :: rest =>
    if u == hyphen then (true, rest)
    else if u == plus then (false, rest)
    else (false, u :: rest)
  | [] => (false, [])

/-- The value of an exponent, which may have a sign. -/
def exponent? (t : Text) : Option Int := do
  let (negative, digits) := splitSign t
  let n ← Text.natural? 10 digits
  return if negative then -(n : Int) else n

/-- The number of a decimal numeral: digits with an optional point, and an optional
exponent.  There is a digit before the point, or else one right after it. -/
def decimal? (negative : Bool) (t : Text) : Option Number := do
  let whole := t.takeWhile isDigit
  let afterWhole := t.drop whole.length
  let pointed := afterWhole.head? == some dot
  let afterPoint := if pointed then afterWhole.drop 1 else afterWhole
  let fraction := if pointed then afterPoint.takeWhile isDigit else []
  let rest := afterPoint.drop fraction.length
  guard (!whole.isEmpty || !fraction.isEmpty)
  let digits := (Text.natural? 10 (whole ++ fraction)).getD 0
  let power ←
    match rest with
    | [] => some 0
    | u :: more => if u == 0x65 || u == 0x45 then exponent? more else none
  return Number.ofDecimal negative digits (power - fraction.length)

/-- The number of an integer numeral with a base mark. -/
def based? (t : Text) : Option Number :=
  match Text.dropLeading? "0o" t, Text.dropLeading? "0x" t with
  | some digits, _ => (Text.natural? 8 digits).map fun n => Number.ofInt n
  | none, some digits => (Text.natural? 16 digits).map fun n => Number.ofInt n
  | none, none => none

/-- The number that a plain scalar spells. -/
def number? (t : Text) : Option Number :=
  let (negative, magnitude) := splitSign t
  if [".inf", ".Inf", ".INF"].any fun s => magnitude == Text.ofString s then
    some (.infinite negative)
  else if [".nan", ".NaN", ".NAN"].any fun s => t == Text.ofString s then some .nan
  else (based? t).or (decimal? negative magnitude)

/-! ## Resolution -/

/-- The value that a plain scalar spells. -/
def resolve (t : Text) : Value :=
  if ["", "~", "null", "Null", "NULL"].any fun s => t == Text.ofString s then .null
  else if ["true", "True", "TRUE"].any fun s => t == Text.ofString s then .bool true
  else if ["false", "False", "FALSE"].any fun s => t == Text.ofString s then .bool false
  else
    match number? t with
    | some n => .number n
    | none => .text t

/-- Equality of keys: scalars of the same type and value.  Zero has one value, and what
is not a number equals nothing. -/
def sameKey : Value → Value → Bool
  | .null, .null => true
  | .bool a, .bool b => a == b
  | .text a, .text b => a == b
  | .number (.finite s m e), .number (.finite s' m' e') =>
    (m == 0 && m' == 0) || (s == s' && m == m' && e == e')
  | .number (.infinite s), .number (.infinite s') => s == s'
  | _, _ => false

/-- The name that a key gives its entry; only scalars can be keys. -/
def keyName? : Value → Option Text
  | .null => some []
  | .list _ | .map _ | .tagged _ => none
  | key => key.display

/-- The entries of a mapping, last one first, with the keys they were written with. -/
abbrev Entries := List (Value × Value)

/-- Adds an entry, unless there is one of the same key or the key is no scalar. -/
def Entries.add? (entries : Entries) (key value : Value) : Option Entries := do
  let _ ← keyName? key
  if entries.any fun e => sameKey e.1 key then none else some ((key, value) :: entries)

/-- Puts a value under a name.  A name that is there already keeps its place. -/
def putEntry (entries : Context) (name : Text) (value : Value) : Context :=
  if entries.any (·.1 == name) then
    entries.map fun e => if e.1 == name then (name, value) else e
  else entries ++ [(name, value)]

/-- The mapping of some entries. -/
def Entries.toValue (entries : Entries) : Value :=
  .map <| entries.reverse.foldl (fun acc e => putEntry acc ((keyName? e.1).getD []) e.2) []

end SceneTokens.Yaml
