import SceneTokens.Yaml.Scalar

/-!
# Quoted scalars and line folding

A quoted scalar goes on to its closing quote, over several lines if need be.  Between
apostrophes only a doubled apostrophe is special; between double quotes a backslash
starts an escape.

A scalar over several lines is folded: blanks around a line break are dropped, a single
line break is a space, and empty lines are line breaks.
-/

namespace SceneTokens.Yaml

open CodeUnit

/-! ## Folding -/

/-- Whether every line after the first is empty or has at least `margin` spaces. -/
def isIndented (margin : Nat) (t : Text) : Bool :=
  (Text.lines t).tail.all fun line =>
    (line.dropWhile isHorizontal).isEmpty || margin ≤ (line.takeWhile (· == space)).length

/-- Joins a line to the folded lines after it, where `breaks` empty lines stand between
them. -/
def joinFolded (breaks : Nat) (line rest : Text) : Text :=
  if breaks == 0 then line ++ space :: rest else line ++ List.replicate breaks lineFeed ++ rest

/-- Folds trimmed lines; the first one has been read already. -/
def foldLines (line : Text) (breaks : Nat) : List Text → Text
  | [] => if breaks == 0 then line else joinFolded (breaks - 1) line []
  | next :: rest =>
    if next.isEmpty then foldLines line (breaks + 1) rest
    else joinFolded breaks line (foldLines next 0 rest)

/-- Folds a text over several lines. -/
def fold (t : Text) : Text :=
  match Text.lines t with
  | [] => []
  | [line] => line
  | line :: rest =>
    let inner := rest.dropLast.map (Text.trim isHorizontal)
    let last := (rest.getLast?.getD []).dropWhile isHorizontal
    foldLines (Text.trimEnd isHorizontal line) 0 (inner ++ [last])

/-! ## Apostrophes -/

/-- The text up to the closing apostrophe, and what follows it. -/
def splitSingle : Text → Option (Text × Text)
  | [] => none
  | [u] => if u == apostrophe then some ([], []) else none
  | u :: v :: rest =>
    if u == apostrophe then
      if v == apostrophe then (splitSingle rest).map fun (body, after) => (u :: body, after)
      else some ([], v :: rest)
    else (splitSingle (v :: rest)).map fun (body, after) => (u :: body, after)

/-! ## Double quotes -/

/-- The text up to the closing double quote, escapes and all, and what follows it. -/
def splitDouble : Text → Option (Text × Text)
  | [] => none
  | u :: rest =>
    if u == doubleQuote then some ([], rest)
    else if u == backslash then
      match rest with
      | [] => none
      | v :: more => (splitDouble more).map fun (body, after) => (u :: v :: body, after)
    else (splitDouble rest).map fun (body, after) => (u :: body, after)

/-- The escapes of one unit. -/
def shortEscapes : List (Char × Nat) :=
  [('0', 0x00), ('a', 0x07), ('b', 0x08), ('t', 0x09), ('n', 0x0A), ('v', 0x0B), ('f', 0x0C),
    ('r', 0x0D), ('e', 0x1B), (' ', 0x20), ('"', 0x22), ('/', 0x2F), ('\\', 0x5C), ('N', 0x85),
    ('_', 0xA0), ('L', 0x2028), ('P', 0x2029), ('\t', 0x09)]

/-- The number of hexadecimal digits of a numeric escape. -/
def escapeWidth? (u : CodeUnit) : Option Nat :=
  if u == 0x78 then some 2 else if u == 0x75 then some 4 else if u == 0x55 then some 8 else none

/-- The code point that the first `width` units spell in hexadecimal digits. -/
def escapeValue? (width : Nat) (t : Text) : Option Nat :=
  if t.length < width then none
  else (Text.natural? 16 (t.take width)).filter (· < 0x110000)

/-- Replaces escapes; an unknown one is refused. -/
def unescape (t : Text) : Option Text :=
  match t with
  | [] => some []
  | u :: rest =>
    if u != backslash then (unescape rest).map (u :: ·)
    else
      match rest with
      | [] => none
      | v :: more =>
        match escapeWidth? v with
        | some width =>
          match escapeValue? width more with
          | some value => (unescape (more.drop width)).map (Text.ofCodePoint value ++ ·)
          | none => none
        | none =>
          match shortEscapes.find? fun e => e.1.toNat == v.toNat with
          | some escape => (unescape more).map (Text.ofCodePoint escape.2 ++ ·)
          | none => none
termination_by t.length

/-- Removes escaped line breaks, with the blanks that follow them. -/
def joinEscapedBreaks : Text → Text
  | [] => []
  | [u] => [u]
  | u :: v :: rest =>
    if u == backslash then
      if v == lineFeed then joinEscapedBreaks (rest.dropWhile isHorizontal)
      else u :: v :: joinEscapedBreaks rest
    else u :: joinEscapedBreaks (v :: rest)
termination_by t => t.length
decreasing_by
  · have := (List.dropWhile_sublist isHorizontal (l := rest)).length_le
    simp only [List.length_cons]
    omega
  · simp only [List.length_cons]
    omega
  · simp only [List.length_cons]
    omega

/-- The value of a quoted scalar whose quote has been read, and what follows it.  Its
lines have to be indented by a margin. -/
def quotedScalar (margin : Nat) (quote : CodeUnit) (t : Text) : Option (Text × Text) :=
  if quote == apostrophe then do
    let (body, after) ← splitSingle t
    guard (isIndented margin body)
    return (fold body, after)
  else do
    let (body, after) ← splitDouble t
    guard (isIndented margin body)
    let value ← unescape (fold (joinEscapedBreaks body))
    return (value, after)

end SceneTokens.Yaml
