import SceneTokens.Report.ErrorCode

/-!
# The documentation of a code

The documentation is asked for by an identifier in any letter case, with or without
the `SCN-` at its front and with blanks around it.
-/

namespace SceneTokens.ErrorCode

open CodeUnit

/-! ## Reading identifiers -/

/-- The capital form of a unit, for the units whose capital form is made of ASCII letters.
Others cannot be part of an identifier and stand for themselves. -/
def capital (u : CodeUnit) : Text :=
  if 0x61 ≤ u && u ≤ 0x7A then [u - 0x20]
  else if u == 0xDF then "SS"
  else if u == 0x131 then "I"
  else if u == 0x17F then "S"
  else if u == 0xFB00 then "FF"
  else if u == 0xFB01 then "FI"
  else if u == 0xFB02 then "FL"
  else if u == 0xFB03 then "FFI"
  else if u == 0xFB04 then "FFL"
  else if u == 0xFB05 || u == 0xFB06 then "ST"
  else [u]

/-- The identifier that a text means, if it has the form of one. -/
def normalId? (t : Text) : Option Text :=
  let upper := (Text.trim isSpace t).flatMap capital
  let id := if (Text.dropLeading? "SCN-" upper).isSome then upper else "SCN-" ++ upper
  if isWellFormedId id then some id else none

/-! ## Documentation -/

/-- A titled paragraph, after an empty line. -/
def paragraph (title body : Text) : List Text := [[], title ++ ":", "  " ++ body]

/-- The lines of an example. -/
def exampleRows (e : Example) : List Text :=
  ["  " ++ e.description, []] ++ (Text.lines e.code).map (Text.spaces 4 ++ ·)

/-- The examples, separated by empty lines. -/
def examplesRows : List Example → List Text
  | [] => []
  | examples =>
    [[], "Examples:"] ++ ([([] : Text)]).intercalate (examples.map exampleRows)

/-- The documentation of a code. -/
def documentation (code : ErrorCode) : Text :=
  let d := code.definition
  Text.unlines <|
    [code.id ++ " (" ++ code.category.name ++ "): " ++ d.description,
      "Message: " ++ d.template] ++
    paragraph "Cause" d.cause ++ paragraph "Resolution" d.resolution ++ examplesRows d.examples

/-- The documentation that a text asks for, if it names a registered code. -/
def explain? (t : Text) : Option Text :=
  ((normalId? t).bind ofId?).map documentation

/-- The category that a text names by the letter of its identifier. -/
def categoryNamed? (t : Text) : Option Category :=
  (normalId? t).bind fun id => (id[4]?).bind Category.ofLetter?

/-- The answer to a text that names no registered code.  It lists the codes of the
category that the text names, or all codes. -/
def unknownAnswer (t : Text) : Text :=
  let category := categoryNamed? t
  let known := all.filter fun code => category.all (· == code.category)
  let label : Text :=
    match category with
    | some c => "Known " ++ c.name ++ " errors"
    | none => "Known errors"
  "Unknown error ID: " ++ t ++ "\n" ++ label ++ ": " ++
    (Text.ofString ", ").intercalate (known.map id)

end SceneTokens.ErrorCode
