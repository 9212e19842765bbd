import SceneTokens.Text.Quoted

/-!
# Structured output

Tokens and diagnostics are also written as JSON.  A `Document` is the value to
write, and `Document.render` lays it out over several lines, two spaces deeper
inside each array and object.  Empty arrays and objects stay on one line.
-/

namespace SceneTokens

/-- A value to write as JSON. -/
inductive Document
  | null
  | int (n : Int)
  | text (t : Text)
  | array (items : List Document)
  | object (fields : List (Text × Document))

namespace Document

open CodeUnit

/-- Rows between an opening and a closing unit, one level deeper than both. -/
def enclose (opening closing : CodeUnit) (depth : Nat) : List Text → Text
  | [] => [opening, closing]
  | rows =>
    let margin := lineFeed :: Text.spaces (2 * (depth + 1))
    opening :: margin ++ (comma :: margin).intercalate rows ++
      lineFeed :: Text.spaces (2 * depth) ++ [closing]

mutual

/-- The text of a document whose first line is `depth` levels deep. -/
def renderAt (depth : Nat) : Document → Text
  | .null => "null"
  | .int n => Text.decimalInt n
  | .text t => Text.quoted t
  | .array items => enclose openBracket closeBracket depth (renderItems (depth + 1) items)
  | .object fields => enclose openBrace closeBrace depth (renderFields (depth + 1) fields)

/-- The texts of the items of an array. -/
def renderItems (depth : Nat) : List Document → List Text
  | [] => []
  | item :: rest => renderAt depth item :: renderItems depth rest

/-- The texts of the fields of an object. -/
def renderFields (depth : Nat) : List (Text × Document) → List Text
  | [] => []
  | (name, value) :: rest =>
    (Text.quoted name ++ colon :: space :: renderAt depth value) :: renderFields depth rest

end

/-- The text of a document. -/
def render (d : Document) : Text := renderAt 0 d

end Document

end SceneTokens
