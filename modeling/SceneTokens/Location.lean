import SceneTokens.Text.Decimal

/-!
# Locations and spans

A location is a place between two units of a source, given by line, column and
offset.  Lines count from one; columns and offsets count code units from zero.
A span is the half-open region between two locations.
-/

namespace SceneTokens

/-- A place in a source text. -/
structure Location where
  line : Int
  column : Int
  offset : Int
  deriving DecidableEq, Repr

/-- The text `line:column`. -/
def Location.text (l : Location) : Text :=
  Text.decimalInt l.line ++ CodeUnit.colon :: Text.decimalInt l.column

/-- A region of a source text, from its start up to, not including, its stop. -/
structure Span where
  start : Location
  stop : Location
  deriving DecidableEq, Repr

/-- The empty span at a location. -/
def Span.point (l : Location) : Span := ⟨l, l⟩

end SceneTokens
