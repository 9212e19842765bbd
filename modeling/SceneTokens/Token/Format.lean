import SceneTokens.Document
import SceneTokens.Token

/-!
# Token listings

Three formats for a list of tokens: one line for each with both ends of its span,
one line for each with its start only, or a structured document.
-/

namespace SceneTokens

/-- The formats of listings and reports. -/
inductive OutputFormat
  | human
  | json
  | compact
  deriving DecidableEq, Repr

namespace OutputFormat

/-- All formats. -/
def all : List OutputFormat := [.human, .json, .compact]

/-- The name of a format in arguments and configurations. -/
def name : OutputFormat → Text
  | .human => "human"
  | .json => "json"
  | .compact => "compact"

/-- The format of a name. -/
def ofName? (t : Text) : Option OutputFormat := all.find? fun f => f.name == t

theorem ofName?_eq_some_iff {t : Text} {format : OutputFormat} :
    ofName? t = some format ↔ t = format.name := by
  constructor
  · intro h
    unfold ofName? at h
    have hname := List.find?_some h
    exact (beq_iff_eq.1 hname).symm
  · rintro rfl
    cases format <;> decide +kernel

end OutputFormat

/-- The structured form of a location. -/
def Location.document (l : Location) : Document :=
  .object [("line", .int l.line), ("column", .int l.column), ("offset", .int l.offset)]

/-- The structured form of a span. -/
def Span.document (s : Span) : Document :=
  .object [("start", s.start.document), ("end", s.stop.document)]

namespace Token

/-- The line of a token with both ends of its span. -/
def line (t : Token) : Text :=
  "<Token: " ++ t.kind.name ++ ", " ++ Text.quoted t.value ++ " (" ++ t.span.start.text ++
    ", " ++ t.span.stop.text ++ ")>"

/-- The line of a token with the start of its span. -/
def compactLine (t : Token) : Text :=
  t.span.start.text ++ " " ++ t.kind.name ++ " " ++ Text.quoted t.value

/-- The structured form of a token. -/
def document (t : Token) : Document :=
  .object [("type", .text t.kind.name), ("value", .text t.value), ("span", t.span.document)]

/-- The listing of tokens in a format. -/
def listing (format : OutputFormat) (tokens : List Token) : Text :=
  match format with
  | .human => Text.unlines (tokens.map line)
  | .json => (Document.array (tokens.map document)).render
  | .compact => Text.unlines (tokens.map compactLine)

end Token

end SceneTokens
