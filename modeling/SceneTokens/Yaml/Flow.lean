import SceneTokens.Yaml.Quoted

/-!
# Flow collections

Sequences between brackets and mappings between braces, with items separated by commas,
of which the last may be followed by one.  Lines inside a collection have to be indented
by a margin, save one that begins with the bracket that closes the outermost collection.

The readers take a bound on the number of their calls; the length of the text is more than
enough.
-/

namespace SceneTokens.Yaml

open CodeUnit

/-- The units that structure flow collections. -/
def isFlowIndicator (u : CodeUnit) : Bool :=
  u == comma || u == openBracket || u == closeBracket || u == openBrace || u == closeBrace

/-- Nothing, or a unit that separates. -/
def startsBlank : Text → Bool
  | [] => true
  | u :: _ => isHorizontal u || u == lineFeed

/-- The place where a plain scalar may begin: not at an indicator, and at `-`, `?` or `:` only
if no blank follows. -/
def startsPlain : Text → Bool
  | [] => false
  | u :: rest =>
    if u == hyphen || u == 0x3F || u == colon then !startsBlank rest
    else
      !(isHorizontal u || u == lineFeed || isFlowIndicator u ||
        (Text.ofString "#&*!|>'\"%@`").contains u)

/-- Whether a value may follow a key here: at a colon before a blank or, inside a flow
collection, before a flow indicator. -/
def startsValue (flow : Bool) : Text → Bool
  | u :: rest => u == colon && (startsBlank rest || (flow && rest.head?.any isFlowIndicator))
  | [] => false

namespace Flow

/-- Passes over blanks, line breaks and comments.  The result is what follows, with the
indentation of its line if that is another line. -/
def skipFrom (spaced comment : Bool) (indent : Option Nat) : Text → Text × Option Nat
  | [] => ([], indent)
  | u :: rest =>
    if u == lineFeed then skipFrom true false (some 0) rest
    else if comment then skipFrom spaced true indent rest
    else if u == space then skipFrom true false (indent.map (· + 1)) rest
    else if u == tab then skipFrom true false indent rest
    else if u == hash && spaced then skipFrom spaced true indent rest
    else (u :: rest, indent)

/-- Passes over what separates the parts of a collection that is `level` deep, and checks
the indentation of the line it comes to. -/
def skip? (margin level : Nat) (t : Text) : Option Text :=
  let (rest, indent) := skipFrom false false none t
  match indent with
  | none => some rest
  | some i =>
    let closes := rest.head?.any fun u => u == closeBracket || u == closeBrace
    if margin ≤ i || (closes && level == 1 && i + 1 == margin) then some rest else none

/-- The number of units of a plain scalar inside a collection. -/
def plainWidth (afterBlank : Bool) : Text → Nat
  | [] => 0
  | u :: rest =>
    if isFlowIndicator u || startsValue true (u :: rest) || (u == hash && afterBlank) then 0
    else plainWidth (isHorizontal u || u == lineFeed) rest + 1

/-- Reads a plain scalar. -/
def plain? (margin : Nat) (t : Text) : Option (Value × Text) := do
  guard (startsPlain t)
  let raw := t.take (plainWidth false t)
  let body := Text.trimEnd (fun u => isHorizontal u || u == lineFeed) raw
  guard (isIndented margin body)
  return (resolve (fold body), t.drop body.length)

mutual

/-- Reads a node inside a collection that is `level` deep. -/
def node? (margin level : Nat) : Nat → Text → Option (Value × Text)
  | 0, _ => none
  | _ + 1, [] => none
  | fuel + 1, u :: rest =>
    if u == openBracket then items? margin (level + 1) fuel [] rest
    else if u == openBrace then entries? margin (level + 1) fuel [] rest
    else if isQuote u then
      (quotedScalar margin u rest).map fun (value, after) => (.text value, after)
    else plain? margin (u :: rest)

/-- Reads a key that may be left out, and then a value that may be, too.  The second part of
the result is missing when there is no colon. -/
def pair? (margin level : Nat) : Nat → Text → Option ((Value × Option Value) × Text)
  | 0, _ => none
  | fuel + 1, t => do
    let tight := t.head?.any fun u => isQuote u || u == openBracket || u == openBrace
    let (key, rest) ← if startsValue true t then some (.null, t) else node? margin level fuel t
    let rest ← skip? margin level rest
    if startsValue true rest || (tight && rest.head? == some colon) then
      let after ← skip? margin level (rest.drop 1)
      if after.head?.any fun u => u == comma || u == closeBracket || u == closeBrace then
        return ((key, some .null), after)
      else
        let (value, after) ← node? margin level fuel after
        return ((key, some value), ← skip? margin level after)
    else return ((key, none), rest)

/-- Reads the items of a sequence, last one first, up to its bracket. -/
def items? (margin level : Nat) : Nat → List Value → Text → Option (Value × Text)
  | 0, _, _ => none
  | fuel + 1, items, t => do
    let t ← skip? margin level t
    if t.head? == some closeBracket then return (.list items.reverse, t.drop 1)
    else
      let ((key, value), rest) ← pair? margin level fuel t
      let item ←
        match value with
        | none => some key
        | some value => (Entries.add? [] key value).map Entries.toValue
      if rest.head? == some comma then items? margin level fuel (item :: items) (rest.drop 1)
      else if rest.head? == some closeBracket then
        return (.list (item :: items).reverse, rest.drop 1)
      else none

/-- Reads the entries of a mapping, last one first, up to its brace. -/
def entries? (margin level : Nat) : Nat → Entries → Text → Option (Value × Text)
  | 0, _, _ => none
  | fuel + 1, entries, t => do
    let t ← skip? margin level t
    if t.head? == some closeBrace then return (Entries.toValue entries, t.drop 1)
    else
      let ((key, value), rest) ← pair? margin level fuel t
      let entries ← Entries.add? entries key (value.getD .null)
      if rest.head? == some comma then entries? margin level fuel entries (rest.drop 1)
      else if rest.head? == some closeBrace then return (Entries.toValue entries, rest.drop 1)
      else none

end

/-- Reads a collection that opens at the head of a text. -/
def collection? (margin : Nat) (t : Text) : Option (Value × Text) :=
  node? margin 0 (3 * t.length + 3) t

end Flow

end SceneTokens.Yaml
