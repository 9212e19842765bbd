import SceneTokens.Yaml.Flow

/-!
# Block structure

A document is read line by line.  A node belongs to the block whose lines are indented
less, its parent; it is a sequence if its first line begins with a dash, a mapping if
that line begins with a key and a colon, and a scalar or a flow collection otherwise.

An item of a sequence is read with its dash replaced by a space, so that the rest of its
line is the first line of a node that is indented deeper.

The readers take a bound on the number of their calls; the size of the document is more
than enough.
-/

namespace SceneTokens.Yaml

open CodeUnit

/-! ## Lines -/

/-- The number of spaces at the start of a line. -/
def indentOf (line : Text) : Nat := (line.takeWhile (· == space)).length

/-- A line of blanks only. -/
def isEmptyLine (line : Text) : Bool := (line.dropWhile isHorizontal).isEmpty

/-- A line without content: blanks, or a comment behind blanks. -/
def isIdle (line : Text) : Bool :=
  match line.dropWhile isHorizontal with
  | [] => true
  | u :: _ => u == hash

/-- What may follow a node on its line: blanks, or a comment behind a blank. -/
def isTail (t : Text) : Bool :=
  match t.dropWhile isHorizontal with
  | [] => true
  | u :: _ => u == hash && t.head?.any isHorizontal

/-- An item of a sequence begins with a dash before a blank. -/
def startsItem : Text → Bool
  | u :: rest => u == hyphen && startsBlank rest
  | [] => false

/-- The part of a line that belongs to a plain scalar, and what follows it: a colon before
a blank, or a comment, or nothing. -/
def splitPlain (afterBlank : Bool) : Text → Text × Text
  | [] => ([], [])
  | u :: rest =>
    if startsValue false (u :: rest) || (u == hash && afterBlank) then ([], u :: rest)
    else
      let (body, after) := splitPlain (isHorizontal u) rest
      (u :: body, after)

/-- The key at the start of a line, and what follows its colon. -/
def splitKey? : Text → Option (Value × Text)
  | [] => none
  | u :: rest =>
    let found :=
      if isQuote u then (quotedScalar 0 u rest).map fun (key, after) => (.text key, after)
      else if startsValue false (u :: rest) then some (.null, u :: rest)
      else if startsPlain (u :: rest) then
        let (body, after) := splitPlain false (u :: rest)
        some (resolve (Text.trimEnd isHorizontal body), after)
      else none
    found.bind fun (key, after) =>
      let after := after.dropWhile isHorizontal
      if startsValue false after then some (key, after.drop 1) else none

/-! ## Scalars -/

/-- The lines of a plain scalar after its first one, trimmed, and the lines that remain.  It
ends before a comment and before a line that is not indented more than its parent, and it
must not hold a key. -/
def plainLines? (parent : Int) : List Text → Option (List Text × List Text)
  | [] => some ([], [])
  | line :: rest =>
    if isEmptyLine line then
      (plainLines? parent rest).map fun (more, after) =>
        if more.isEmpty then ([], line :: after) else ([] :: more, after)
    else if (indentOf line : Int) ≤ parent || isIdle line then some ([], line :: rest)
    else
      let (body, after) := splitPlain true (line.dropWhile isHorizontal)
      let own := Text.trimEnd isHorizontal body
      match after with
      | [] => (plainLines? parent rest).map fun (more, tail) => (own :: more, tail)
      | u :: _ => if u == hash then some ([own], rest) else none

/-- Reads a plain scalar that begins on a line. -/
def plainScalar? (parent : Int) (first : Text) (lines : List Text) :
    Option (Value × List Text) := do
  guard (startsPlain first)
  let (body, after) := splitPlain false first
  let own := Text.trimEnd isHorizontal body
  match after with
  | [] =>
    let (more, rest) ← plainLines? parent lines
    return (resolve (foldLines own 0 more), rest)
  | u :: _ => if u == hash then some (resolve own, lines) else none

/-- What becomes of the line breaks at the end of a block scalar. -/
inductive Chomping
  | clip
  | strip
  | keep
  deriving DecidableEq, Repr

/-- The indicators of a block scalar: an indentation, if it is given, and the chomping. -/
def indicators? (t : Text) : Option (Option Nat × Chomping) :=
  let body := t.takeWhile fun u => !isHorizontal u
  if !isTail (t.drop body.length) then none
  else
    body.foldl
      (fun acc u => do
        let (indent, chomping) ← acc
        if u == hyphen && chomping == .clip then some (indent, .strip)
        else if u == plus && chomping == .clip then some (indent, .keep)
        else if 0x31 ≤ u && u ≤ 0x39 && indent.isNone then
          some (some (u.toNat - 0x30), chomping)
        else none)
      (some (none, .clip))

/-- Folds the lines of a block scalar: a line break between two lines that begin at the
margin is a space, or disappears before empty lines. -/
def foldBlock : List Text → Text
  | [] => []
  | [line] => line
  | line :: next :: rest =>
    let flush (l : Text) : Bool := !l.isEmpty && !(l.head?.any isHorizontal)
    if flush line && flush next then line ++ space :: foldBlock (next :: rest)
    else if flush line && next.isEmpty && (rest.find? fun l => !l.isEmpty).any flush then
      line ++ foldBlock (next :: rest)
    else line ++ lineFeed :: foldBlock (next :: rest)

/-- Reads a block scalar whose indicator has been read. -/
def blockScalar? (parent : Int) (folded : Bool) (header : Text) (lines : List Text) :
    Option (Value × List Text) := do
  let (given, chomping) ← indicators? header
  let least := (parent + 1).toNat
  let found := (lines.find? fun line => !isEmptyLine line).map indentOf
  let margin := (given.map fun n => parent.toNat + n).getD (max least (found.getD least))
  let body := lines.takeWhile fun line => isEmptyLine line || margin ≤ indentOf line
  let rest := lines.drop body.length
  let rows := body.map fun line => line.drop margin
  let kept := (rows.reverse.dropWhile (·.isEmpty)).reverse
  let trailing := rows.length - kept.length
  let text := if folded then foldBlock kept else Text.unlines kept
  let ending : Text :=
    match chomping with
    | .strip => []
    | .clip => if kept.isEmpty then [] else [lineFeed]
    | .keep =>
      if kept.isEmpty then List.replicate trailing lineFeed
      else List.replicate (trailing + 1) lineFeed
  return (.text (text ++ ending), rest)

/-- Ends a node that was read as one text: the rest of its line must be empty. -/
def endLine? (value : Value) (rest : Text) : Option (Value × List Text) :=
  match Text.lines rest with
  | [] => some (value, [])
  | tail :: lines => if isTail tail then some (value, lines) else none

/-- Reads a scalar or a flow collection that begins on a line. -/
def inline? (parent : Int) (first : Text) (lines : List Text) : Option (Value × List Text) :=
  match first with
  | [] => none
  | u :: rest =>
    let margin := (parent + 1).toNat
    if u == 0x7C then blockScalar? parent false rest lines
    else if u == 0x3E then blockScalar? parent true rest lines
    else if isQuote u then do
      let (value, after) ← quotedScalar margin u (Text.unlines (rest :: lines))
      endLine? (.text value) after
    else if u == openBracket || u == openBrace then do
      let (value, after) ← Flow.collection? margin (Text.unlines (first :: lines))
      endLine? value after
    else plainScalar? parent first lines

/-! ## Collections -/

mutual

/-- Reads the node of a parent.  The items of a sequence may stand at the indentation of the
parent if the parent is a mapping. -/
def node? (parent : Int) (inMapping : Bool) : Nat → List Text → Option (Value × List Text)
  | 0, _ => none
  | fuel + 1, lines =>
    match lines.dropWhile isIdle with
    | [] => some (.null, [])
    | line :: rest =>
      let indent := indentOf line
      let body := line.drop indent
      if startsItem body && (parent < indent || (inMapping && parent == indent)) then
        items? indent fuel [] (line :: rest)
      else if (indent : Int) ≤ parent then some (.null, line :: rest)
      else
        let content := body.dropWhile isHorizontal
        if startsItem content || (splitKey? content).isSome then
          if content.length == body.length then entries? indent fuel [] (line :: rest) else none
        else inline? parent content rest

/-- Reads the items of a sequence, last one first. -/
def items? (indent : Nat) : Nat → List Value → List Text → Option (Value × List Text)
  | 0, _, _ => none
  | fuel + 1, items, lines =>
    match lines.dropWhile isIdle with
    | [] => some (.list items.reverse, [])
    | line :: rest =>
      let body := line.drop indent
      if indentOf line == indent && startsItem body then do
        let inner := Text.spaces (indent + 1) ++ body.drop 1
        let (item, more) ← node? indent false fuel (inner :: rest)
        items? indent fuel (item :: items) more
      else if indent < indentOf line then none
      else some (.list items.reverse, line :: rest)

/-- Reads the entries of a mapping, last one first. -/
def entries? (indent : Nat) : Nat → Entries → List Text → Option (Value × List Text)
  | 0, _, _ => none
  | fuel + 1, entries, lines =>
    match lines.dropWhile isIdle with
    | [] => some (Entries.toValue entries, [])
    | line :: rest =>
      if indentOf line < indent then some (Entries.toValue entries, line :: rest)
      else if indent < indentOf line then none
      else do
        let body := line.drop indent
        guard (!startsItem body)
        let (key, after) ← splitKey? body
        let (value, more) ←
          if isTail after then node? indent true fuel rest
          else
            let content := after.dropWhile isHorizontal
            if startsItem content || (splitKey? content).isSome then none
            else inline? indent content rest
        entries? indent fuel (← Entries.add? entries key value) more

end

/-! ## Documents -/

/-- A line that begins with a mark before a blank. -/
def isMark (mark : Text) (line : Text) : Bool :=
  (Text.dropLeading? mark line).any startsBlank

/-- The lines of the one document of a text: behind a line of dashes, if there is one, and
up to a line of dots.  A second document is refused. -/
def documentLines? (lines : List Text) : Option (List Text) := do
  let body := lines.takeWhile fun line => !isMark "..." line
  guard ((lines.drop body.length).all fun line => isMark "..." line || isIdle line)
  let opened ←
    match body.dropWhile isIdle with
    | [] => some []
    | line :: rest =>
      if isMark "---" line then do
        let tail := line.drop 3
        let content := tail.dropWhile isHorizontal
        guard (isTail tail || !(startsItem content || (splitKey? content).isSome))
        some ((Text.spaces 3 ++ tail) :: rest)
      else some (line :: rest)
  guard (opened.all fun line => !isMark "---" line)
  return opened

/-- The value of a text that holds at most one document; a text without one is null.  There
is no value if the text is malformed. -/
def parse (t : Text) : Option Value := do
  let body := if t.head? == some byteOrderMark then t.drop 1 else t
  let all := (Text.lines body).map Text.withoutReturn
  let lines := if all.getLast? == some [] then all.dropLast else all
  let document ← documentLines? lines
  let (value, rest) ← node? (-1) false (4 * (t.length + lines.length) + 8) document
  guard (rest.all isIdle)
  return value

end SceneTokens.Yaml
