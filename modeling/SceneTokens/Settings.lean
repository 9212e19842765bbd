import SceneTokens.Text.Numeral
import SceneTokens.Token.Format
import SceneTokens.Value

/-!
# Settings

How a source is to be shown, as a configuration file says.  A file holds a mapping with
up to three keys, and a key that is absent or null takes its default.  Of several
mistakes the first one is reported: an unknown key, then the format, then the comments,
then the lines around a failure.

A file is read by a reader of documents, which is given.  What it makes of a tag counts as a
mapping as well, one with the keys of the tagged value and none of the settings.
-/

namespace SceneTokens

/-- How tokens and failures are shown. -/
structure Settings where
  format : OutputFormat
  includeComments : Bool
  contextLines : Int
  deriving DecidableEq, Repr

/-- Why a configuration is refused. -/
inductive SettingsError
  | malformed
  | notMapping
  | unknownKey (key : Text)
  | invalidFormat (value : Text)
  /-- The format is wrong, and it cannot be said how. -/
  | formatWithoutText
  | invalidComments
  | invalidContextLines
  deriving DecidableEq, Repr

/-- The greatest number of lines to show around a failure. -/
def maxContextLines : Nat := 10

/-- What is wrong with a configuration, if it can be said. -/
def SettingsError.reason? : SettingsError → Option Text
  | .malformed => some "<yaml>"
  | .notMapping => some "must be a mapping"
  | .unknownKey key => some ("unknown key " ++ key)
  | .invalidFormat value =>
    some ("format \"" ++ value ++ "\" (must be 'human', 'json', or 'compact')")
  | .formatWithoutText => none
  | .invalidComments => some "includeComments must be a boolean"
  | .invalidContextLines =>
    some ("contextLines must be an integer between 0 and " ++ Text.decimal maxContextLines)

/-- The wording of a refused configuration.  If the reason cannot be said, the failure to say
it takes its place. -/
def SettingsError.message (e : SettingsError) : Text :=
  match e.reason? with
  | some reason => "Invalid configuration: " ++ reason
  | none => Value.noTextMessage

namespace Settings

/-- The settings without a configuration. -/
def default : Settings := ⟨.human, true, 2⟩

/-- The keys of a configuration. -/
def keys : List Text := ["format", "includeComments", "contextLines"]

/-! ## The order of keys -/

/-- The number of a key that is the numeral of an index, below `2 ^ 32 - 1`. -/
def index? (key : Text) : Option Nat := do
  let n ← Text.natural? 10 key
  if Text.decimal n == key && n < 4294967295 then some n else none

/-- The entries of a mapping in the order in which they are visited: first those whose keys
are indices, in ascending order, and then the others as they stand. -/
def visitingOrder (entries : Context) : List Text :=
  let keys := entries.map (·.1)
  let indexed := keys.filterMap fun k => (index? k).map fun n => (n, k)
  let sorted := indexed.mergeSort fun a b => a.1 ≤ b.1
  sorted.map (·.2) ++ keys.filter fun k => (index? k).isNone

/-! ## Validation -/

/-- The value under a key, unless it is null.  No member that is inherited has the name of a
setting. -/
def given? (entries : Context) (key : Text) : Option Value :=
  match entries.own? key with
  | none | some .null => none
  | some value => some value

/-- The format of a configuration. -/
def formatOf (entries : Context) : Except SettingsError OutputFormat :=
  match given? entries "format" with
  | none => .ok default.format
  | some value =>
    match value.text?.bind OutputFormat.ofName? with
    | some format => .ok format
    | none =>
      match value.display with
      | some shown => .error (.invalidFormat shown)
      | none => .error .formatWithoutText

/-- Whether a configuration wants comments. -/
def commentsOf (entries : Context) : Except SettingsError Bool :=
  match given? entries "includeComments" with
  | none => .ok default.includeComments
  | some (.bool b) => .ok b
  | some _ => .error .invalidComments

/-- The number of lines around a failure that a configuration wants. -/
def contextLinesOf (entries : Context) : Except SettingsError Int :=
  match given? entries "contextLines" with
  | none => .ok default.contextLines
  | some (.number n) =>
    match n.toNat? with
    | some k => if k ≤ maxContextLines then .ok k else .error .invalidContextLines
    | none => .error .invalidContextLines
  | some _ => .error .invalidContextLines

/-- The settings of entries, with all the keys in the order in which they are visited. -/
def ofEntries (visited : List Text) (entries : Context) : Except SettingsError Settings :=
  match visited.find? fun key => !keys.contains key with
  | some key => .error (.unknownKey key)
  | none => do
    let format ← formatOf entries
    let includeComments ← commentsOf entries
    let contextLines ← contextLinesOf entries
    return ⟨format, includeComments, contextLines⟩

/-- The settings of a configuration value. -/
def ofValue : Value → Except SettingsError Settings
  | .null => .ok default
  | .map entries => ofEntries (visitingOrder entries) entries
  | .tagged object => ofEntries object.keys []
  | _ => .error .notMapping

/-- The settings of a configuration text, by a reader of documents.  The reader gives no value
if the text is malformed. -/
def ofText (document : Text → Option Value) (text : Text) : Except SettingsError Settings :=
  match document text with
  | some value => ofValue value
  | none => .error .malformed

/-- The settings of a configuration file, if there is one. -/
def load? (document : Text → Option Value) (file : Option Text) :
    Except SettingsError (Option Settings) := file.mapM (ofText document)

end Settings

end SceneTokens
