import SceneTokens.Number.Layout

/-!
# Dynamic values

The values that a configuration document or the context of a report can hold.  A value is a
tree: a list that is an item of itself is left out.

`Value.display` is the text of a value inside a message: a list shows its items
separated by commas, nested lists likewise, and a null item shows nothing.  A mapping shows
its kind alone, by a member that it inherits.  An entry `toString` hides that member, and then
neither the mapping nor a list that holds it has a text.

A name leads to the entry of a context, or else to a member that every context inherits.
-/

namespace SceneTokens

/-- What an explicit tag in a document makes of a scalar or a collection. -/
inductive Tagged
  /-- A point in time, with the text that shows it. -/
  | date (shown : Text)
  | set
  | orderedMap
  /-- So many bytes, with the text that shows them. -/
  | bytes (count : Nat) (shown : Text)

/-- The text of a tagged value in a message. -/
def Tagged.display : Tagged → Text
  | .date shown => shown
  | .set => "[object Set]"
  | .orderedMap => "[object Map]"
  | .bytes _ shown => shown

/-- The keys of a tagged value, taken as a mapping: bytes stand under their indices, and what
the other ones hold is not under keys. -/
def Tagged.keys : Tagged → List Text
  | .bytes count _ => (List.range count).map Text.decimal
  | .date _ | .set | .orderedMap => []

/-- A value of a document: a scalar, a list, a mapping in order of insertion, or what a tag
makes. -/
inductive Value
  | null
  | bool (b : Bool)
  | number (n : Number)
  | text (t : Text)
  | list (items : List Value)
  | map (entries : List (Text × Value))
  | tagged (object : Tagged)
  deriving Inhabited

/-- The name of the member that gives the text of a mapping. -/
def Value.textMember : Text := "toString"

namespace Value

mutual

/-- The text of a value in a message, if it has one. -/
def display : Value → Option Text
  | .null => some "null"
  | .bool b => some (if b then "true" else "false")
  | .number n => some n.text
  | .text t => some t
  | .list items => (displayItems items).map fun shown => [CodeUnit.comma].intercalate shown
  | .map entries =>
    if entries.any fun e => e.1 == textMember then none else some "[object Object]"
  | .tagged object => some object.display

/-- The texts of the items of a list, if all of them have one. -/
def displayItems : List Value → Option (List Text)
  | [] => some []
  | .null :: rest => (displayItems rest).map fun more => [] :: more
  | item :: rest => do
    let shown ← display item
    let more ← displayItems rest
    return shown :: more

end

/-- The wording of a failure to show a value that has no text. -/
def noTextMessage : Text := "Cannot convert object to primitive value"

/-- The text that a value is, if it is one. -/
def text? : Value → Option Text
  | .text t => some t
  | _ => none

end Value

/-- Named values, in order of insertion. -/
abbrev Context := List (Text × Value)

/-- What a name leads to in a context: the value of an entry, or an inherited member with the
text that shows it. -/
inductive Property
  | entry (value : Value)
  | inherited (shown : Text)

/-- The text of a property in a message, if it has one. -/
def Property.display : Property → Option Text
  | .entry value => value.display
  | .inherited shown => some shown

namespace Context

/-- The functions that every context inherits under their own names. -/
def inheritedFunctions : List Text :=
  ["__defineGetter__", "__defineSetter__", "hasOwnProperty", "__lookupGetter__",
    "__lookupSetter__", "isPrototypeOf", "propertyIsEnumerable", "toString", "valueOf",
    "toLocaleString"]

/-- The text of a function that is built in. -/
def functionText (name : Text) : Text :=
  "function " ++ name ++ Text.ofString "() \x7b [native code] \x7d"

/-- The text of the member that every context inherits under a name. -/
def inherited? (name : Text) : Option Text :=
  if inheritedFunctions.contains name then some (functionText name)
  else if name == "constructor" then some (functionText "Object")
  else if name == "__proto__" then some "[object Object]"
  else none

/-- The value of the entry with a name. -/
def own? (c : Context) (name : Text) : Option Value := c.lookup name

/-- What a name leads to: its entry, or else an inherited member. -/
def get? (c : Context) (name : Text) : Option Property :=
  ((c.own? name).map .entry).or ((inherited? name).map .inherited)

end Context

end SceneTokens
