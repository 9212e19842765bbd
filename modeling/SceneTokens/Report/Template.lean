import SceneTokens.Value

/-!
# Message templates

A template holds placeholders: a name between braces stands for what the name leads to in
a context, or for nothing if it leads nowhere.  A brace that is followed by another opening
brace is plain text.  A template with a placeholder that is never closed is not filled in
at all.

A placeholder whose value has no text makes the expansion fail at that place; what comes
behind it does not matter any more.
-/

namespace SceneTokens.Template

open CodeUnit

/-- What a placeholder stands for, unless it leads to a value without a text. -/
def fill (context : Context) (name : Text) : Option Text :=
  match context.get? name with
  | some property => property.display
  | none => some []

/-- How the expansion of a template ends. -/
inductive Expansion
  | filled (t : Text)
  /-- A placeholder stays open. -/
  | unclosed
  /-- A placeholder leads to a value without a text. -/
  | withoutText
  deriving DecidableEq

/-- An expansion behind what a piece of the template stands for. -/
def Expansion.behind : Option Text → Expansion → Expansion
  | none, _ => .withoutText
  | some shown, .filled t => .filled (shown ++ t)
  | some _, .unclosed => .unclosed
  | some _, .withoutText => .withoutText

/-- Expands a template from some place on: outside a placeholder, or inside one whose
name so far is given, last unit first. -/
def expand (context : Context) : Option Text → Text → Expansion
  | none, [] => .filled []
  | some _, [] => .unclosed
  | none, u :: rest =>
    if u == openBrace && rest.head? != some openBrace then expand context (some []) rest
    else (expand context none rest).behind (some [u])
  | some name, u :: rest =>
    if u == closeBrace then (expand context none rest).behind (fill context name.reverse)
    else expand context (some (u :: name)) rest

/-- The message of a template: expanded if every placeholder is closed, and else the
template itself.  There is none if a value without a text is in the way. -/
def render (template : Text) (context : Context) : Option Text :=
  match expand context none template with
  | .filled t => some t
  | .unclosed => some template
  | .withoutText => none

end SceneTokens.Template
