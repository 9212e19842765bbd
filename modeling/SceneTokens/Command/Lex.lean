import SceneTokens.Lexer.Tokenize
import SceneTokens.Report.Problem
import SceneTokens.Settings

/-!
# Showing the tokens of a source

The listing of the tokens of a source, and the rendering of the fault that stopped the
scan, if there is one.  The tokens before a fault are listed as well.
-/

namespace SceneTokens

/-- What the command prints, and its exit code. -/
structure Outcome where
  stdout : Text
  stderr : Text
  code : ExitCode
  deriving DecidableEq, Repr

/-- The rendering of a fault in its source.  A fault of scanning always has a span in
order; were one reversed, its message would stand alone. -/
def Fault.render (f : Fault) (source : Text) (settings : Settings) : Text :=
  let problem := Problem.report (Report.ofFault f)
  match problem.text source settings.format settings.contextLines with
  | .ok text => text
  | .error e => e.message

/-- The exit code of a fault. -/
def Fault.exitCode (f : Fault) : ExitCode := (Problem.report (Report.ofFault f)).exitCode

/-- Lists the tokens of a source. -/
def lexSource (source : Text) (settings : Settings) : Outcome :=
  let scan := (Lexer.ofSource source).scan
  let shown := Token.keepComments settings.includeComments scan.tokens
  let stdout := Token.listing settings.format shown
  match scan.fault with
  | none => ⟨stdout, [], .ok⟩
  | some f => ⟨stdout, f.render source settings, f.exitCode⟩

end SceneTokens
