import SceneTokens.Command.Run
import SceneTokens.Yaml.Block

/-!
# The program

Reads what the command asks for, prints its outcome and exits with its code.
-/

namespace SceneTokens.Command

/-- The problem behind a failed read of a path.  A path through a file cannot be opened; a
directory can, and fails when it is read. -/
def problemOf (path : Text) : IO.Error → Problem
  | .noFileOrDirectory .. => .noSuchFile path
  | .inappropriateType (some _) .. => .notDirectory path
  | .inappropriateType none .. => .isDirectory
  | other => .other (Text.ofString (ToString.toString other))

/-- The text of a file of the working directory. -/
def readText (path : String) : IO (Except Problem Text) := do
  try
    let bytes ← IO.FS.readBinFile path
    return .ok (Text.Utf8.decode bytes.toList)
  catch e => return .error (problemOf path e)

/-- The surroundings of a command in the working directory. -/
def surroundings (arguments : List Text) : IO Surroundings := do
  let configuration ← readText (Text.toString configurationName)
  let source ←
    match ofArguments arguments with
    | .ok (.tokens file _ _) =>
      readText (if file == "-" then "/dev/stdin" else Text.toString file)
    | _ => pure (.ok [])
  return {
    configuration :=
      match configuration with
      | .error (.missingFile ..) => none
      | file => some file
    source := fun _ => source
    document := Yaml.parse }

/-- Runs the command in the working directory. -/
def execute (arguments : List String) : IO UInt32 := do
  let arguments := arguments.map Text.ofString
  let outcome := run (← surroundings arguments) arguments
  IO.print (Text.printed outcome.stdout)
  IO.eprint (Text.printed outcome.stderr)
  return UInt32.ofNat outcome.code.toNat

end SceneTokens.Command

/-- The entry point of the program. -/
def main (arguments : List String) : IO UInt32 := SceneTokens.Command.execute arguments
