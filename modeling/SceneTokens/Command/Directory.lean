import SceneTokens.Report.Problem
import SceneTokens.Text.Utf8

/-!
# Directories

A directory as the command sees it: files by their paths.  A path is walked part by part,
so a file has nothing below it, and every part of the path of a file but the last is a
directory.  Reading a file decodes its bytes.
-/

namespace SceneTokens

open CodeUnit

/-- Files under the parts of their paths. -/
structure Directory where
  files : List (List Text × List UInt8)

namespace Directory

/-- The parts of a path between slashes. -/
def parts (path : Text) : List Text := Text.splitOn slash path

/-- A directory with files at relative paths. -/
def ofFiles (files : List (Text × List UInt8)) : Directory :=
  ⟨files.map fun (path, bytes) => (parts path, bytes)⟩

/-- What is found at a path. -/
inductive Item
  | file (bytes : List UInt8)
  | directory
  | missing
  /-- The path leads through a file. -/
  | blocked

/-- What is found at the parts of a path below the directory. -/
def lookup (d : Directory) (path : List Text) : Item :=
  match d.files.find? fun f => f.1 == path with
  | some f => .file f.2
  | none =>
    if path.isEmpty || d.files.any fun f => path.isPrefixOf f.1 then .directory else .missing

/-- A part of a path that names nothing: an empty part or dots. -/
def isStep (part : Text) : Bool := part.isEmpty || part == "." || part == ".."

/-- Walks the parts of a path from a place below the directory, whose parts are given last
one first.  What lies above the directory is taken to be empty. -/
def walk (d : Directory) (place : List Text) : List Text → Item
  | [] => d.lookup place.reverse
  | part :: rest =>
    match d.lookup place.reverse with
    | .directory =>
      if part.isEmpty || part == "." then walk d place rest
      else if part == ".." then
        match place with
        | [] => if rest.all isStep then .directory else .missing
        | _ :: outer => walk d outer rest
      else walk d (part :: place) rest
    | .file _ => .blocked
    | other => other

/-- What is found at a path; nothing has the empty path, and no file of the directory has
an absolute one. -/
def find (d : Directory) (path : Text) : Item :=
  match path with
  | [] => .missing
  | u :: rest =>
    if u == slash then if (parts rest).all (·.isEmpty) then .directory else .missing
    else d.walk [] (parts path)

/-- The text of the file at a path. -/
def read (d : Directory) (path : Text) : Except Problem Text :=
  match d.find path with
  | .file bytes => .ok (Text.Utf8.decode bytes)
  | .missing => .error (.noSuchFile path)
  | .directory => .error .isDirectory
  | .blocked => .error (.notDirectory path)

/-- The text of the file at a path, if there is anything. -/
def read? (d : Directory) (path : Text) : Option (Except Problem Text) :=
  match d.find path with
  | .missing | .blocked => none
  | .file _ | .directory => some (d.read path)

end Directory

end SceneTokens
