import StagedParser.Settings
import StagedParser.Settings.Imports

/-!
A search for settings files in a tree of files. One directory is searched, place by place, and the
first place with anything in it is found. The package file of the working directory has to be readable
in any case.
-/

namespace StagedParser

/-- What a file with a value in it exports. -/
def Settings.Export.ofValue : Value → Export
  | .record fields => .record (.ok fields)
  | _ => .other

namespace FileTree

/-- Passes unless the package file of a directory is there and cannot be read. -/
def checkPackage (files : FileTree) (directory : Location) : Except Fault Unit :=
  let name := packageName ++ Text.ofString ".json"
  match files.content? (directory ++ [name]) with
  | none => .ok ()
  | some content => do
    let _ ← valueIn name content
    return ()

/-- The value at a place, if anything is there. A place that imports a file that is not there counts
as empty, too. -/
def found? (files : FileTree) (path : Location) : Except Fault (Option Value) :=
  match files.valueAt path with
  | .error .missing => .ok none
  | .error (.fault cause) => .error cause
  | .ok .absent => .ok none
  | .ok .null => .ok none
  | .ok value => .ok (some value)

/-- What is found in the places of a directory. -/
def searchIn (files : FileTree) (directory : Location)
    : List Text → Except Fault (Option Settings.Found)
  | [] => .ok none
  | name :: rest => do
    let path := directory ++ [name]
    match ← files.found? path with
    | none => searchIn files directory rest
    | some value => return some { path := path.text, content := .ofValue value }

/-- What is found in a directory, if that is in the tree. -/
def searchFrom (files : FileTree) (places : List Text)
    : Option Location → Except Fault (Option Settings.Found)
  | some directory => files.searchIn directory places
  | none => .ok none

/-- The search in a tree of files with the given working directory, if that is in the tree. -/
def search (files : FileTree) (working : Option Location) (places : List Text)
    (directory : Option Text) : Except Fault (Option Settings.Found) := do
  working.forM files.checkPackage
  files.searchFrom places (directory.elim working Location.ofText?)

end FileTree

end StagedParser
