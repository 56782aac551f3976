import StagedParser.Fault
import StagedParser.Settings.Json
import StagedParser.Text.Characters

/-!
Settings files: a tree of files, and the value in a file. The extension of a file's name tells how
it is read.
-/

namespace StagedParser

/-- A path inside the tree of files, part by part. -/
abbrev Location := List Text

/-- Files and their contents. -/
abbrev FileTree := List (Location × Text)

namespace Location

/-- Follows one part of a written path: a dot stays, two dots go up. There is no way up from the
root of the tree. -/
def follow? (path : Option Location) (part : Text) : Option Location :=
  match path with
  | none => none
  | some path =>
    if part = [] ∨ part = Text.ofString "." then some path
    else if part = Text.ofString ".." then
      if path.isEmpty then none else some path.dropLast
    else some (path ++ [part])

/-- The path that a written path denotes from a directory on; none if it leads out of the tree. -/
def resolve? (directory : Location) (text : Text) : Option Location :=
  (text.splitOn (Text.ofString "/")).foldl follow? (some directory)

/-- The path that a written path denotes; none if it leads out of the tree. -/
def ofText? (text : Text) : Option Location :=
  resolve? [] text

/-- A path as it is shown, below the root of the tree. -/
def text (path : Location) : Text :=
  path.foldl (fun shown part => shown ++ Text.ofString "/" ++ part) (Text.ofString "<dir>")

/-- The name of the file at a path. -/
def fileName (path : Location) : Text :=
  path.getLast?.getD []

end Location

namespace FileTree

/-- The tree of files written under relative paths. -/
def ofList (files : List (Text × Text)) : FileTree :=
  files.filterMap fun (path, content) =>
    (Location.ofText? path.wellFormed).map fun path => (path, content.wellFormed)

/-- The content of the file at a path; the last one given counts. -/
def content? (files : FileTree) (path : Location) : Option Text :=
  (files.reverse.find? (·.1 = path)).map (·.2)

end FileTree

/-- How the content of a file is read. -/
inductive FileFormat where
  /-- JSON. -/
  | json
  /-- YAML, of which only JSON is understood. -/
  | yaml
  /-- A script that exports JSON. -/
  | script
deriving DecidableEq, Repr

namespace FileFormat

/-- The extension of a file's name: its last dot and what follows. A dot in front does not count. -/
def extension (name : Text) : Text :=
  let ending := name.reverse.takeWhile (· != 46)
  if ending.length + 1 < name.length then 46 :: ending.reverse else []

/-- The format that goes with an extension. -/
def ofExtension? (extension : Text) : Option FileFormat :=
  if extension = [] then some .yaml
  else if extension = Text.ofString ".json" then some .json
  else if extension = Text.ofString ".yaml" ∨ extension = Text.ofString ".yml" then some .yaml
  else if extension = Text.ofString ".js" ∨ extension = Text.ofString ".cjs" then some .script
  else none

/-- What stands before the exported value of a script. -/
def exportOpening : Text := Text.ofString "module.exports = "

/-- The text of the value that a script exports. -/
def exported (content : Text) : Text :=
  let value := (Json.expect exportOpening content).getD content
  (value.reverse.dropWhile fun unit => Json.isBlank unit || unit == 59).reverse

/-- The content without a byte order mark in front. -/
def unmarked : Text → Text
  | 0xFEFF :: content => content
  | content => content

/-- The value in a file's content. -/
def read (format : FileFormat) (content : Text) : Except Fault Value :=
  match format with
  | .json => (Json.read? .json content).elim (.error .malformedJson) .ok
  | .yaml => (Json.read? .yaml (unmarked content)).elim (.error .malformedYaml) .ok
  | .script => (Json.read? .script (exported (unmarked content))).elim (.error .malformedJson) .ok

end FileFormat

namespace FileTree

/-- The name of files, apart from the extension, that hold settings in one property. -/
def packageName : Text := Text.ofString "package"

/-- The property that holds the settings. -/
def propertyName : Text := Text.ofString "weft"

/-- Whether a file of this name holds settings in one property. -/
def isPackage (name : Text) : Bool :=
  name == packageName ++ FileFormat.extension name

/-- The property of a value that holds the settings; null if there is none. -/
def settingsProperty : Value → Except Fault Value
  | .absent | .null => .error (.file .nothing)
  | .record fields => .ok ((fields.get? propertyName).getD .null)
  | _ => .ok .null

/-- The units that count as white space at the ends of a file. -/
def isWhite (unit : CodeUnit) : Bool :=
  (9 ≤ unit && unit ≤ 13) || unit == 32 || unit == 0xA0 || unit == 0x1680 ||
    (0x2000 ≤ unit && unit ≤ 0x200A) || unit == 0x2028 || unit == 0x2029 || unit == 0x202F ||
    unit == 0x205F || unit == 0x3000 || unit == 0xFEFF

/-- The value in the content of a file with the given name; absent if there is only white space. -/
def valueIn (name content : Text) : Except Fault Value :=
  if content.all isWhite then
    .ok .absent
  else
    match FileFormat.ofExtension? (FileFormat.extension name) with
    | none => .error (.file (.noFormat (FileFormat.extension name)))
    | some format => do
      let value ← format.read content
      if isPackage name then settingsProperty value else return value

end FileTree

end StagedParser
