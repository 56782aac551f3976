import StagedParser.Settings.Tree
import StagedParser.Text.LowerCase

/-!
Settings from environment variables. Two underscores in a variable's name separate the keys of a
path, and one underscore before a letter or digit marks a capital.
-/

namespace StagedParser

/-- Environment variables in the order in which they were first set. -/
abbrev Environment := List (Text × Text)

namespace Environment

/-- A text as the environment stores it: well formed, and cut before the first NUL. -/
def stored (text : Text) : Text :=
  Text.wellFormed (text.takeWhile (· != 0))

/-- Whether the environment can hold a variable of this name. -/
def isName (name : Text) : Bool :=
  !name.isEmpty && !name.contains 61

/-- Puts a value under a name: in its place if it is there, else at the end. -/
def put (environment : Environment) (name value : Text) : Environment :=
  match environment with
  | [] => [(name, value)]
  | (other, old) :: rest =>
    if other = name then (name, value) :: rest else (other, old) :: put rest name value

/-- Sets a variable. A name that is empty or has an equals sign in it changes nothing. -/
def set (environment : Environment) (name value : Text) : Environment :=
  if isName (stored name) then environment.put (stored name) (stored value) else environment

/-- Unsets a variable. -/
def unset (environment : Environment) (name : Text) : Environment :=
  environment.filter (·.1 ≠ stored name)

/-- The environment that results from setting variables one after another. -/
def ofList (assignments : List (Text × Text)) : Environment :=
  assignments.foldl (fun environment (name, value) => environment.set name value) []

/-- What the names of the variables that hold settings begin with. -/
def leader : Text := Text.ofString "WEFT_"

/-- The capital of an ASCII letter; any other unit is its own. -/
def capital (unit : CodeUnit) : CodeUnit :=
  if Text.isLowerUnit unit then unit - 32 else unit

/-- Replaces each underscore before a small letter or a digit by making a capital of what follows.
-/
def camelCase : Text → Text
  | [] => []
  | [unit] => [unit]
  | unit :: next :: rest =>
    if unit = 95 ∧ (Text.isLowerUnit next || Text.isDigitUnit next) then
      capital next :: camelCase rest
    else
      unit :: camelCase (next :: rest)

/-- The dotted path that the name of a variable stands for, after its leader. -/
def pathOfName (name : Text) : Text :=
  Text.joinWith (Text.ofString ".")
    ((name.lowerCase.splitOn (Text.ofString "__")).map camelCase)

/-- The dotted path of the setting that a variable holds, if it holds one. -/
def settingPath? (name : Text) : Option Text :=
  if leader.isPrefixOf name then some (pathOfName (name.drop leader.length)) else none

/-- The value that the text of a variable stands for: a flag, a natural number, or the text
itself. -/
def settingValue (text : Text) : Value :=
  if text = Text.ofString "1" ∨ text = Text.ofString "true" then
    .flag true
  else if text = Text.ofString "0" ∨ text = Text.ofString "false" ∨ text = [] then
    .flag false
  else if text.all Text.isDigitUnit then
    .number (Number.ofNat (text.natural))
  else
    .text text

/-- Puts the setting that a variable holds into fields. -/
def addSetting (fields : Fields) (assignment : Text × Text) : Fields :=
  match settingPath? assignment.1 with
  | some path => fields.putPath (keysOfPath path) (settingValue assignment.2)
  | none => fields

/-- The settings that the environment holds. -/
def settings (environment : Environment) : Fields :=
  environment.foldl addSetting .nil

end Environment

end StagedParser
