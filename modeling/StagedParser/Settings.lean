import StagedParser.Fault
import StagedParser.Settings.Environment

/-!
The settings in force. They are loaded at the first access: defaults, over them what a file holds,
over that what the environment holds; values set by the program go over everything until the next
reset. Three variables hold them: the store, whether it was loaded, and the path of the file. They are
assigned one after another, and a load that fails keeps what was assigned before.
-/

namespace StagedParser

namespace Settings

/-- What a settings file exports. The fields of a record are only read when they are merged, and a
script may export a record whose fields fail to be read. -/
inductive Export where
  | record (fields : Except Fault Fields)
  | other

/-- What a search for a settings file returns. -/
structure Found where
  path : Text
  content : Export
  isEmpty : Bool := false

/-- Where settings come from: the environment, and a search for files, which is none of the settings'
business. It gets the names of the files to look for and the directory where it starts, unless that
is the working directory, and it may fail. -/
structure World where
  environment : Environment := []
  search : (places : List Text) → (directory : Option Text) → Except Fault (Option Found) :=
    fun _ _ => .ok none

end Settings

/-- The state of the settings: what they come from, and the three variables. -/
structure Settings where
  world : Settings.World := {}
  store : Fields := .nil
  loaded : Bool := false
  path : Option Text := none

namespace Settings

/-- The names of the files where settings are looked for, in order. -/
def places : List Text :=
  [ Text.ofString "package.json",
    Text.ofString ".weftrc",
    Text.ofString ".weftrc.json",
    Text.ofString ".weftrc.yaml",
    Text.ofString ".weftrc.yml",
    Text.ofString ".weftrc.js",
    Text.ofString ".weftrc.cjs",
    Text.ofString "weft.config.js",
    Text.ofString "weft.config.cjs" ]

/-- The settings that hold unless something else is said. -/
def defaults : Fields :=
  .cons (Text.ofString "debug") (.flag false)
    (.cons (Text.ofString "compile")
      (.record
        (.cons (Text.ofString "enabled") (.flag true)
          (.cons (Text.ofString "dumpSource") (.flag false) .nil)))
      .nil)

abbrev Access (α : Type) := EStateM Fault Settings α

/-- A result that is already there. -/
def give {α : Type} : Except Fault α → Access α
  | .ok value => pure value
  | .error fault => throw fault

/-- Searches for a settings file and returns its fields, still to be read. The path of a file that
exports a record is assigned at once; a file that exports anything else is a fault. -/
def loadFile (directory : Option Text) : Access (Except Fault Fields) := do
  match ← give ((← MonadState.get).world.search places directory) with
  | none => return .ok .nil
  | some found =>
    if found.isEmpty then
      return .ok .nil
    match found.content with
    | .record fields =>
      modify fun settings => { settings with path := some found.path }
      return fields
    | .other => throw (.file (.notARecord found.path))

/-- Loads settings unless they are loaded, with a file searched from a directory on. -/
def ensureLoaded (directory : Option Text) : Access Unit := do
  if (← MonadState.get).loaded then
    return ()
  let file ← loadFile directory
  let environment := (← MonadState.get).world.environment.settings
  let fields ← give file
  modify fun settings => { settings with store := (defaults.merge fields).merge environment }
  modify fun settings => { settings with loaded := true }

def reset : Access Unit :=
  modify fun settings => { settings with store := .nil, loaded := false, path := none }

/-- Loads settings anew, with a file searched from the given directory on. -/
def loadFrom (directory : Text) : Access Unit := do
  reset
  ensureLoaded (some directory)

def getAll : Access Fields := do
  ensureLoaded none
  return (← MonadState.get).store

/-- What is seen at a dotted path of the settings. -/
def get (path : Text) : Access Seen := do
  return (Value.record (← getAll)).getPath (keysOfPath path)

/-- Whether what is seen at a dotted path counts as true. -/
def has (path : Text) : Access Bool := do
  return (← get path).isTruthy

/-- Lays values over the settings. -/
def set (values : Fields) : Access Unit := do
  ensureLoaded none
  modify fun settings => { settings with store := settings.store.merge values }

/-- The file that settings were loaded from. -/
def filePath : Access (Option Text) := do
  ensureLoaded none
  return (← MonadState.get).path

/-- Whether debugging is on: only the flag itself counts. -/
def isDebug : Access Bool := do
  match ← get (Text.ofString "debug") with
  | .value (.flag on) => return on
  | _ => return false

/-- The options of code generation. -/
structure CodeOptions where
  enabled : Bool
  dumpSource : Bool
deriving DecidableEq, Repr

/-- The options of code generation; anything but a flag counts as the default. -/
def codeOptions : Access CodeOptions := do
  let enabled ←
    match ← get (Text.ofString "compile.enabled") with
    | .value (.flag on) => pure on
    | _ => pure true
  let dumpSource ←
    match ← get (Text.ofString "compile.dumpSource") with
    | .value (.flag on) => pure on
    | _ => pure false
  return { enabled, dumpSource }

/-- Changes the environment; loaded settings stay as they are. -/
def changeEnvironment (change : Environment → Environment) : Access Unit :=
  modify fun settings =>
    { settings with
      world := { settings.world with environment := change settings.world.environment } }

end Settings

end StagedParser
