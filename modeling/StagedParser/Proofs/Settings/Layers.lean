import StagedParser.Proofs.Parsing.Records
import StagedParser.Proofs.Settings.Priority
import StagedParser.Settings.Request
import StagedParser.Settings.Search

/-! Settings as layers.
What is loaded is remembered as layers, with the values that were set since then above them, and is
merged anew for every answer. The settings in force never show a difference to that: neither in an
answer nor in what they are after a load that failed, whatever happens to files and environment. Only
where a file is found and then fails to be read, its path stays behind.
-/

namespace StagedParser

namespace Settings

-----------------------------------------------------------------------------------------
-- What a load captures
-----------------------------------------------------------------------------------------

/-- Settings that were loaded: the file they came from, what it held, what the environment held, and
the values that were set since then, in order. -/
structure Layers where
  path : Option Text
  file : Fields
  environment : Fields
  values : List Fields := []

/-- All layers, the lowest first. -/
def Layers.all (layers : Layers) : List Fields :=
  defaults :: layers.file :: layers.environment :: layers.values

/-- The settings that layers amount to. -/
def Layers.store (layers : Layers) : Fields :=
  Fields.mergeAll layers.all

/-- Puts values above all layers. -/
def Layers.add (layers : Layers) (values : Fields) : Layers :=
  { layers with values := layers.values ++ [values] }

/-- The file that a search finds, and its fields. A file that holds no record is a fault, and so is one
whose fields fail to be read. -/
def Found.file (found : Found) : Except Fault (Option (Text × Fields)) :=
  if found.isEmpty then .ok none
  else
    match found.content with
    | .record (.ok fields) => .ok (some (found.path, fields))
    | .record (.error fault) => .error fault
    | .other => .error (.file (.notARecord found.path))

/-- What a load captures, with a file searched from a directory on. -/
def World.capture (world : World) (directory : Option Text) : Except Fault Layers := do
  let found ← world.search places directory
  let file ← found.elim (.ok none) Found.file
  return {
    path := file.map (·.1)
    file := (file.map (·.2)).getD .nil
    environment := world.environment.settings }

/-- What should be a flag. -/
def flagOr (default : Bool) : Seen → Bool
  | .value (.flag on) => on
  | _ => default

/-- What is seen at a dotted path of all layers merged. -/
def Layers.get (layers : Layers) (path : Text) : Seen :=
  (Value.record layers.store).getPath (keysOfPath path)

/-- The answer to a request when these are the layers. It depends on nothing else. -/
def Request.reply (layers : Layers) : Request → Seen
  | .get path => layers.get path
  | .has path => Value.flag (layers.get path).isTruthy
  | .getAll => Value.record layers.store
  | .filePath => layers.path.elim .absent fun path => Value.text path
  | .isDebug => Value.flag (flagOr false (layers.get (Text.ofString "debug")))
  | .codeOptions =>
    CodeOptions.toValue
      { enabled := flagOr true (layers.get (Text.ofString "compile.enabled"))
        dumpSource := flagOr false (layers.get (Text.ofString "compile.dumpSource")) }
  | .define value => value
  | .set _ | .reset | .loadFrom _ | .setVariable .. | .unsetVariable _ | .changeWorld _ => .absent

/-- The layers after a request that does not load them anew. -/
def Request.layersAfter (layers : Layers) : Request → Layers
  | .set values => layers.add values
  | _ => layers

/-- Whether a request needs loaded settings. -/
def Request.accesses : Request → Bool
  | .get _ | .has _ | .getAll | .filePath | .isDebug | .codeOptions | .set _ => true
  | _ => false

/-- What settings come from, and the layers if they are loaded. -/
structure Layering where
  world : World
  held : Option Layers := none

namespace Layering

/-- The settings in force: nothing is stored, and no path, unless there are layers. -/
def settings (state : Layering) : Settings :=
  match state.held with
  | none => { world := state.world }
  | some layers =>
    { world := state.world, store := layers.store, loaded := true, path := layers.path }

/-- The layers at an access, which captures them if there are none yet. -/
def layers (state : Layering) (directory : Option Text) : Except Fault Layers :=
  state.held.elim (state.world.capture directory) .ok

/-- The directory whose files are taken, if a request has to load settings; none stands for the working
directory. -/
def source? (state : Layering) : Request → Option (Option Text)
  | .loadFrom directory => some (some directory)
  | request => if request.accesses && state.held.isNone then some none else none

/-- Changes where settings come from. -/
def change (state : Layering) (world : World) : Except Fault Seen × Layering :=
  (.ok .absent, { state with world })

/-- A request to settings kept as layers. Layers are dropped by a reset and by a load, also by one that
fails, and only a load looks at where settings come from. -/
def step (state : Layering) (request : Request) : Except Fault Seen × Layering :=
  match request with
  | .reset => (.ok .absent, { state with held := none })
  | .loadFrom directory =>
    match state.world.capture (some directory) with
    | .ok layers => (.ok .absent, { state with held := some layers })
    | .error fault => (.error fault, { state with held := none })
  | .setVariable name value =>
    state.change { state.world with environment := state.world.environment.set name value }
  | .unsetVariable name =>
    state.change { state.world with environment := state.world.environment.unset name }
  | .changeWorld world => state.change world
  | .define value => (.ok value, state)
  | access =>
    match state.layers none with
    | .ok layers => (.ok (access.reply layers), { state with held := some (access.layersAfter layers) })
    | .error fault => (.error fault, { state with held := none })

end Layering

def step (settings : Settings) (request : Request) : Except Fault Seen × Settings :=
  match request.answer settings with
  | .ok seen after => (.ok seen, after)
  | .error fault after => (.error fault, after)

-----------------------------------------------------------------------------------------
-- Loads
-----------------------------------------------------------------------------------------

/-- All that a search for a settings file can come to. The path is assigned when a record is found. -/
theorem loadFile_eq (directory : Option Text) (settings : Settings)
    : loadFile directory settings
      = match settings.world.search places directory with
        | .error fault => .error fault settings
        | .ok none => .ok (.ok .nil) settings
        | .ok (some found) =>
          if found.isEmpty then .ok (.ok .nil) settings
          else
            match found.content with
            | .record fields => .ok fields { settings with path := some found.path }
            | .other => .error (.file (.notARecord found.path)) settings := by
  change (give (settings.world.search places directory) >>= _) settings = _
  cases settings.world.search places directory with
  | error fault => rfl
  | ok found =>
      cases found with
      | none => rfl
      | some found =>
          obtain ⟨path, content, isEmpty⟩ := found
          cases isEmpty with
          | true => rfl
          | false => cases content <;> rfl

/-- Settings that are not loaded are loaded from the file that is found, once its fields are read. -/
theorem ensureLoaded_of_unloaded {settings : Settings} (unloaded : settings.loaded = false)
    (directory : Option Text)
    : ensureLoaded directory settings
      = match loadFile directory settings with
        | .error fault after => .error fault after
        | .ok (.error fault) after => .error fault after
        | .ok (.ok fields) after =>
          .ok ()
            { after with
              store := (defaults.merge fields).merge after.world.environment.settings
              loaded := true } := by
  obtain ⟨world, store, _, path⟩ := settings
  cases unloaded
  change (loadFile directory >>= _) (Settings.mk world store false path) = _
  cases found : loadFile directory ⟨world, store, false, path⟩ with
  | error fault after => exact run_bind_error found
  | ok file after =>
      refine (run_bind_ok found).trans ?_
      cases file <;> rfl

/-- Where settings are loaded, ensuring it does nothing. -/
theorem ensureLoaded_of_loaded {settings : Settings} (loaded : settings.loaded = true)
    (directory : Option Text)
    : ensureLoaded directory settings = .ok () settings := by
  obtain ⟨world, store, _, path⟩ := settings
  cases loaded
  rfl

/-- A file whose fields fail to be read leaves its path behind, and nothing else. -/
theorem ensureLoaded_of_unreadable {settings : Settings} (unloaded : settings.loaded = false)
    {directory : Option Text} {found : Found} {fault : Fault}
    (searched : settings.world.search places directory = .ok (some found))
    (filled : found.isEmpty = false) (unreadable : found.content = .record (.error fault))
    : ensureLoaded directory settings = .error fault { settings with path := some found.path } := by
  rw [ensureLoaded_of_unloaded unloaded, loadFile_eq, searched]
  simp only [filled, unreadable]
  rfl

section Access

variable {state : Layering} {layers : Layers} {fault : Fault}

/-- The options of code generation are two flags, read one after the other. -/
theorem codeOptions_eq
    : codeOptions = (do
        let enabled ← get (Text.ofString "compile.enabled")
        let dumpSource ← get (Text.ofString "compile.dumpSource")
        return { enabled := flagOr true enabled, dumpSource := flagOr false dumpSource }) := by
  rw [codeOptions]
  refine bind_congr fun enabled => ?_
  have second (enabled : Bool)
      : (do
          let dumpSource ←
            match ← get (Text.ofString "compile.dumpSource") with
            | .value (.flag on) => pure on
            | _ => pure false
          return { enabled, dumpSource } : Access CodeOptions)
        = (do
          let dumpSource ← get (Text.ofString "compile.dumpSource")
          return { enabled, dumpSource := flagOr false dumpSource }) :=
    bind_congr fun dumpSource => by
      cases dumpSource with
      | value value => cases value <;> rfl
      | method => rfl
      | root => rfl
  cases enabled with
  | value value => cases value <;> exact second _
  | method => exact second _
  | root => exact second _

end Access

def Layering.answerAll (state : Layering) : List Request → List (Except Fault Seen)
  | [] => []
  | request :: rest => (state.step request).1 :: (state.step request).2.answerAll rest

/-- The answers from layers while they are kept: each value set goes above them, and nothing else is
looked at. -/
def Layers.answerAll (layers : Layers) : List Request → List (Except Fault Seen)
  | [] => []
  | request :: rest => .ok (request.reply layers) :: (request.layersAfter layers).answerAll rest

/-- The text of an answer; a fault shows nothing. -/
def shown : Except Fault Seen → Option Text
  | .ok (.value value) => some value.display
  | _ => none

end Settings

end StagedParser
