import StagedParser.Settings

/-!
Requests to the settings and their answers, one after another.
-/

namespace StagedParser

namespace Settings

inductive Request where
  | get (path : Text)
  | has (path : Text)
  | getAll
  | filePath
  | reset
  | isDebug
  | codeOptions
  | set (values : Fields)
  | loadFrom (directory : Text)
  | setVariable (name value : Text)
  | unsetVariable (name : Text)
  | define (value : Value)
  /-- Changes where settings come from; what is loaded stays as it is. -/
  | changeWorld (world : World)

/-- The options of code generation as a value. -/
def CodeOptions.toValue (options : CodeOptions) : Value :=
  .record
    (.cons (Text.ofString "enabled") (.flag options.enabled)
      (.cons (Text.ofString "dumpSource") (.flag options.dumpSource) .nil))

/-- Answers a request with what is seen. -/
def Request.answer : Request → Access Seen
  | .get path => Settings.get path
  | .has path => do return Value.flag (← Settings.has path)
  | .getAll => do return Value.record (← Settings.getAll)
  | .filePath => do return (← Settings.filePath).elim .absent fun path => Value.text path
  | .reset => do
    Settings.reset
    return Value.absent
  | .isDebug => do return Value.flag (← Settings.isDebug)
  | .codeOptions => do return (← Settings.codeOptions).toValue
  | .set values => do
    Settings.set values
    return Value.absent
  | .loadFrom directory => do
    Settings.loadFrom directory
    return Value.absent
  | .setVariable name value => do
    changeEnvironment (·.set name value)
    return Value.absent
  | .unsetVariable name => do
    changeEnvironment (·.unset name)
    return Value.absent
  | .define value => return value
  | .changeWorld world => do
    modify fun settings => { settings with world }
    return Value.absent

def answerAll (settings : Settings) : List Request → List (Except Fault Seen)
  | [] => []
  | request :: rest =>
    match request.answer settings with
    | .ok value after => .ok value :: answerAll after rest
    | .error fault after => .error fault :: answerAll after rest

end Settings

end StagedParser
