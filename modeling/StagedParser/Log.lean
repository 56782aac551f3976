import StagedParser.Settings

/-!
Log lines. Each line carries the scope of its logger; debug lines are written only while debugging
is on in the settings.
-/

namespace StagedParser

namespace Log

inductive Level where
  | debug
  | info
  | warn
  | error
deriving DecidableEq, Repr

def Level.text : Level → Text
  | .debug => Text.ofString "debug"
  | .info => Text.ofString "info"
  | .warn => Text.ofString "warn"
  | .error => Text.ofString "error"

/-- The level that a value names, if it names one. -/
def Level.ofValue? : Value → Option Level
  | .text word => [Level.debug, .info, .warn, .error].find? (·.text = word)
  | _ => none

/-- A line that was written, with the values handed along. What is written past a logger need not
be a text. -/
structure Line where
  level : Level
  line : Value
  details : List Value

/-- A line of the logger with the given scope. -/
def line (scope : Value) (level : Level) (message : Value) (details : List Value) : Line :=
  let shown := Text.ofString "[weft:" ++ scope.display ++ Text.ofString "] " ++ message.display
  ⟨level, .text shown, details⟩

end Log

/-- What the program works with apart from grammars: the settings and the lines logged so far. -/
structure Desk where
  settings : Settings := {}
  lines : List Log.Line := []

namespace Desk

abbrev Work (α : Type) := EStateM Fault Desk α

/-- An access to the settings of the desk. -/
def access {α : Type} (work : Settings.Access α) : Work α := fun desk =>
  match work desk.settings with
  | .ok value settings => .ok value { desk with settings }
  | .error fault settings => .error fault { desk with settings }

def writeLine (line : Log.Line) : Work Unit :=
  modify fun desk => { desk with lines := desk.lines ++ [line] }

/-- Logs a message; a debug message only while debugging is on. -/
def log (scope : Value) (level : Log.Level) (message : Value) (details : List Value)
    : Work Unit := do
  match level with
  | .debug =>
    if ← access Settings.isDebug then
      writeLine (Log.line scope .debug message details)
  | _ => writeLine (Log.line scope level message details)

/-- Writes a line at the level that a value names; any other value is a broken invariant. -/
def writeAt (level line : Value) (details : List Value) : Work Unit :=
  match Log.Level.ofValue? level with
  | some level => writeLine ⟨level, line, details⟩
  | none => throw (.invariant (.unreachable (shown level)))
where
  /-- What is shown of a value that should not be there; nothing of an absent one. -/
  shown : Value → Option Text
    | .absent => none
    | value => some value.display

/-- A step of working with a logger. -/
inductive Step where
  | log (level : Log.Level) (message : Value) (details : List Value)
  | set (values : Fields)
  | reset
  | writeAt (level line : Value) (details : List Value)

/-- Takes a step with the logger of the given scope. -/
def Step.run (scope : Value) : Step → Work Unit
  | .log level message details => Desk.log scope level message details
  | .set values => access (Settings.set values)
  | .reset => access Settings.reset
  | .writeAt level line details => Desk.writeAt level line details

/-- Takes steps one after another and returns the fault and the lines of each. -/
def runSteps (scope : Value) (desk : Desk) : List Step → List (Option Fault × List Log.Line)
  | [] => []
  | step :: rest =>
    match step.run scope { desk with lines := [] } with
    | .ok () after => (none, after.lines) :: runSteps scope after rest
    | .error fault after => (some fault, after.lines) :: runSteps scope after rest

end Desk

end StagedParser
