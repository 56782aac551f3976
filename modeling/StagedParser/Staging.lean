import StagedParser.Grammar.Parse
import StagedParser.Log

/-!
Staging a grammar: turning it into a parser that runs generated code. While code generation is off
in the settings, the staged parser interprets its source.
-/

namespace StagedParser

variable {H : Host}

/-- The scope of the log lines about staging. -/
def stagingScope : Value := .text (Text.ofString "compile")

/-- The debug message about generated code. -/
def Program.summary (program : Program H) (parser : Text) : Text :=
  Text.ofString "assembled " ++ parser ++ Text.ofString " (" ++ Text.ofNat program.table.length ++
    Text.ofString " constants, " ++ Text.ofNat program.text.length ++ Text.ofString " chars)"

/-- Stages a grammar; the staged parser gets the identity `id`. -/
def Grammar.stage (id : Nat) (grammar : Grammar H) : Desk.Work (Grammar H) := do
  let options ← Desk.access Settings.codeOptions
  if !options.enabled then
    Desk.log stagingScope .debug
      (.text (Text.ofString "code generation disabled; " ++ grammar.name ++
        Text.ofString " stays interpreted")) []
    return .staged id grammar false
  match grammar.program with
  | .error cause => throw (.staging (.notGenerated grammar.name) [] (some cause.kind))
  | .ok program =>
    Desk.log stagingScope .debug (.text (program.summary grammar.name)) []
    if options.dumpSource then
      Desk.log stagingScope .info
        (.text (Text.ofString "generated code for " ++ grammar.name ++ Text.ofString ":\n" ++
          program.text)) []
    if program.isReadable then
      return .staged id grammar true
    throw (.staging (.notCompiled grammar.name) program.text (some .code))

/-- The text of the code that a staged parser runs, if it runs any. -/
def Grammar.codeText? : Grammar H → Option Text
  | .staged _ source true =>
    match source.program with
    | .ok program => some program.text
    | .error _ => none
  | _ => none

def Grammar.source? : Grammar H → Option (Grammar H)
  | .staged _ source _ => some source
  | _ => none

end StagedParser
