import StagedParser.Code.Layout
import StagedParser.Code.Machine
import StagedParser.Grammar.Emit

/-!
Programs: a grammar's code together with the constants it refers to. Running a program answers
whether the grammar matched; an answer that is no Boolean is a fault.
-/

namespace StagedParser

open Code

/-- Code and its table of constants. -/
structure Program (H : Host) where
  code : List Stmt
  table : List (Constant H)

variable {H : Host} {σ : Type}

/-- The program of a grammar, unless one of its parsers refuses to emit code. -/
def Grammar.program (grammar : Grammar H) : Except Fault (Program H) :=
  match grammar.code {} with
  | .ok code bench => .ok ⟨code, bench.constants⟩
  | .error fault _ => .error fault

namespace Program

def text (program : Program H) : Text :=
  layout program.code

def isReadable (program : Program H) : Bool :=
  areReadable program.code

def typeName : Datum → Text
  | .value held => held.typeName
  | .position _ | .record _ => Text.ofString "object"

/-- Runs the program of the parser with the given name. -/
def run (hook : Hook σ) (parser : Text) (program : Program H) : Parsing σ Bool := do
  match ← answer hook program.table program.code with
  | .value (.flag matched) => return matched
  | datum =>
    Parsing.ofResult
      (.error (.staging (.notBoolean parser (typeName datum)) program.text none))

end Program

end StagedParser
