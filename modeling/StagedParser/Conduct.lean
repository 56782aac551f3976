import StagedParser.Parsing

/-!
The conduct of a parser that comes from outside: step by step it looks at the cursor and at the
record it was handed, moves the one, writes the other, announces parsers, and ends with a verdict
or a fault.
-/

namespace StagedParser

/-- What a parser from outside does. -/
inductive Conduct where
  /-- Ends with the verdict whether it matched. -/
  | finish (matched : Bool)
  | raise (fault : Fault)
  /-- Looks at the cursor and the record, and goes on accordingly. -/
  | observe (next : Cursor → MatchRecord → Conduct)
  /-- Moves the cursor; a movement out of the buffer is a fault. -/
  | move (step : Move) (next : Conduct)
  /-- Sets or unsets the record. -/
  | write (record : MatchRecord) (next : Conduct)
  /-- Announces a parser and goes on, knowing the fault that the entry hook raised, if any. -/
  | enter (entry : Entry) (next : Option Fault → Conduct)

namespace Conduct

variable {σ : Type}

/-- Announces a parser and lets a fault of the entry hook through. -/
def announce (entry : Entry) (next : Conduct) : Conduct :=
  .enter entry fun
    | some fault => .raise fault
    | none => next

def run (hook : Hook σ) : Conduct → Parsing σ Bool
  | .finish matched => pure matched
  | .raise fault => Parsing.ofResult (.error fault)
  | .observe next => do
    let cursor ← Parsing.cursor
    let record ← Parsing.record
    (next cursor record).run hook
  | .move step next => do
    Parsing.move step
    next.run hook
  | .write record next => do
    Parsing.write record
    next.run hook
  | .enter entry next => do
    match ← Parsing.attempt (Parsing.enter hook entry) with
    | .ok () => (next none).run hook
    | .error fault => (next (some fault)).run hook

end Conduct

end StagedParser
