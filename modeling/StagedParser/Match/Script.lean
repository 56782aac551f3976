import StagedParser.Match

/-!
Scripts of work with one record: what each step returns, and whether the record is set after it.
-/

namespace StagedParser

namespace MatchRecord

/-- A step of working with a record. -/
inductive Step where
  | set (found : Match)
  | reset
  | start
  | stop
  | value
  | isSet

inductive Reply where
  | nothing
  | position (value : Position)
  | value (value : Value)
  | flag (value : Bool)

def Step.run (record : MatchRecord) : Step → Except Fault Reply × MatchRecord
  | .set found => (.ok .nothing, some found)
  | .reset => (.ok .nothing, none)
  | .start => (record.read.map (.position ·.start), record)
  | .stop => (record.read.map (.position ·.stop), record)
  | .value => (record.read.map (.value ·.value), record)
  | .isSet => (.ok (.flag record.isSome), record)

/-- Takes steps one after another; each gives its reply and whether the record is set after it. -/
def runSteps (record : MatchRecord) : List Step → List (Except Fault Reply × Bool)
  | [] => []
  | step :: rest =>
    let (reply, after) := step.run record
    (reply, after.isSome) :: runSteps after rest

end MatchRecord

end StagedParser
