import StagedParser.Cursor

/-!
Scripts of cursor operations: what each step returns, and where it leaves the cursor.
-/

namespace StagedParser

namespace Cursor

/-- A step of working with a cursor. -/
inductive Step where
  | advance (count : Number)
  | peek (distance : Number)
  | startsWith (text : Text)
  | startsWithIgnoringCase (text : Text)
  | takeText (text : Text) (ignoreCase : Bool)
  | takeWhile (test : CodeUnit → Except Fault Bool) (min max : Number)
  /-- Notes the present position. -/
  | mark
  /-- Returns to a noted position, given by its number. -/
  | restore (number : Nat)
  | moveTo (position : Position)

inductive Reply where
  | nothing
  | flag (value : Bool)
  | text (value : Text)
  | taken (value : Option Text)
  | position (value : Position)

/-- A cursor and the positions noted so far. -/
structure Desk where
  cursor : Cursor
  marks : List Position

def Desk.moveTo (desk : Desk) (position : Position) : Except Fault Reply × Desk :=
  match desk.cursor.moveTo position with
  | .ok cursor => (.ok .nothing, { desk with cursor })
  | .error fault => (.error fault, desk)

/-- The greatest length of a run as an integer. Only zero itself is no limit, so a limit between
minus one and zero, which lets nothing pass, must not become zero, and neither must one that is no
number. -/
def limit (max : Number) : Int :=
  if max = 0 then 0 else if max.ceiling = 0 then -1 else max.ceiling

def Step.run (desk : Desk) : Step → Except Fault Reply × Desk
  | .advance count => (.ok .nothing, { desk with cursor := desk.cursor.advance count })
  | .peek distance => (.ok (.text (desk.cursor.peek distance)), desk)
  | .startsWith text => (.ok (.flag (desk.cursor.startsWith text)), desk)
  | .startsWithIgnoringCase text => (.ok (.flag (desk.cursor.startsWithIgnoringCase text)), desk)
  | .takeText text ignoreCase =>
    let (taken, cursor) := desk.cursor.takeText text ignoreCase
    (.ok (.taken taken), { desk with cursor })
  | .takeWhile test min max =>
    let (taken, cursor) := desk.cursor.takeWhile test min.ceiling (limit max)
    (taken.map .taken, { desk with cursor })
  | .mark =>
    let position := desk.cursor.position
    (.ok (.position position), { desk with marks := desk.marks ++ [position] })
  | .restore number =>
    match desk.marks[number]? with
    | some position => desk.moveTo position
    | none => (.error .stuck, desk)
  | .moveTo position => desk.moveTo position

/-- Takes steps one after another; each gives its reply and the cursor after it. -/
def runSteps (desk : Desk) : List Step → List (Except Fault Reply × Cursor)
  | [] => []
  | step :: rest =>
    let (reply, after) := step.run desk
    (reply, after.cursor) :: runSteps after rest

end Cursor

end StagedParser
