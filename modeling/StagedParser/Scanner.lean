import StagedParser.Cursor.Script
import StagedParser.Parsing

/-!
A scanner: a cursor together with the unit under it. The unit is kept as a text of its own, which is
looked up again whenever the cursor has been moved; whoever asks for it is given what was kept.
-/

namespace StagedParser

structure Scanner where
  cursor : Cursor
  current : Text
deriving DecidableEq

/-- What a scanner went through while taking units that pass a test: how many it took, where that
left it, and the fault that stopped it, if any. -/
structure Scanner.Run where
  taken : Nat
  scanner : Scanner
  fault : Option Fault

namespace Scanner

/-- The scanner of a cursor, with the unit under it looked up. -/
def refreshed (cursor : Cursor) : Scanner :=
  ⟨cursor, cursor.current⟩

/-- The scanner before the first unit of a buffer. -/
def start (buffer : Buffer) : Scanner :=
  .refreshed (.start buffer)

def position (s : Scanner) : Position :=
  s.cursor.position

/-- Moves past the next `count` units, or to the end. -/
def skip (s : Scanner) (count : Nat) : Scanner :=
  .refreshed (s.cursor.skip count)

/-- Moves forward by `count` units, or to the end. -/
def advance (s : Scanner) (count : Number) : Scanner :=
  .refreshed (s.cursor.advance count)

/-- Moves to a position, which must lie inside the buffer; otherwise stays where it is. -/
def moveTo (s : Scanner) (position : Position) : Except Fault Unit × Scanner :=
  match s.cursor.moveTo position with
  | .ok cursor => (.ok (), .refreshed cursor)
  | .error fault => (.error fault, s)

def apply (s : Scanner) : Move → Except Fault Unit × Scanner
  | .advance count => (.ok (), s.advance count)
  | .moveTo position => s.moveTo position

/-- Takes a text if it starts here, as it is written; otherwise takes nothing. -/
def takeText (s : Scanner) (text : Text) (ignoreCase : Bool) : Option Text × Scanner :=
  if (if ignoreCase then s.cursor.startsWithIgnoringCase text else s.cursor.startsWith text) then
    (some (s.cursor.ahead text.length), s.skip text.length)
  else
    (none, s)

/-- Takes units one by one while they pass a test, at most `fuel` of them; `taken` have been taken
before. It is the unit that was kept which is put to the test. -/
def runWithin (test : CodeUnit → Except Fault Bool) (max : Int)
    : (fuel : Nat) → Scanner → (taken : Nat) → Run
  | 0, s, taken => ⟨taken, s, none⟩
  | fuel + 1, s, taken =>
    if s.cursor.atEnd then
      ⟨taken, s, none⟩
    else if max = 0 ∨ (taken : Int) < max then
      match s.current with
      | [unit] =>
        match test unit with
        | .error fault => ⟨taken, s, some fault⟩
        | .ok false => ⟨taken, s, none⟩
        | .ok true => runWithin test max fuel (s.skip 1) (taken + 1)
      | _ => ⟨taken, s, some .stuck⟩
    else
      ⟨taken, s, none⟩

/-- Takes the longest run of units that pass a test, at most `max` of them unless `max` is zero. -/
def run (s : Scanner) (test : CodeUnit → Except Fault Bool) (max : Int) : Run :=
  runWithin test max (s.cursor.buffer.size - s.cursor.index) s 0

/-- Takes the longest run of units that pass a test, at most `max` of them unless `max` is zero. A run
of fewer than `min` units is given back. -/
def takeWhile (s : Scanner) (test : CodeUnit → Except Fault Bool) (min max : Int)
    : Except Fault (Option Text) × Scanner :=
  let run := s.run test max
  match run.fault with
  | some fault => (.error fault, run.scanner)
  | none =>
    if (run.taken : Int) < min then
      let (moved, back) := run.scanner.moveTo s.position
      (moved.map fun _ => none, back)
    else
      (.ok (some (s.cursor.upTo run.scanner.cursor.offset)), run.scanner)

-----------------------------------------------------------------------------------------
-- Scripts
-----------------------------------------------------------------------------------------

/-- A scanner and the positions noted so far. -/
structure Desk where
  scanner : Scanner
  marks : List Position

def Desk.moveTo (desk : Desk) (position : Position) : Except Fault Cursor.Reply × Desk :=
  let (moved, scanner) := desk.scanner.moveTo position
  (moved.map fun _ => .nothing, { desk with scanner })

/-- A step of working with a cursor, taken by a scanner. -/
def Desk.take (desk : Desk) : Cursor.Step → Except Fault Cursor.Reply × Desk
  | .advance count => (.ok .nothing, { desk with scanner := desk.scanner.advance count })
  | .peek distance => (.ok (.text (desk.scanner.cursor.peek distance)), desk)
  | .startsWith text => (.ok (.flag (desk.scanner.cursor.startsWith text)), desk)
  | .startsWithIgnoringCase text =>
    (.ok (.flag (desk.scanner.cursor.startsWithIgnoringCase text)), desk)
  | .takeText text ignoreCase =>
    let (taken, scanner) := desk.scanner.takeText text ignoreCase
    (.ok (.taken taken), { desk with scanner })
  | .takeWhile test min max =>
    let (taken, scanner) := desk.scanner.takeWhile test min.ceiling (Cursor.limit max)
    (taken.map .taken, { desk with scanner })
  | .mark =>
    let position := desk.scanner.position
    (.ok (.position position), { desk with marks := desk.marks ++ [position] })
  | .restore number =>
    match desk.marks[number]? with
    | some position => desk.moveTo position
    | none => (.error .stuck, desk)
  | .moveTo position => desk.moveTo position

/-- Takes steps one after another; each gives its reply and the scanner after it. -/
def runSteps (desk : Desk) : List Cursor.Step → List (Except Fault Cursor.Reply × Scanner)
  | [] => []
  | step :: rest =>
    let (reply, after) := desk.take step
    (reply, after.scanner) :: runSteps after rest

end Scanner

end StagedParser
