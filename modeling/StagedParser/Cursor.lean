import StagedParser.Buffer
import StagedParser.Fault
import StagedParser.Text.LowerCase

/-!
A cursor stands at a position of a buffer. It moves forward unit by unit, keeping count of lines and
columns, and back to any position inside its buffer; reading takes units and moves past them.

An offset need not be whole: it then points at the unit whose index is its whole part. Moving
forward from such an offset may end between the last unit and the one that would follow it, and
there is no way back to that place.
-/

namespace StagedParser

structure Cursor where
  buffer : Buffer
  position : Position
deriving DecidableEq

/-- What a cursor went through while taking units that pass a test: how many it took, which units it
put to the test and in which order, where it stands, and the fault that stopped it, if any. -/
structure Cursor.Run where
  taken : Nat
  asked : List CodeUnit
  cursor : Cursor
  fault : Option Fault

namespace Cursor

/-- The cursor before the first unit of a buffer. -/
def start (buffer : Buffer) : Cursor :=
  ⟨buffer, .start⟩

def offset (c : Cursor) : Number :=
  c.position.offset

/-- The index of the unit under the cursor. -/
def index (c : Cursor) : Nat :=
  c.offset.index

/-- The unit under the cursor; none at the end. -/
def unit? (c : Cursor) : Option CodeUnit :=
  c.buffer.units[c.index]?

/-- The unit under the cursor, as a text; empty at the end. -/
def current (c : Cursor) : Text :=
  c.unit?.toList

/-- Whether the cursor stands at the end of its buffer. -/
def atEnd (c : Cursor) : Bool :=
  c.buffer.size ≤ c.index

/-- The unit that an offset points at, as a text; empty outside of the buffer. -/
def textAt (c : Cursor) (offset : Number) : Text :=
  match offset.truncate with
  | .ofNat index => c.buffer.units[index]?.toList
  | .negSucc _ => []

/-- The unit `distance` places ahead, as a text; empty outside of the buffer. -/
def peek (c : Cursor) (distance : Number) : Text :=
  c.textAt (c.offset.add distance)

/-- The units from the cursor up to another offset. -/
def upTo (c : Cursor) (offset : Number) : Text :=
  c.buffer.slice c.index offset.index

/-- The next `count` units, or fewer at the end. -/
def ahead (c : Cursor) (count : Nat) : Text :=
  c.upTo (c.offset.plus count)

def step (c : Cursor) (unit : CodeUnit) : Cursor :=
  { c with position := c.position.after unit }

/-- Moves past the next `count` units, or to the end. -/
def walk : (count : Nat) → Cursor → Cursor
  | 0, c => c
  | count + 1, c =>
    match c.unit? with
    | some unit => walk count (c.step unit)
    | none => c

/-- Moves past the next `count` units, or to the end. No more units are left to pass than there are
indices from the cursor to the end. -/
def skip (c : Cursor) (count : Nat) : Cursor :=
  walk (min count (c.buffer.size - c.index)) c

/-- Moves forward by `count` units, or to the end. A part of a unit counts as a whole one, and a
negative count moves nothing. -/
def advance (c : Cursor) (count : Number) : Cursor :=
  c.skip count.ceiling.toNat

/-- Moves to a position, which must lie inside the buffer. -/
def moveTo (c : Cursor) (position : Position) : Except Fault Cursor :=
  if 0 ≤ position.offset ∧ position.offset ≤ Number.ofNat c.buffer.size then
    .ok { c with position }
  else
    .error (.invariant (.outside position.offset c.buffer.size))

/-- Whether a text starts at the cursor. -/
def startsWith (c : Cursor) (text : Text) : Bool :=
  c.buffer.slice c.index (c.index + text.length) == text

/-- Whether as many units as `text` has stand at the cursor and have the same lower-case form. -/
def startsWithIgnoringCase (c : Cursor) (text : Text) : Bool :=
  let ahead := c.ahead text.length
  ahead.length == text.length && ahead.lowerCase == text.lowerCase

/-- Takes a text if it starts at the cursor, as it is written there; otherwise takes nothing. -/
def takeText (c : Cursor) (text : Text) (ignoreCase : Bool) : Option Text × Cursor :=
  if (if ignoreCase then c.startsWithIgnoringCase text else c.startsWith text) then
    (some (c.ahead text.length), c.skip text.length)
  else
    (none, c)

/-- Takes units one by one while they pass a test, at most `fuel` of them; `taken` have been taken
before. It stops at the end of the buffer, after `max` units unless `max` is zero, and at a fault
of the test, whose unit it does not take. -/
def runWithin (test : CodeUnit → Except Fault Bool) (max : Int)
    : (fuel : Nat) → Cursor → (taken : Nat) → Run
  | 0, c, taken => ⟨taken, [], c, none⟩
  | fuel + 1, c, taken =>
    match c.unit? with
    | none => ⟨taken, [], c, none⟩
    | some unit =>
      if max = 0 ∨ (taken : Int) < max then
        match test unit with
        | .error fault => ⟨taken, [unit], c, some fault⟩
        | .ok false => ⟨taken, [unit], c, none⟩
        | .ok true =>
          let further := runWithin test max fuel (c.step unit) (taken + 1)
          { further with asked := unit :: further.asked }
      else
        ⟨taken, [], c, none⟩

/-- Takes the longest run of units that pass a test, at most `max` of them unless `max` is zero. No
more units are left to take than there are indices from the cursor to the end. -/
def run (c : Cursor) (test : CodeUnit → Except Fault Bool) (max : Int) : Run :=
  runWithin test max (c.buffer.size - c.index) c 0

/-- Takes the longest run of units that pass a test, at most `max` of them unless `max` is zero. A
run of fewer than `min` units is given back: the cursor returns to where it was. -/
def takeWhile (c : Cursor) (test : CodeUnit → Except Fault Bool) (min max : Int)
    : Except Fault (Option Text) × Cursor :=
  let run := c.run test max
  match run.fault with
  | some fault => (.error fault, run.cursor)
  | none =>
    if (run.taken : Int) < min then
      match run.cursor.moveTo c.position with
      | .ok back => (.ok none, back)
      | .error fault => (.error fault, run.cursor)
    else
      (.ok (some (c.upTo run.cursor.offset)), run.cursor)

end Cursor

end StagedParser
