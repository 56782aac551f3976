import StagedParser.Number.Arithmetic
import StagedParser.Number.Shortest

/-!
Positions: points of a text given by offset, line and column. Lines and columns start at one. Any
numbers make a position; the ones read from a cursor agree with its text.
-/

namespace StagedParser

structure Position where
  offset : Number
  line : Number
  column : Number
deriving DecidableEq, Repr

namespace Position

/-- The position before the first unit. -/
def start : Position := ⟨0, 1, 1⟩

/-- The position after a unit. A line feed starts a new line. -/
def after (position : Position) (unit : CodeUnit) : Position :=
  if unit = Text.lineFeed then
    ⟨position.offset.plus 1, position.line.plus 1, 1⟩
  else
    ⟨position.offset.plus 1, position.line, position.column.plus 1⟩

/-- Whether two positions are equal in a comparison of all their numbers. -/
def isEqual (position other : Position) : Bool :=
  position.offset.isEqual other.offset && position.line.isEqual other.line &&
    position.column.isEqual other.column

/-- Negative, zero or positive as a position is before, at or after another. Only offsets count. -/
def compare (position other : Position) : Number :=
  position.offset.sub other.offset

/-- A position as it is shown: line and column. -/
def text (position : Position) : Text :=
  Text.ofString "(" ++ position.line.text ++ Text.ofString ":" ++ position.column.text ++
    Text.ofString ")"

end Position

end StagedParser
