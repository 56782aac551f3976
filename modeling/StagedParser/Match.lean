import StagedParser.Cursor
import StagedParser.Value

/-!
The record of a match: where it starts and stops and what it yields. A record is unset until a match
sets all three at once, and an unset one cannot be read.
-/

namespace StagedParser

/-- A match: its first position, the position after it, and its value. -/
structure Match where
  start : Position
  stop : Position
  value : Value

/-- A record that a match may have set. -/
abbrev MatchRecord := Option Match

/-- The match in a record; reading an unset record is a fault. -/
def MatchRecord.read : MatchRecord → Except Fault Match
  | some found => .ok found
  | none => .error (.invariant .unset)

end StagedParser
