/-!
Texts are sequences of 16-bit code units, so offsets, lengths and columns count one thing, and a
text may hold one half of a surrogate pair without the other.
-/

namespace StagedParser

/-- One 16-bit unit of a text. -/
abbrev CodeUnit := UInt16

/-- A text is the list of its code units. -/
abbrev Text := List CodeUnit

namespace Text

/-- The code units of a character: one below `0x10000`, a surrogate pair from there on. -/
def ofCharacter (character : Nat) : Text :=
  if character < 0x10000 then
    [character.toUInt16]
  else
    [(0xD800 + (character - 0x10000) / 0x400).toUInt16,
      (0xDC00 + (character - 0x10000) % 0x400).toUInt16]

/-- The code units of a string, in order. -/
def ofString (s : String) : Text :=
  s.toList.flatMap fun c => ofCharacter c.toNat

/-- The line feed, the only unit that starts a new line. -/
def lineFeed : CodeUnit := 10

/-- The decimal digits of a natural number, without leading zeros. -/
def ofNat (n : Nat) : Text :=
  (Nat.toDigits 10 n).map fun c => c.toNat.toUInt16

/-- The decimal digits of an integer, after a minus sign when it is negative. -/
def ofInt : Int → Text
  | .ofNat n => ofNat n
  | .negSucc n => ofString "-" ++ ofNat (n + 1)

/-- The texts one after another, with `separator` between neighbours. -/
def joinWith (separator : Text) : List Text → Text
  | [] => []
  | [last] => last
  | first :: rest => first ++ separator ++ joinWith separator rest

/-- Puts a unit at the front of the first piece. -/
def extendFirst (unit : CodeUnit) : List Text → List Text
  | [] => [[unit]]
  | first :: others => (unit :: first) :: others

/-- The pieces of a text between occurrences of a separator; `skip` units of one are still to
pass. -/
def pieces (separator : Text) : (skip : Nat) → Text → List Text
  | _, [] => [[]]
  | skip + 1, _ :: rest => pieces separator skip rest
  | 0, unit :: rest =>
    if separator.isPrefixOf (unit :: rest) then
      [] :: pieces separator (separator.length - 1) rest
    else
      extendFirst unit (pieces separator 0 rest)

/-- The pieces of `text` between occurrences of a non-empty `separator`, found from the left without
overlap. There is always at least one piece. -/
def splitOn (text separator : Text) : List Text :=
  pieces separator 0 text

/-- An index counted from the end when negative, then cut to the range `0 … length`. -/
def resolveIndex (length : Nat) (index : Int) : Nat :=
  if index < 0 then (length + index).toNat else min index.toNat length

/-- The units from `start` up to `stop`; a negative index counts from the end of the text. -/
def slice (text : Text) (start stop : Int) : Text :=
  (text.take (resolveIndex text.length stop)).drop (resolveIndex text.length start)

/-- Whether a unit is one of the decimal digits `0` to `9`. -/
def isDigitUnit (unit : CodeUnit) : Bool :=
  48 ≤ unit && unit ≤ 57

/-- Whether a unit is an ASCII letter from `a` to `z`. -/
def isLowerUnit (unit : CodeUnit) : Bool :=
  97 ≤ unit && unit ≤ 122

/-- Whether a unit is an ASCII letter from `A` to `Z`. -/
def isUpperUnit (unit : CodeUnit) : Bool :=
  65 ≤ unit && unit ≤ 90

/-- The natural number that decimal digits denote. -/
def natural (digits : Text) : Nat :=
  digits.foldl (fun n digit => 10 * n + (digit.toNat - 48)) 0

/-- A text between `"0"` and `"9"` in the order of code units. On one-unit texts these are the ASCII
digits; a longer text counts when its order puts it there, as `"12"` does. -/
def isDigit (text : Text) : Bool :=
  decide (ofString "0" ≤ text) && decide (text ≤ ofString "9")

/-- A text between `"a"` and `"z"` or between `"A"` and `"Z"` in the order of code units. -/
def isLetter (text : Text) : Bool :=
  (decide (ofString "a" ≤ text) && decide (text ≤ ofString "z")) ||
    (decide (ofString "A" ≤ text) && decide (text ≤ ofString "Z"))

end Text

end StagedParser
