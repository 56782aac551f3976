import StagedParser.Text.Characters
import StagedParser.Text.LetterCase

/-!
Lower-casing of texts. A surrogate pair is one character; each character has its own lower-case
form, except the capital sigma, whose form depends on the cased characters around it.
-/

namespace StagedParser

namespace LetterCase

def Range.contains (range : Range) (character : Nat) : Bool :=
  range.first ≤ character && character ≤ range.last

/-- Whether a row of shifts holds a character. -/
def Shift.contains (row : Shift) (character : Nat) : Bool :=
  row.first ≤ character && character ≤ row.last && (character - row.first) % row.step == 0

/-- Characters that count as cased and are not passed over. -/
def isCased (character : Nat) : Bool :=
  casedRanges.any (·.contains character)

/-- Characters that are passed over when looking for a cased neighbour. -/
def isIgnorable (character : Nat) : Bool :=
  ignorableRanges.any (·.contains character)

def capitalSigma : Nat := 0x3A3

/-- The small sigma inside a word. -/
def smallSigma : Nat := 0x3C3

/-- The small sigma at the end of a word. -/
def finalSigma : Nat := 0x3C2

/-- The capital I with a dot above, the only character with a lower-case form of two characters. -/
def dottedCapitalI : Nat := 0x130

/-- The lower-case form of a character without regard to its neighbours. -/
def lowerForm (character : Nat) : List Nat :=
  if character < 128 then
    [if 65 ≤ character ∧ character ≤ 90 then character + 32 else character]
  else if character = dottedCapitalI then
    [0x69, 0x307]
  else
    match shifts.find? (·.contains character) with
    | some row => [(character + row.shift).toNat]
    | none => [character]

/-- Whether the first character that is not passed over is a cased one. -/
def meetsCased (characters : List Nat) : Bool :=
  match characters.dropWhile isIgnorable with
  | [] => false
  | character :: _ => isCased character

/-- Lower-cases characters one by one; `before` holds those already passed, the last one first.
A capital sigma ends a word when a cased character stands before it and none after it. -/
def lowerCharacters (before : List Nat) : List Nat → List Nat
  | [] => []
  | character :: after =>
    let form :=
      if character = capitalSigma then
        [if meetsCased before && !meetsCased after then finalSigma else smallSigma]
      else
        lowerForm character
    form ++ lowerCharacters (character :: before) after

end LetterCase

namespace Text

def lowerCase (text : Text) : Text :=
  (LetterCase.lowerCharacters [] text.characters).flatMap ofCharacter

end Text

end StagedParser
