import StagedParser.Text

/-!
Characters of a text. A surrogate pair stands for one character beyond `0xFFFF`; a surrogate without
its partner stands for none, and whatever stores texts outside puts the replacement character in
its place.
-/

namespace StagedParser

namespace Text

/-- Whether a unit is the first half of a surrogate pair. -/
def isHighSurrogate (unit : CodeUnit) : Bool :=
  0xD800 ≤ unit && unit ≤ 0xDBFF

/-- Whether a unit is the second half of a surrogate pair. -/
def isLowSurrogate (unit : CodeUnit) : Bool :=
  0xDC00 ≤ unit && unit ≤ 0xDFFF

/-- The character of a surrogate pair. -/
def ofSurrogates (high low : CodeUnit) : Nat :=
  0x10000 + (high.toNat - 0xD800) * 0x400 + (low.toNat - 0xDC00)

/-- The characters of a text: a surrogate pair is one, and so is every other unit. -/
def characters : Text → List Nat
  | [] => []
  | [unit] => [unit.toNat]
  | high :: low :: rest =>
    if isHighSurrogate high && isLowSurrogate low then
      ofSurrogates high low :: characters rest
    else
      high.toNat :: characters (low :: rest)

/-- Whether a character of a text is a surrogate without its partner. -/
def isSurrogate (character : Nat) : Bool :=
  0xD800 ≤ character && character ≤ 0xDFFF

def replacement : Nat := 0xFFFD

/-- The text with each surrogate that lacks its partner replaced. -/
def wellFormed (text : Text) : Text :=
  text.characters.flatMap fun character =>
    ofCharacter (if isSurrogate character then replacement else character)

end Text

end StagedParser
