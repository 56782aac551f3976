import StagedParser.Text.Characters

/-!
Quoted texts. Generated code writes a text in double quotes with everything outside printable ASCII
escaped; names quote a text as JSON does, which escapes only what JSON must.
-/

namespace StagedParser

namespace Text

def quoteMark : CodeUnit := 34

/-- The backslash, which starts every escape. -/
def backslash : CodeUnit := 92

/-- The hexadecimal digit of a number below sixteen; `ten` is the digit for ten. -/
def hexDigit (ten : CodeUnit) (n : Nat) : CodeUnit :=
  if n < 10 then 48 + n.toUInt16 else ten + (n - 10).toUInt16

/-- The four hexadecimal digits of a unit. -/
def hexDigits (ten unit : CodeUnit) : Text :=
  let n := unit.toNat
  [n / 4096 % 16, n / 256 % 16, n / 16 % 16, n % 16].map (hexDigit ten)

/-- The escape `\u` with four hexadecimal digits. -/
def unicodeEscape (ten unit : CodeUnit) : Text :=
  backslash :: 117 :: hexDigits ten unit

/-- The letter that follows the backslash in the two-unit escape of a unit, if it has one. -/
def escapeLetter? (unit : CodeUnit) : Option CodeUnit :=
  if unit = backslash then some backslash
  else if unit = quoteMark then some quoteMark
  else if unit = 8 then some 98
  else if unit = 9 then some 116
  else if unit = 10 then some 110
  else if unit = 11 then some 118
  else if unit = 12 then some 102
  else if unit = 13 then some 114
  else none

/-- A unit as it is written inside a literal of generated code. NUL is `\0`, but `\x00` before a
digit, where `\0` would be read on; what `rest` begins with decides. -/
def literalUnit (unit : CodeUnit) (rest : Text) : Text :=
  match escapeLetter? unit with
  | some letter => [backslash, letter]
  | none =>
    if unit = 0 then
      if (rest.head?.map isDigitUnit).getD false then
        backslash :: ofString "x00"
      else
        backslash :: ofString "0"
    else if unit < 32 || 127 < unit then
      unicodeEscape 65 unit
    else
      [unit]

/-- The units of a text as they are written inside a literal of generated code. -/
def literalUnits : Text → Text
  | [] => []
  | unit :: rest => literalUnit unit rest ++ literalUnits rest

/-- A text as a string literal of generated code. -/
def literal (text : Text) : Text :=
  quoteMark :: (literalUnits text ++ [quoteMark])

/-- A unit that is not half of a pair, as JSON writes it inside a string. -/
def jsonUnit (unit : CodeUnit) : Text :=
  if unit = 11 then
    unicodeEscape 97 unit
  else
    match escapeLetter? unit with
    | some letter => [backslash, letter]
    | none =>
      if unit < 32 || isHighSurrogate unit || isLowSurrogate unit then
        unicodeEscape 97 unit
      else
        [unit]

/-- The units of a text as JSON writes them inside a string: a surrogate pair stays as it is, a
surrogate without its partner is escaped. -/
def jsonUnits : Text → Text
  | [] => []
  | [unit] => jsonUnit unit
  | high :: low :: rest =>
    if isHighSurrogate high && isLowSurrogate low then
      high :: low :: jsonUnits rest
    else
      jsonUnit high ++ jsonUnits (low :: rest)

/-- A text as a JSON string. -/
def json (text : Text) : Text :=
  quoteMark :: (jsonUnits text ++ [quoteMark])

end Text

end StagedParser
