import StagedParser.Value.Inheritance

/-!
Reading JSON. Each reader takes a value from the front of a text and returns it with the rest;
nesting is bounded by the length of the text. JSON inside of a wider format has to obey the rules
of that format as well.
-/

namespace StagedParser

namespace Json

/-- The blanks of JSON: space, tab, line feed and carriage return. -/
def isBlank (unit : CodeUnit) : Bool :=
  unit == 32 || unit == 9 || unit == 10 || unit == 13

/-- What is allowed in records, and what becomes of numbers that are too large. -/
structure Rules where
  /-- A key may occur again; its last value counts. -/
  repeatedKeys : Bool
  /-- A line may end between a key and its colon. -/
  brokenKeys : Bool
  /-- A number beyond all finite ones is infinite; otherwise it is just a text. -/
  infinities : Bool
  /-- The key of the gate gives the record a parent; otherwise it is a key like any other. -/
  gate : Bool

/-- The rules of JSON itself. -/
def Rules.json : Rules := ⟨true, true, true, false⟩

/-- The rules of JSON as a part of YAML. -/
def Rules.yaml : Rules := ⟨false, false, false, false⟩

/-- The rules of JSON as a part of a script. -/
def Rules.script : Rules := ⟨true, true, true, true⟩

/-- The text without the blanks at its front. -/
def skipBlanks (text : Text) : Text :=
  text.dropWhile isBlank

/-- Takes a fixed text from the front. -/
def expect (expected text : Text) : Option Text :=
  if expected.isPrefixOf text then some (text.drop expected.length) else none

/-- Takes the colon after a key, blanks before it included. -/
def readColon (rules : Rules) (text : Text) : Option Text :=
  let blanks := text.takeWhile isBlank
  if !rules.brokenKeys && (blanks.contains 10 || blanks.contains 13) then
    none
  else
    expect (Text.ofString ":") (text.drop blanks.length)

/-- The value of a hexadecimal digit. -/
def hexValue? (unit : CodeUnit) : Option Nat :=
  if Text.isDigitUnit unit then some (unit.toNat - 48)
  else if 97 ≤ unit && unit ≤ 102 then some (unit.toNat - 87)
  else if 65 ≤ unit && unit ≤ 70 then some (unit.toNat - 55)
  else none

/-- The unit that four hexadecimal digits denote. -/
def hexUnit? (a b c d : CodeUnit) : Option CodeUnit := do
  let high := 4096 * (← hexValue? a) + 256 * (← hexValue? b)
  let low := 16 * (← hexValue? c) + (← hexValue? d)
  return (high + low).toUInt16

/-- The unit that the letter of a two-unit escape stands for. -/
def unescape? (letter : CodeUnit) : Option CodeUnit :=
  if letter = 34 || letter = 92 || letter = 47 then some letter
  else if letter = 98 then some 8
  else if letter = 102 then some 12
  else if letter = 110 then some 10
  else if letter = 114 then some 13
  else if letter = 116 then some 9
  else none

/-- Reads the rest of a string after its opening quote. -/
def readString : Text → Option (Text × Text)
  | [] => none
  | 34 :: rest => some ([], rest)
  | 92 :: 117 :: a :: b :: c :: d :: rest => do
    let unit ← hexUnit? a b c d
    let (text, rest) ← readString rest
    return (unit :: text, rest)
  | 92 :: letter :: rest => do
    let unit ← unescape? letter
    let (text, rest) ← readString rest
    return (unit :: text, rest)
  | unit :: rest =>
    if unit < 32 || unit = 92 then
      none
    else do
      let (text, rest) ← readString rest
      return (unit :: text, rest)

/-- Takes the digits at the front of a text; there must be at least one. -/
def readDigits (text : Text) : Option (Text × Text) :=
  let digits := text.takeWhile Text.isDigitUnit
  if digits.isEmpty then none else some (digits, text.drop digits.length)

/-- Reads an exponent, if there is one. -/
def readExponent : Text → Option (Int × Text)
  | unit :: rest =>
    if unit = 101 || unit = 69 then
      match rest with
      | 45 :: rest => (readDigits rest).map fun (digits, rest) => (-(digits.natural : Int), rest)
      | 43 :: rest => (readDigits rest).map fun (digits, rest) => ((digits.natural : Int), rest)
      | _ => (readDigits rest).map fun (digits, rest) => ((digits.natural : Int), rest)
    else
      some (0, unit :: rest)
  | [] => some (0, [])

/-- Reads a fraction, if there is one. -/
def readFraction : Text → Option (Text × Text)
  | 46 :: rest => readDigits rest
  | rest => some ([], rest)

/-- The value of a number that is written in the given way. -/
def numeral (rules : Rules) (written : Text) : Number → Value
  | .infinite negative => if rules.infinities then .number (.infinite negative) else .text written
  | number => .number number

/-- Reads a number after its sign. -/
def readNumber (rules : Rules) (negative : Bool) (text : Text) : Option (Value × Text) := do
  let (whole, rest) ← readDigits text
  if whole.length > 1 ∧ whole.head? = some 48 then
    none
  else
    let (fraction, rest) ← readFraction rest
    let (exponent, rest) ← readExponent rest
    let magnitude : Int := (whole ++ fraction).natural
    let digits := if negative then -magnitude else magnitude
    let sign := Text.ofString (if negative then "-" else "")
    let written := sign ++ text.take (text.length - rest.length)
    return (numeral rules written (Number.ofDecimal digits (exponent - fraction.length)), rest)

mutual

/-- Reads a value, blanks before it included. -/
def readValue (rules : Rules) : (fuel : Nat) → Text → Option (Value × Text)
  | 0, _ => none
  | fuel + 1, text =>
    match skipBlanks text with
    | 123 :: rest =>
      match skipBlanks rest with
      | 125 :: rest => some (.record .nil, rest)
      | _ => readFields rules fuel .nil rest
    | 91 :: rest =>
      match skipBlanks rest with
      | 93 :: rest => some (.list [], rest)
      | _ => readItems rules fuel [] rest
    | 34 :: rest => (readString rest).map fun (text, rest) => (.text text, rest)
    | 45 :: rest => readNumber rules true rest
    | rest =>
      if let some rest := expect (Text.ofString "true") rest then some (.flag true, rest)
      else if let some rest := expect (Text.ofString "false") rest then some (.flag false, rest)
      else if let some rest := expect (Text.ofString "null") rest then some (.null, rest)
      else readNumber rules false rest

/-- Reads the fields of a record up to its closing brace; `done` were read before. -/
def readFields (rules : Rules) : (fuel : Nat) → (done : Fields) → Text → Option (Value × Text)
  | 0, _, _ => none
  | fuel + 1, done, text => do
    let rest ← expect (Text.ofString "\"") (skipBlanks text)
    let (key, rest) ← readString rest
    let rest ← readColon rules rest
    let (value, rest) ← readValue rules fuel rest
    if !rules.repeatedKeys && (done.get? key).isSome then
      none
    else
      let done := if rules.gate then done.assign key value else done.put key value
      match skipBlanks rest with
      | 44 :: rest => readFields rules fuel done rest
      | 125 :: rest => return (.record done, rest)
      | _ => none

/-- Reads the items of a list up to its closing bracket; `done` were read before, the last one
first. -/
def readItems (rules : Rules) : (fuel : Nat) → (done : List Value) → Text → Option (Value × Text)
  | 0, _, _ => none
  | fuel + 1, done, text => do
    let (item, rest) ← readValue rules fuel text
    match skipBlanks rest with
    | 44 :: rest => readItems rules fuel (item :: done) rest
    | 93 :: rest => return (.list (item :: done).reverse, rest)
    | _ => none

end

/-- The value that a whole text denotes, if the text is JSON. -/
def read? (rules : Rules) (text : Text) : Option Value :=
  match readValue rules (text.length + 1) text with
  | some (value, rest) => if (skipBlanks rest).isEmpty then some value else none
  | none => none

end Json

end StagedParser
