import StagedParser.Grammar

/-!
A host with a stock of functions, tests and parsers: enough to exercise every way in which a
grammar's borrowed parts can behave, well and badly.
-/

namespace StagedParser

namespace Stock

inductive TestForm where
  | digit
  | letter
  | any
  | none
  | newline
  | fail
  | chars (units : Text)
  | negated (form : TestForm)
  | failOn (text : Text)
deriving DecidableEq, Repr

def TestForm.word : TestForm → Text
  | .digit => Text.ofString "digit"
  | .letter => Text.ofString "letter"
  | .any => Text.ofString "any"
  | .none => Text.ofString "none"
  | .newline => Text.ofString "newline"
  | .fail => Text.ofString "throw"
  | .chars _ => Text.ofString "chars"
  | .negated _ => Text.ofString "not"
  | .failOn _ => Text.ofString "throwOn"

/-- The forms that a word alone names. -/
def TestForm.named : List TestForm :=
  [.digit, .letter, .any, .none, .newline, .fail]

/-- The fault of a failing test. -/
def testFault : Fault :=
  .failure (Text.ofString "predicate failed")

def TestForm.accepts (unit : CodeUnit) : TestForm → Except Fault Bool
  | .digit => .ok (Text.isDigit [unit])
  | .letter => .ok (Text.isLetter [unit])
  | .any => .ok true
  | .none => .ok false
  | .newline => .ok (unit == Text.lineFeed)
  | .fail => .error testFault
  | .chars units => .ok (units.contains unit)
  | .negated form => (form.accepts unit).map (!·)
  | .failOn text => if text = [unit] then .error testFault else .ok true

/-- A test: a form with an identity. Tests that a word alone names all have the identity zero. -/
structure Test where
  id : Nat
  form : TestForm
deriving DecidableEq, Repr

inductive Function where
  | same
  | length
  | wrap
  | record
  | int
  | bang
  | null
  | absent
  | fail
  /-- A test. -/
  | test (symbol : Test)
deriving DecidableEq, Repr

def Function.word : Function → Text
  | .same => Text.ofString "same"
  | .length => Text.ofString "length"
  | .wrap => Text.ofString "wrap"
  | .record => Text.ofString "object"
  | .int => Text.ofString "int"
  | .bang => Text.ofString "bang"
  | .null => Text.ofString "null"
  | .absent => Text.ofString "undefined"
  | .fail => Text.ofString "throw"
  | .test symbol => symbol.form.word

/-- The functions that a word alone names, apart from tests. -/
def Function.all : List Function :=
  [.same, .length, .wrap, .record, .int, .bang, .null, .absent, .fail]

/-- The number of units or items of a value, and minus one for a value that has none. -/
def lengthOf : Value → Int
  | .text text => text.length
  | .list items => items.length
  | _ => -1

/-- The number that a text of one to fifteen digits denotes; null for anything else. -/
def intOf : Value → Value
  | .text text =>
    if 1 ≤ text.length ∧ text.length ≤ 15 ∧ text.all Text.isDigitUnit then
      .number (Number.ofNat text.natural)
    else
      .null
  | _ => .null

/-- A text with an exclamation mark after it; any other value as it is. -/
def bangOf : Value → Value
  | .text text => .text (text ++ Text.ofString "!")
  | value => value

def Function.apply : Function → Value → Except Fault Value
  | .same, value => .ok value
  | .length, value => .ok (.number (Number.ofInt (lengthOf value)))
  | .wrap, value => .ok (.list [value])
  | .record, value => .ok (.record (.cons (Text.ofString "v") value .nil))
  | .int, value => .ok (intOf value)
  | .bang, value => .ok (bangOf value)
  | .null, _ => .ok .null
  | .absent, _ => .ok .absent
  | .fail, _ => .error (.failure (Text.ofString "transform failed"))
  | .test symbol, .text [unit] => (symbol.form.accepts unit).map .flag
  | .test _, _ => .ok (.flag false)

/-- Whether a function lets a unit pass: it is applied to the unit, and what comes of it must count
as true. -/
def Function.accepts (function : Function) (unit : CodeUnit) : Except Fault Bool :=
  (function.apply (.text [unit])).map (·.isTruthy)

/-- The parsers of the stock. Each one announces itself and advances by `count` units first. -/
inductive Parser where
  /-- Fails and leaves the cursor where it is. -/
  | overrun (count : Number)
  /-- Sets the record and fails. -/
  | stale (count : Number)
  /-- Sets the record and succeeds. -/
  | take (count : Number)
  /-- Sets the record to something made up and succeeds. -/
  | liar (count : Number)
  /-- Succeeds without setting the record. -/
  | silent (count : Number)
  /-- Raises a fault. -/
  | thrower (count : Number)
deriving DecidableEq, Repr

def Parser.name : Parser → Text
  | .overrun _ => Text.ofString "Overrun"
  | .stale _ => Text.ofString "StaleWriter"
  | .take _ => Text.ofString "Take"
  | .liar _ => Text.ofString "Liar"
  | .silent _ => Text.ofString "Silent"
  | .thrower _ => Text.ofString "Thrower"

/-- The match of what was passed between two states of a cursor. -/
def passed (before after : Cursor) : Match :=
  ⟨before.position, after.position, .text (before.upTo after.offset)⟩

/-- The match that is made up. -/
def madeUp : Match :=
  ⟨⟨7, 8, 9⟩, ⟨70, 80, 90⟩, .text (Text.ofString "lie")⟩

/-- Advances and sets the record to what was passed, and then ends with a verdict. -/
def takeAndFinish (count : Number) (matched : Bool) : Conduct :=
  .observe fun before _ =>
    .move (.advance count) <|
      .observe fun after _ =>
        .write (some (passed before after)) (.finish matched)

/-- What a parser does after announcing itself. -/
def Parser.act : Parser → Conduct
  | .overrun count => .move (.advance count) (.finish false)
  | .stale count => takeAndFinish count false
  | .take count => takeAndFinish count true
  | .liar count => .move (.advance count) (.write (some madeUp) (.finish true))
  | .silent count => .move (.advance count) (.finish true)
  | .thrower count => .move (.advance count) (.raise (.failure (Text.ofString "boom")))

def host : Host where
  Function := Function
  Foreign := Parser
  decFunction := inferInstance
  decForeign := inferInstance
  apply := Function.apply
  accepts := Function.accepts
  conduct parser entry := .announce entry parser.act

end Stock

end StagedParser
