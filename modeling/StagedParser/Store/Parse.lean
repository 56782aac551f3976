import StagedParser.Grammar.Parse
import StagedParser.Store.Machine

/-!
Parsing on the store: parsers call each other by their addresses, in a context and on a record. A
parser refers only to parsers that were put into the store before it, so a chain of calls is no longer
than the address it starts from.
-/

namespace StagedParser

variable {H : Host}

namespace Store

/-- Sets a record to what was taken since `start`, if anything was, and tells whether it was. -/
def settle (context : Context H) (record : Address) (start : Position) : Option Text → Work H Bool
  | none => return false
  | some taken => do
    recordRegion.write record (some ⟨start, ← context.position, .text taken⟩)
    return true

/-- Works on a new record and returns what was left there. -/
def onNewRecord {α : Type} (work : (record : Address) → Work H α) : Work H (α × MatchRecord) := do
  let own ← recordRegion.add none
  let value ← work own
  return (value, ← recordRegion.read own)

/-- Runs a parser on a new record and, if it matched, sets the record at hand to the same match with
its value converted. -/
def converting (conversion : Conversion H) (record : Address) (parser : (record : Address) → Work H Bool)
    : Work H Bool := do
  let (matched, inner) ← onNewRecord parser
  if matched then
    let found ← give inner.read
    let value ← give (conversion.apply found.value)
    recordRegion.write record (some { found with value })
  return matched

/-- Parses with the first of the given parsers that matches, returning to the start after each that
fails. -/
def parseFirst (context : Context H) (start : Position) (parse : (parser : Address) → Work H Bool)
    : List Address → Work H Bool
  | [] => return false
  | first :: rest => do
    if ← parse first then
      return true
    context.move (.moveTo start)
    parseFirst context start parse rest

/-- Lets the parser at an address parse, given how to call another one on a record. -/
def runParser (context : Context H) (call : (parser record : Address) → Work H Bool)
    (self record : Address) (parser : Parser H) : Work H Bool :=
  match parser.body with
  | .literal text ignoreCase => do
    context.watch parser.entry
    let start ← context.position
    settle context record start (← context.takeText text ignoreCase)
  | .pattern test min max => do
    context.watch parser.entry
    let start ← context.position
    settle context record start (← context.takeWhile (H.accepts test) min max)
  | .map source transform => do
    context.watch parser.entry
    converting transform record (call source)
  | .oneOf alternatives => do
    context.watch parser.entry
    let start ← context.position
    parseFirst context start (call · record) alternatives
  | .either left right ofLeft ofRight => do
    context.watch parser.entry
    let start ← context.position
    if ← converting ofLeft record (call left) then
      return true
    context.move (.moveTo start)
    if ← converting ofRight record (call right) then
      return true
    context.move (.moveTo start)
    return false
  | .relay source => call source record
  | .generated name program => do
    runProgram context self record name (← give program)
  | .foreign conduct => (H.conduct conduct parser.entry).runOn context record
  | .never => return false

/-- Parses with the parser at an address on the record at another, where no chain of calls is longer
than `depth`. -/
def parseWithin (context : Context H) : (depth : Nat) → (parser record : Address) → Work H Bool
  | 0, _, _ => stuck
  | depth + 1, parser, record => do
    runParser context (parseWithin context depth) parser record (← parserRegion.read parser)

/-- Parses with the parser at an address on the record at another. -/
def parse (context : Context H) (parser record : Address) : Work H Bool :=
  parseWithin context (parser + 1) parser record

-----------------------------------------------------------------------------------------
-- Putting parsers into the store
-----------------------------------------------------------------------------------------

mutual

/-- Puts a grammar into the store, what it is made of first, and returns its address. -/
def place (grammar : Grammar H) : Work H Address :=
  match grammar with
  | .literal _ text ignoreCase => parserRegion.add ⟨grammar.entry, .literal text ignoreCase⟩
  | .pattern _ test min max => parserRegion.add ⟨grammar.entry, .pattern test min max⟩
  | .map _ source transform => do
    let source ← place source
    parserRegion.add ⟨grammar.entry, .map source transform⟩
  | .oneOf _ alternatives => do
    let alternatives ← placeAll alternatives
    parserRegion.add ⟨grammar.entry, .oneOf alternatives⟩
  | .either _ left right ofLeft ofRight => do
    let left ← place left
    let right ← place right
    parserRegion.add ⟨grammar.entry, .either left right ofLeft ofRight⟩
  | .staged _ source false => do
    let source ← place source
    parserRegion.add ⟨grammar.entry, .relay source⟩
  | .staged _ source true =>
    parserRegion.add ⟨grammar.entry, .generated source.name source.program⟩
  | .foreign _ _ parser => parserRegion.add ⟨grammar.entry, .foreign parser⟩
  | .scripted .. => parserRegion.add ⟨grammar.entry, .never⟩

def placeAll : List (Grammar H) → Work H (List Address)
  | [] => return []
  | first :: rest => do return (← place first) :: (← placeAll rest)

end

end Store

end StagedParser
