import StagedParser.Program

/-!
Parsing with grammars by interpretation. A choice tries its alternatives in order and returns to
where it started after each one that fails. `oneOf` hands its own record down to its alternatives;
`map` and `either` hand down new ones and set their own from them.
-/

namespace StagedParser

variable {H : Host} {σ : Type}

namespace Parsing

/-- Sets the record to what was taken since `start`, if anything was, and tells whether it was. -/
def settle (start : Position) : Option Text → Parsing σ Bool
  | none => return false
  | some taken => do
    write (some ⟨start, ← position, .text taken⟩)
    return true

/-- Runs a parser on a new record and, if it matched, sets the record at hand to the same match with
its value converted. -/
def converting (conversion : Conversion H) (parser : Parsing σ Bool) : Parsing σ Bool := do
  let (matched, inner) ← onRecord none parser
  if matched then
    let found ← ofResult inner.read
    let value ← ofResult (conversion.apply found.value)
    write (some { found with value })
  return matched

def returnTo (start : Position) : Parsing σ Unit :=
  move (.moveTo start)

end Parsing

open Parsing

mutual

/-- Parses with a grammar at the cursor and tells whether it matched. -/
def Grammar.parse (hook : Hook σ) (grammar : Grammar H) : Parsing σ Bool :=
  match grammar with
  | .literal _ text ignoreCase => do
    enter hook grammar.entry
    let start ← position
    settle start (← takeText text ignoreCase)
  | .pattern _ test min max => do
    enter hook grammar.entry
    let start ← position
    settle start (← takeWhile (H.accepts test) min max)
  | .map _ source transform => do
    enter hook grammar.entry
    converting transform (source.parse hook)
  | .oneOf _ alternatives => do
    enter hook grammar.entry
    let start ← position
    parseFirst hook start alternatives
  | .either _ left right ofLeft ofRight => do
    enter hook grammar.entry
    let start ← position
    if ← converting ofLeft (left.parse hook) then
      return true
    returnTo start
    if ← converting ofRight (right.parse hook) then
      return true
    returnTo start
    return false
  | .staged _ source true => do
    let program ← ofResult source.program
    program.run hook source.name
  | .staged _ source false => source.parse hook
  | .foreign _ _ parser => (H.conduct parser grammar.entry).run hook
  | .scripted .. => return false

/-- Parses with the first alternative that matches, returning to the start after each that fails. -/
def parseFirst (hook : Hook σ) (start : Position) : List (Grammar H) → Parsing σ Bool
  | [] => return false
  | first :: rest => do
    if ← first.parse hook then
      return true
    returnTo start
    parseFirst hook start rest

end

/-- The outcome of parsing a buffer from its start. -/
inductive Outcome where
  | matched (found : Match)
  | failed (position : Position)

/-- The scene before the first unit of a buffer, with an unset record. -/
def Scene.start (buffer : Buffer) (notes : σ) : Scene σ :=
  ⟨.start buffer, none, notes⟩

/-- Parses a buffer from its start. A match need not reach the end. -/
def Grammar.tryParse (grammar : Grammar H) (buffer : Buffer) : Except Fault Outcome :=
  match grammar.parse Hook.silent (.start buffer ()) with
  | .ok true scene => scene.record.read.map .matched
  | .ok false scene => .ok (.failed scene.cursor.position)
  | .error fault _ => .error fault

/-- Parses a buffer from its start to its end and returns the value. -/
def Grammar.parseAll (grammar : Grammar H) (buffer : Buffer) : Except Fault Value := do
  match ← grammar.tryParse buffer with
  | .failed position => .error (.mismatch buffer.text position grammar.name)
  | .matched found =>
    if found.stop.offset = Number.ofNat buffer.size then
      return found.value
    else
      .error (.mismatch buffer.text found.stop (Text.ofString "end of input"))

end StagedParser
