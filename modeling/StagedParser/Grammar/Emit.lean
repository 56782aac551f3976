import StagedParser.Workbench

/-!
From grammars to code. Every node takes its names in a scope of its own and splices the fragments of
its children into its own, so that a whole grammar becomes one flat body of code.
-/

namespace StagedParser

open Code

namespace Emit

variable {H : Host}

/-- The names and the announcement that a choice works with. -/
structure Choice where
  success : Name
  value : Name
  start : Name
  label : Name
  entrance : Stmt

/-- The code that tries an alternative: its own code, the way out if it matched, and the way back.
-/
def alternative (choice : Choice) (fragment : Fragment) (conversion : Conversion H)
    : Emit H (List Stmt) := do
  let converted ← convert fragment.value conversion
  return fragment.spliced ++
    [ .branch fragment.success
        [ .assign choice.success (.atom (.flag true)),
          .assign choice.value converted,
          .leave choice.label ]
        [],
      .moveTo (.name choice.start) ]

/-- The fragment of a choice whose alternatives have the given code. -/
def Choice.fragment (choice : Choice) (alternatives : List Stmt) : Fragment where
  locals := [choice.success, choice.value, choice.start]
  body :=
    [ choice.entrance,
      .assign choice.start (.atom .position),
      .block choice.label (alternatives ++ [.assign choice.success (.atom (.flag false))]) ]
  success := choice.success
  value := .name choice.value

/-- The names of a choice with at least one alternative. -/
def beginChoice (grammar : Grammar H) : Emit H Choice := do
  let success ← declare (Text.ofString "orSuccess")
  let value ← declare (Text.ofString "orValue")
  let entrance ← enter grammar
  let start ← declare (Text.ofString "orStart")
  let label ← declare (Text.ofString "choice")
  return { success, value, start, label, entrance }

/-- The fragment of a choice without alternatives, which always fails. -/
def emptyChoice (grammar : Grammar H) : Emit H Fragment := do
  let success ← declare (Text.ofString "orSuccess")
  let _ ← declare (Text.ofString "orValue")
  let entrance ← enter grammar
  return {
    locals := [success]
    body := [entrance, .assign success (.atom (.flag false))]
    success
    value := .absent }

/-- The fragment of a parser that reads the cursor by one call of a method. -/
def reading (grammar : Grammar H) (success value : Text) (method : Method)
    (arguments : Emit H (List Atom)) : Emit H Fragment := do
  let success ← declare success
  let value ← declare value
  let entrance ← enter grammar
  let arguments ← arguments
  return {
    locals := [success, value]
    body :=
      [ entrance,
        .assign value (.onCursor method arguments),
        .assign success (.notNull (.name value)) ]
    success
    value := .name value }

/-- The fragment of a parser that is called through the table of constants. -/
def delegation (grammar : Grammar H) : Emit H Fragment := do
  let success ← declare (Text.ofString "delegateSuccess")
  let record ← declare (Text.ofString "delegateResult")
  let maker ← constant .recordMaker
  let self ← constant (.ofGrammar grammar)
  return {
    locals := [success, record]
    body := [.assign record (.newRecord maker), .assign success (.parse self record)]
    success
    value := .valueOf record }

/-- The fragment of a parser that emits code of its own. -/
def scripted : Emission → Emit H Fragment
  | .refused => throw .outOfRange
  | .garbled => do
    let success ← declare (Text.ofString "brokenSuccess")
    return { locals := [success], body := [.garbled success], success, value := .null }
  | .answer value => do
    let success ← declare (Text.ofString "retSuccess")
    let slot ← constant (.plain value)
    return { locals := [], body := [.answer (.slot slot)], success, value := .null }

end Emit

open Emit

variable {H : Host}

mutual

def Grammar.emit (grammar : Grammar H) : Emit H Fragment :=
  match grammar with
  | .literal _ text ignoreCase =>
    reading grammar (Text.ofString "litSuccess") (Text.ofString "litValue") .takeText
      (return [.text text, .flag ignoreCase])
  | .pattern _ test min max =>
    reading grammar (Text.ofString "patSuccess") (Text.ofString "patValue") .takeWhile do
      return [.slot (← constant (.conversion (.given test))), .count min, .count max]
  | .map _ source transform => do
    let success ← declare (Text.ofString "thenSuccess")
    let value ← declare (Text.ofString "thenValue")
    let inner ← inScope source.emit
    let entrance ← enter grammar
    let function ← constant (.conversion transform)
    return {
      locals := [success, value]
      body := entrance :: inner.spliced ++
        [ .branch inner.success
            [ .assign success (.atom (.flag true)), .assign value (.call function inner.value) ]
            [ .assign success (.atom (.flag false)) ] ]
      success
      value := .name value }
  | .oneOf _ [] => emptyChoice grammar
  | .oneOf _ alternatives => do
    let choice ← beginChoice grammar
    return choice.fragment (← emitAlternatives choice alternatives)
  | .either _ left right ofLeft ofRight => do
    let choice ← beginChoice grammar
    let first ← alternative choice (← inScope left.emit) ofLeft
    let second ← alternative choice (← inScope right.emit) ofRight
    return choice.fragment (first ++ second)
  | .staged _ source _ => inScope source.emit
  | .foreign .. => delegation grammar
  | .scripted _ _ emission => scripted emission

def emitAlternatives (choice : Choice) : List (Grammar H) → Emit H (List Stmt)
  | [] => return []
  | first :: rest => do
    let code ← alternative choice (← inScope first.emit) .identity
    return code ++ (← emitAlternatives choice rest)

end

/-- The code of a grammar: it notes the start, runs the grammar's fragment and, on success,
reports the match. -/
def Grammar.code (grammar : Grammar H) : Emit H (List Stmt) := do
  let fragment ← inScope grammar.emit
  let start ← declare (Text.ofString "start")
  return .define start .position :: fragment.spliced ++
    [ .branch fragment.success
        [.report (.name start) .position fragment.value, .answer (.flag true)] [],
      .answer (.flag false) ]

end StagedParser
