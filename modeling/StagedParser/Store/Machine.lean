import StagedParser.Store

/-!
Running generated code on the store. A call of a program has a frame of its own for its locals; the
constants it refers to are read from the parser that the program belongs to, each time they are used,
and the records it makes are new ones.
-/

namespace StagedParser

open Code

namespace Store

/-- What follows a statement. -/
inductive Flow where
  | next
  | leave (label : Name)
  | answer (datum : Datum)

/-- A call of a program: the context and the record that the caller handed over, the parser whose
program it is, and the frame. -/
structure Call (H : Host) where
  context : Context H
  record : Address
  parser : Address
  frame : Address

variable {H : Host}

namespace Call

/-- The constant in a slot. -/
def constant (call : Call H) (slot : Nat) : Work H (Constant H) := do
  match (← parserRegion.read call.parser).body with
  | .generated _ (.ok program) =>
    match program.table[slot]? with
    | some constant => return constant
    | none => stuck
  | _ => stuck

/-- What a local holds; nothing before it is declared. -/
def get (call : Call H) (name : Name) : Work H Datum := do
  match (← frameRegion.read call.frame).lookup name with
  | some datum => return datum
  | none => stuck

def set (call : Call H) (name : Name) (datum : Datum) : Work H Unit := do
  frameRegion.write call.frame ((name, datum) :: (← frameRegion.read call.frame))

def declare (call : Call H) : List Name → Work H Unit
  | [] => return ()
  | name :: rest => do
    call.set name (.value .absent)
    call.declare rest

def atom (call : Call H) : Atom → Work H Datum
  | .name held => call.get held
  | .text value => return .value (.text value)
  | .number value => return .value (.number value)
  | .count value => return .value (.number (Number.ofNat value))
  | .flag value => return .value (.flag value)
  | .null => return .value .null
  | .absent => return .value .absent
  | .slot index => do
    match ← call.constant index with
    | .plain constant => return .value constant.value
    | _ => stuck
  | .cursor => stuck
  | .position => do return .position (← call.context.position)
  | .valueOf record => do
    match ← call.get record with
    | .record address => do return .value (← give (← recordRegion.read address).read).value
    | _ => stuck

def atomValue (call : Call H) (atom : Atom) : Work H Value := do
  match ← call.atom atom with
  | .value held => return held
  | _ => stuck

def atomPosition (call : Call H) (atom : Atom) : Work H Position := do
  match ← call.atom atom with
  | .position held => return held
  | _ => stuck

/-- The text that was taken, or null. -/
def taken : Option Text → Datum
  | some text => .value (.text text)
  | none => .value .null

def method (call : Call H) : Method → List Atom → Work H Datum
  | .takeText, [.text text, .flag ignoreCase] => do
    return taken (← call.context.takeText text ignoreCase)
  | .takeWhile, [.slot index, .count min, .count max] => do
    match ← call.constant index with
    | .conversion (.given test) => do
      return taken (← call.context.takeWhile (H.accepts test) min max)
    | _ => stuck
  | _, _ => stuck

def expression (call : Call H) : Expr → Work H Datum
  | .atom value => call.atom value
  | .newRecord slot => do
    match ← call.constant slot with
    | .recordMaker => return .record (← recordRegion.add none)
    | _ => stuck
  | .parse slot record => do
    match ← call.constant slot, ← call.get record with
    | .foreign entry parser, .record address => do
      return .value (.flag (← (H.conduct parser entry).runOn call.context address))
    | _, _ => stuck
  | .onCursor method arguments => call.method method arguments
  | .call slot argument => do
    match ← call.constant slot with
    | .conversion function => do
      return .value (← give (function.apply (← call.atomValue argument)))
    | _ => stuck
  | .notNull value => do
    match ← call.atom value with
    | .value .null => return .value (.flag false)
    | _ => return .value (.flag true)

mutual

def statement (call : Call H) : Stmt → Work H Flow
  | .declare names => do
    call.declare names
    return .next
  | .define name value => do
    call.set name (← call.atom value)
    return .next
  | .assign target value => do
    call.set target (← call.expression value)
    return .next
  | .enter slot => do
    match ← call.constant slot with
    | .parser entry | .foreign entry _ => do
      call.context.watch entry
      return .next
    | _ => stuck
  | .moveTo target => do
    call.context.move (.moveTo (← call.atomPosition target))
    return .next
  | .block label body => do
    match ← call.statements body with
    | .leave target => return (if target = label then .next else .leave target)
    | flow => return flow
  | .leave label => return .leave label
  | .branch condition yes no => do
    if (← call.get condition).isTruthy then call.statements yes else call.statements no
  | .report start stop value => do
    let start ← call.atomPosition start
    let stop ← call.atomPosition stop
    let value ← call.atomValue value
    recordRegion.write call.record (some ⟨start, stop, value⟩)
    return .next
  | .answer value => do return .answer (← call.atom value)
  | .garbled _ => stuck

/-- Runs statements one after another, until one does not let the next one follow. -/
def statements (call : Call H) : List Stmt → Work H Flow
  | [] => return .next
  | first :: rest => do
    match ← call.statement first with
    | .next => call.statements rest
    | flow => return flow

end

/-- The answer that a run of code ends with; code that ends without one answers with nothing. -/
def answer (call : Call H) (code : List Stmt) : Work H Datum := do
  match ← call.statements code with
  | .answer datum => return datum
  | _ => return .value .absent

end Call

/-- Calls the program of the parser at an address, which goes by the given name. -/
def runProgram (context : Context H) (parser record : Address) (name : Text) (program : Program H)
    : Work H Bool := do
  let frame ← frameRegion.add []
  match ← Call.answer { context, record, parser, frame } program.code with
  | .value (.flag matched) => return matched
  | datum => throw (.staging (.notBoolean name datum.typeName) program.text none)

end Store

end StagedParser
