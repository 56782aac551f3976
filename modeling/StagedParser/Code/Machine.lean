import StagedParser.Code
import StagedParser.Grammar

/-!
Running generated code. Locals hold values, positions and records; a statement either lets the
next one follow, leaves a labelled block, or ends the run with an answer.
-/

namespace StagedParser

namespace Code

/-- What a local holds. -/
inductive Datum where
  | value (held : Value)
  | position (held : Position)
  | record (held : MatchRecord)

/-- Whether a datum counts as true in a condition. -/
def Datum.isTruthy : Datum → Bool
  | .value held => held.isTruthy
  | .position _ | .record _ => true

/-- The locals and what they hold, the latest assignment first. -/
abbrev Locals := List (Name × Datum)

namespace Locals

/-- What a local holds; nothing before it is declared. -/
def get? (locals : Locals) (name : Name) : Option Datum :=
  List.lookup name locals

def set (locals : Locals) (name : Name) (datum : Datum) : Locals :=
  (name, datum) :: locals

def declare (locals : Locals) (names : List Name) : Locals :=
  names.foldl (fun locals name => locals.set name (.value .absent)) locals

end Locals

/-- What follows a statement. -/
inductive Flow where
  | next
  | leave (label : Name)
  | answer (datum : Datum)

variable {H : Host} {σ : Type}

/-- Code that is not well formed gets stuck. -/
def stuck {α : Type} : Parsing σ α :=
  Parsing.ofResult (.error .stuck)

def Atom.eval (table : List (Constant H)) (locals : Locals) : Atom → Parsing σ Datum
  | .name held =>
    match locals.get? held with
    | some datum => pure datum
    | none => stuck
  | .text value => pure (.value (.text value))
  | .number value => pure (.value (.number value))
  | .count value => pure (.value (.number (Number.ofNat value)))
  | .flag value => pure (.value (.flag value))
  | .null => pure (.value .null)
  | .absent => pure (.value .absent)
  | .slot index =>
    match table[index]? with
    | some (.plain constant) => pure (.value constant.value)
    | _ => stuck
  | .cursor => stuck
  | .position => do return .position (← Parsing.position)
  | .valueOf record =>
    match locals.get? record with
    | some (.record held) => do return .value (← Parsing.ofResult held.read).value
    | _ => stuck

def Atom.evalValue (table : List (Constant H)) (locals : Locals) (atom : Atom)
    : Parsing σ Value := do
  match ← atom.eval table locals with
  | .value held => pure held
  | _ => stuck

def Atom.evalPosition (table : List (Constant H)) (locals : Locals) (atom : Atom)
    : Parsing σ Position := do
  match ← atom.eval table locals with
  | .position held => pure held
  | _ => stuck

/-- The text that was taken, or null. -/
def taken : Option Text → Datum
  | some text => .value (.text text)
  | none => .value .null

def Method.call (table : List (Constant H)) : Method → List Atom → Parsing σ Datum
  | .takeText, [.text text, .flag ignoreCase] => do
    return taken (← Parsing.takeText text ignoreCase)
  | .takeWhile, [.slot index, .count min, .count max] =>
    match table[index]? with
    | some (.conversion (.given test)) => do
      return taken (← Parsing.takeWhile (H.accepts test) min max)
    | _ => stuck
  | _, _ => stuck

/-- Evaluates an expression. A parser that is called may set the record that a local holds. -/
def Expr.eval (hook : Hook σ) (table : List (Constant H)) (locals : Locals)
    : Expr → Parsing σ (Datum × Locals)
  | .atom value => do return (← value.eval table locals, locals)
  | .newRecord slot =>
    match table[slot]? with
    | some .recordMaker => pure (.record none, locals)
    | _ => stuck
  | .parse slot record =>
    match table[slot]?, locals.get? record with
    | some (.foreign entry parser), some (.record held) => do
      let (matched, after) ← Parsing.onRecord held ((H.conduct parser entry).run hook)
      return (.value (.flag matched), locals.set record (.record after))
    | _, _ => stuck
  | .onCursor method arguments => do return (← method.call table arguments, locals)
  | .call slot argument =>
    match table[slot]? with
    | some (.conversion function) => do
      let value ← argument.evalValue table locals
      return (.value (← Parsing.ofResult (function.apply value)), locals)
    | _ => stuck
  | .notNull value => do
    match ← value.eval table locals with
    | .value .null => return (.value (.flag false), locals)
    | _ => return (.value (.flag true), locals)

mutual

def Stmt.run (hook : Hook σ) (table : List (Constant H)) (locals : Locals)
    : Stmt → Parsing σ (Flow × Locals)
  | .declare names => pure (.next, locals.declare names)
  | .define name value => do return (.next, locals.set name (← value.eval table locals))
  | .assign target value => do
    let (datum, locals) ← value.eval hook table locals
    return (.next, locals.set target datum)
  | .enter slot =>
    match table[slot]? with
    | some (.parser entry) | some (.foreign entry _) => do
      Parsing.enter hook entry
      return (.next, locals)
    | _ => stuck
  | .moveTo target => do
    Parsing.move (.moveTo (← target.evalPosition table locals))
    return (.next, locals)
  | .block label body => do
    let (flow, locals) ← runAll hook table locals body
    match flow with
    | .leave target => return (if target = label then .next else flow, locals)
    | _ => return (flow, locals)
  | .leave label => pure (.leave label, locals)
  | .branch condition yes no =>
    match locals.get? condition with
    | some datum =>
      if datum.isTruthy then runAll hook table locals yes else runAll hook table locals no
    | none => stuck
  | .report start stop value => do
    let start ← start.evalPosition table locals
    let stop ← stop.evalPosition table locals
    let value ← value.evalValue table locals
    Parsing.write (some ⟨start, stop, value⟩)
    return (.next, locals)
  | .answer value => do return (.answer (← value.eval table locals), locals)
  | .garbled _ => stuck

/-- Runs statements one after another, until one does not let the next one follow. -/
def runAll (hook : Hook σ) (table : List (Constant H)) (locals : Locals)
    : List Stmt → Parsing σ (Flow × Locals)
  | [] => pure (.next, locals)
  | first :: rest => do
    let (flow, locals) ← first.run hook table locals
    match flow with
    | .next => runAll hook table locals rest
    | _ => return (flow, locals)

end

/-- The answer that a run of code ends with; code that ends without one answers with nothing. -/
def answer (hook : Hook σ) (table : List (Constant H)) (code : List Stmt) : Parsing σ Datum := do
  let (flow, _) ← runAll hook table [] code
  match flow with
  | .answer datum => return datum
  | _ => return .value .absent

end Code

end StagedParser
