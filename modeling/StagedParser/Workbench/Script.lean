import StagedParser.Code.Layout
import StagedParser.Grammar.Emit

/-!
Scripts of work at a workbench: requests for names, constants and pieces of code, in any order.
-/

namespace StagedParser

open Code

namespace Workbench

variable {H : Host}

/-- An operand of a step: one that is already there, a number to be written, or a constant that
needs a slot. -/
inductive Operand (H : Host) where
  | atom (value : Atom)
  | number (value : Number)
  | constant (value : Constant H)

/-- A step of working at a workbench. -/
inductive Step (H : Host) where
  | declare (base : Text)
  /-- Takes steps inside a new scope of names. -/
  | scope (steps : List (Step H))
  | operand (value : Operand H)
  | onCursor (method : Text) (arguments : List (Operand H))
  | moveTo (target : Operand H)
  | enter (grammar : Grammar H)
  | assign (target : Text) (value : Operand H)
  | declareAll (names : List Text)
  | splice (grammar : Grammar H)
  | convert (value : Operand H) (function : Constant H)
  /-- Asks whether a constant is the identity, which conversions leave out. -/
  | isIdentity (function : Constant H)
  /-- Asks for the names of the parameters of generated code. -/
  | parameters
  /-- Asks for the constants bound so far. -/
  | constants
  /-- Asks for the number of constants bound so far. -/
  | count

/-- What a step gives. -/
inductive Reply (H : Host) where
  | name (value : Name)
  | expr (value : Expr)
  | stmt (value : Stmt)
  | stmts (values : List Stmt)
  | flag (value : Bool)
  | parameters (context result constants : Text)
  | constants (values : List (Constant H))
  | count (value : Nat)
  | replies (values : List (Except Fault (Reply H)))

/-- The fault of writing a negative number as an operand, which has no sign. -/
def negativeNumber : Fault :=
  .failure (Text.ofString
    "Negative numbers should be created in combination with createPrefixUnaryExpression")

/-- The operand itself, with a slot for a constant. -/
def Operand.resolve : Operand H → Emit H Atom
  | .atom value => return value
  | .number value => if value < 0 then throw negativeNumber else return .number value
  | .constant value => do return .slot (← Emit.constant value)

/-- The operands themselves, in order. -/
def resolveAll : List (Operand H) → Emit H (List Atom)
  | [] => return []
  | first :: rest => do return (← first.resolve) :: (← resolveAll rest)

/-- The call of a constant, or the operand itself if the constant is the identity. -/
def convertBy (value : Atom) : Constant H → Emit H Expr
  | .conversion conversion => Emit.convert value conversion
  | function => do return .call (← Emit.constant function) value

mutual

/-- Takes a step. -/
def Step.run : Step H → Emit H (Reply H)
  | .declare base => do return .name (← Emit.declare base)
  | .scope steps => do return .replies (← Emit.inScope (runSteps steps))
  | .operand value => do return .expr (.atom (← value.resolve))
  | .onCursor method arguments => do
    return .expr (.onCursor (.other method) (← resolveAll arguments))
  | .moveTo target => do return .stmt (.moveTo (← target.resolve))
  | .enter grammar => do return .stmt (← Emit.enter grammar)
  | .assign target value => do
    return .stmt (.assign ⟨.verbatim, target⟩ (.atom (← value.resolve)))
  | .declareAll names => return .stmt (.declare (names.map (⟨.verbatim, ·⟩)))
  | .splice grammar => do return .stmts (← Emit.inScope grammar.emit).spliced
  | .convert value function => do
    let value ← value.resolve
    return .expr (← convertBy value function)
  | .isIdentity function => return .flag (function.same (.conversion .identity))
  | .parameters => return .parameters contextName resultName constantsName
  | .constants => do return .constants (← get).constants
  | .count => do return .count (← get).constants.length

/-- Takes steps one after another. A fault is a step's answer and stops nothing. -/
def runSteps : List (Step H) → Emit H (List (Except Fault (Reply H)))
  | [] => return []
  | step :: rest => do
    let reply ← Emit.attempt step.run
    return reply :: (← runSteps rest)

end

/-- Compiles a grammar `times` times at one bench, each time in a scope of its own or, if `bare`,
outside of all scopes. -/
def fragments (grammar : Grammar H) (bare : Bool) : Nat → Emit H (List (Except Fault Fragment))
  | 0 => return []
  | times + 1 => do
    let fragment ← Emit.attempt (if bare then grammar.emit else Emit.inScope grammar.emit)
    return fragment :: (← fragments grammar bare times)

end Workbench

end StagedParser
