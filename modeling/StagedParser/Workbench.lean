import StagedParser.Code
import StagedParser.Grammar

/-!
The workbench where code is generated: it hands out names and binds constants to slots. A constant
keeps its slot for good, and constants that are the same share one.
-/

namespace StagedParser

open Code

/-- The state of one generation of code: names given out, constants bound so far, by slot, and an
index by which the slot of a constant is found again. Table and index are in step. -/
structure Workbench (H : Host) where
  supply : Name.Supply := {}
  constants : List (Constant H) := []
  index : List (Constant H × Nat) := []
  inStep : index = constants.zipIdx := by rfl

namespace Workbench

variable {H : Host}

/-- The slot under which the index has a constant. -/
def slot? (bench : Workbench H) (constant : Constant H) : Option Nat :=
  (bench.index.find? (·.1.same constant)).map (·.2)

/-- Fills the next slot with a constant and enters it into the index. -/
def fill (bench : Workbench H) (constant : Constant H) : Workbench H where
  supply := bench.supply
  constants := bench.constants ++ [constant]
  index := bench.index ++ [(constant, bench.constants.length)]
  inStep := by rw [bench.inStep, List.zipIdx_append]; simp

@[simp] theorem fill_constants (bench : Workbench H) (constant : Constant H)
    : (bench.fill constant).constants = bench.constants ++ [constant] :=
  rfl

@[simp] theorem fill_supply (bench : Workbench H) (constant : Constant H)
    : (bench.fill constant).supply = bench.supply :=
  rfl

/-- What is found by searching a numbered list is the first element that passes. -/
theorem map_find?_zipIdx (held : Constant H → Bool) (constants : List (Constant H)) (first : Nat)
    : ((constants.zipIdx first).find? (held ·.1)).map (·.2)
      = (constants.findIdx? held).map (first + ·) := by
  induction constants generalizing first with
  | nil => rfl
  | cons constant rest further =>
      rw [List.zipIdx_cons, List.find?_cons, List.findIdx?_cons]
      cases held constant with
      | true => rfl
      | false =>
          change Option.map (·.2) ((rest.zipIdx (first + 1)).find? (held ·.1)) = _
          rw [further]
          cases rest.findIdx? held with
          | none => rfl
          | some slot => simp [Nat.add_assoc, Nat.add_comm 1]

/-- The index gives the slot where the table has the constant, since the two are in step. -/
theorem slot?_eq (bench : Workbench H) (constant : Constant H)
    : bench.slot? constant = bench.constants.findIdx? (·.same constant) := by
  rw [slot?, bench.inStep, map_find?_zipIdx (·.same constant)]
  simp

end Workbench

/-- A step of generating code. A fault keeps what was given out and bound before it. -/
abbrev Emit (H : Host) (α : Type) := EStateM Fault (Workbench H) α

namespace Emit

variable {H : Host} {α : Type}

/-- A local of the piece of code at hand. -/
def declare (base : Text) : Emit H Name := fun bench =>
  match bench.supply.request base with
  | .ok (name, supply) => .ok name { bench with supply }
  | .error fault => .error fault bench

/-- The slot of a constant; one that is new gets the next slot. -/
def constant (constant : Constant H) : Emit H Nat := fun bench =>
  match bench.slot? constant with
  | some slot => .ok slot bench
  | none => .ok bench.constants.length (bench.fill constant)

/-- Works inside a new scope of names and then returns to the present one, also after a fault. -/
def inScope (work : Emit H α) : Emit H α := fun bench =>
  match work { bench with supply := bench.supply.openScope } with
  | .ok value after => .ok value { after with supply := after.supply.returnTo bench.supply }
  | .error fault after => .error fault { after with supply := after.supply.returnTo bench.supply }

/-- Works and returns a fault instead of stopping with it. -/
def attempt (work : Emit H α) : Emit H (Except Fault α) := fun bench =>
  match work bench with
  | .ok value after => .ok (.ok value) after
  | .error fault after => .ok (.error fault) after

/-- The announcement of a parser. -/
def enter (grammar : Grammar H) : Emit H Stmt := do
  return .enter (← constant (.ofGrammar grammar))

/-- The conversion of an operand; converting by the identity leaves the operand itself. -/
def convert (value : Atom) : Conversion H → Emit H Expr
  | .identity => return .atom value
  | conversion => do return .call (← constant (.conversion conversion)) value

end Emit

end StagedParser
