import StagedParser.Staging

/-!
The forge where grammars are built and kept under names. It gives out identities, so that no two
parsers built at one forge share one.
-/

namespace StagedParser

variable {H : Host} {α : Type}

/-- A place where grammars are built: the desk, the next identity, and the grammars built under
names, the latest first. -/
structure Forge (H : Host) where
  desk : Desk := {}
  nextId : Nat := 1
  named : List (Text × Grammar H) := []

namespace Forge

abbrev Work (H : Host) (α : Type) := EStateM Fault (Forge H) α

def fresh : Work H Nat := fun forge =>
  .ok forge.nextId { forge with nextId := forge.nextId + 1 }

/-- Work at the forge's desk. -/
def atDesk (work : Desk.Work α) : Work H α := fun forge =>
  match work forge.desk with
  | .ok value desk => .ok value { forge with desk }
  | .error fault desk => .error fault { forge with desk }

/-- An access to the settings of the forge's desk. -/
def access (work : Settings.Access α) : Work H α :=
  atDesk (Desk.access work)

/-- A result that is already there. -/
def give : Except Fault α → Work H α
  | .ok value => pure value
  | .error fault => throw fault

def find (name : Text) : Work H (Grammar H) := do
  match (← get).named.lookup name with
  | some grammar => return grammar
  | none => throw .stuck

def put (name : Text) (grammar : Grammar H) : Work H Unit :=
  modify fun forge => { forge with named := (name, grammar) :: forge.named }

def stage (grammar : Grammar H) : Work H (Grammar H) := do
  let id ← fresh
  atDesk (grammar.stage id)

end Forge

end StagedParser
