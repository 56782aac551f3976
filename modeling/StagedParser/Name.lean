import StagedParser.Fault
import StagedParser.Text.Quoted

/-!
Names for generated code. Each piece of code takes its names inside a scope of its own, so a name
is a base together with the scope it was requested in; outside of all scopes every request gives a
new name.
-/

namespace StagedParser

/-- What keeps names with the same base apart. -/
inductive Name.Mark where
  /-- A name kept as it is. -/
  | verbatim
  /-- A name requested in the scope with this number. -/
  | inScope (scope : Nat)
  /-- A name requested outside of all scopes, by the number of such requests before it. -/
  | loose (index : Nat)
deriving DecidableEq, Repr

structure Name where
  mark : Name.Mark
  base : Text
deriving DecidableEq, Repr

def Name.text (name : Name) : Text :=
  match name.mark with
  | .verbatim => name.base
  | .inScope scope => name.base ++ Text.ofString "_" ++ Text.ofNat scope
  | .loose index => name.base ++ Text.ofString "_g" ++ Text.ofNat index

namespace Name

/-- Units that may start an identifier: ASCII letters, the underscore and the dollar sign. -/
def isStartUnit (unit : CodeUnit) : Bool :=
  Text.isLowerUnit unit || Text.isUpperUnit unit || unit == 95 || unit == 36

/-- Units that may follow in an identifier: those that may start one, and digits. -/
def isPartUnit (unit : CodeUnit) : Bool :=
  isStartUnit unit || Text.isDigitUnit unit

def isIdentifier : Text → Bool
  | [] => false
  | first :: rest => isStartUnit first && rest.all isPartUnit

/-- A scope: its number and the bases requested in it so far, in order. -/
structure Scope where
  id : Nat
  bases : List Text
deriving DecidableEq, Repr

/-- A supply of names: how many scopes were opened, how many names were given out outside of all
scopes, and the scopes now open, the innermost first. -/
structure Supply where
  scopeCount : Nat := 0
  looseCount : Nat := 0
  scopes : List Scope := []
deriving DecidableEq, Repr

namespace Supply

/-- Requests a name. The same base in the same scope gives the same name. -/
def request (supply : Supply) (base : Text) : Except Fault (Name × Supply) :=
  if isIdentifier base then
    match supply.scopes with
    | [] =>
      .ok (⟨.loose supply.looseCount, base⟩, { supply with looseCount := supply.looseCount + 1 })
    | scope :: outer =>
      let bases := if base ∈ scope.bases then scope.bases else scope.bases ++ [base]
      .ok (⟨.inScope scope.id, base⟩, { supply with scopes := { scope with bases } :: outer })
  else
    .error (.badName base.json)

/-- Opens a new scope inside the present one. -/
def openScope (supply : Supply) : Supply :=
  { supply with
    scopeCount := supply.scopeCount + 1
    scopes := ⟨supply.scopeCount, []⟩ :: supply.scopes }

/-- Returns to the scopes that were open in an earlier state of the supply. -/
def returnTo (supply earlier : Supply) : Supply :=
  { supply with scopes := earlier.scopes }

def depth (supply : Supply) : Nat :=
  supply.scopes.length

/-- The names of the innermost open scope, in the order of their first requests. -/
def scopeNames (supply : Supply) : List Name :=
  match supply.scopes with
  | [] => []
  | scope :: _ => scope.bases.map (⟨.inScope scope.id, ·⟩)

end Supply

end Name

end StagedParser
