import StagedParser.Name

/-!
Scripts of requests to a supply of names. A script inside a scope may be abandoned, which closes its
scope all the same.
-/

namespace StagedParser

namespace Name

/-- A step of working with a supply of names. -/
inductive Step where
  | request (base : Text)
  | verbatim (text : Text)
  | inScope
  | depth
  | scopeNames
  /-- Takes steps inside a new scope. -/
  | scope (steps : List Step)
  /-- Abandons the script at hand. -/
  | abandon

inductive Reply where
  | name (value : Name)
  | flag (value : Bool)
  | count (value : Nat)
  | names (values : List Name)
  | replies (values : List Reply)
  | fault (value : Fault)

/-- The fault of an abandoned script. -/
def abandonment : Fault :=
  .failure (Text.ofString "inner")

mutual

/-- Takes a step. A fault is the step's answer; only abandoning stops the script at hand. -/
def Step.run (supply : Supply) : Step → Except Fault Reply × Supply
  | .request base =>
    match supply.request base with
    | .ok (name, after) => (.ok (.name name), after)
    | .error fault => (.ok (.fault fault), supply)
  | .verbatim text => (.ok (.name ⟨.verbatim, text⟩), supply)
  | .inScope => (.ok (.flag (!supply.scopes.isEmpty)), supply)
  | .depth => (.ok (.count supply.depth), supply)
  | .scopeNames => (.ok (.names supply.scopeNames), supply)
  | .scope steps =>
    let (replies, after) := runSteps supply.openScope steps
    let closed := after.returnTo supply
    match replies with
    | .ok replies => (.ok (.replies replies), closed)
    | .error fault => (.ok (.fault fault), closed)
  | .abandon => (.error abandonment, supply)

/-- Takes steps one after another, until one abandons the script. -/
def runSteps (supply : Supply) : List Step → Except Fault (List Reply) × Supply
  | [] => (.ok [], supply)
  | step :: rest =>
    match step.run supply with
    | (.error fault, after) => (.error fault, after)
    | (.ok reply, after) =>
      let (replies, last) := runSteps after rest
      (replies.map (reply :: ·), last)

end

end Name

end StagedParser
