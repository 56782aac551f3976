import StagedParser.Store.Parse

/-!
Observing a parse: how it ends, what it leaves of scanner and record, and which parsers it announces.
A probe interferes at one of the announcements: it fails, moves the scanner, or runs the same parser
elsewhere, while the parse that it interferes with waits.
-/

namespace StagedParser

/-- What a probe does. -/
inductive Probe.Act where
  | fail
  | advance (count : Number)
  | reparse (buffer : Buffer)

/-- A probe acts at the announcement with the given number, counted from zero; there may be no such
announcement. -/
structure Probe where
  number : Number
  act : Probe.Act

namespace Store

variable {H : Host}

/-- Writes an announcement into a journal and returns its number. -/
def note (journal : Address) (entry : Entry) : Work H Nat := do
  let held ← journalRegion.read journal
  journalRegion.write journal { held with entered := held.entered ++ [entry] }
  return held.entered.length

/-- Writes an observation into a journal. -/
def noteInner (journal : Address) (seen : Observation) : Work H Unit := do
  let held ← journalRegion.read journal
  journalRegion.write journal { held with inner := held.inner ++ [seen] }

/-- What is observed of a parse that has ended with a verdict, and the observations in its journal. -/
def observed (scanner record journal : Address) (verdict : Except Fault Bool)
    : Work H (Observation × List Observation) := do
  let written ← journalRegion.read journal
  let seen : Observation :=
    { verdict
      scanner := ← scannerRegion.read scanner
      record := ← recordRegion.read record
      entered := written.entered }
  return (seen, written.inner)

/-- Parses a buffer after advancing by `count` units, with a scanner, a record and a journal that are
new. `watch` is what is done at each announcement, given the scanner and the journal. -/
def observe (watch : (scanner journal : Address) → Entry → Work H Unit) (parser : Address)
    (buffer : Buffer) (count : Number) : Work H (Observation × List Observation) := do
  let scanner ← scannerRegion.add ((Scanner.start buffer).advance count)
  let record ← recordRegion.add none
  let journal ← journalRegion.add {}
  let verdict ← attempt (parse ⟨scanner, watch scanner journal⟩ parser record)
  observed scanner record journal verdict

/-- Writes announcements down and does nothing else. -/
def recording (_ journal : Address) (entry : Entry) : Work H Unit := do
  let _ ← note journal entry

end Store

namespace Probe

open Store

variable {H : Host}

def Act.perform (parser scanner journal : Address) : Act → Work H Unit
  | .fail => throw (.failure (Text.ofString "hook failed"))
  | .advance count => use scanner (·.apply (.advance count))
  | .reparse buffer => do
    let (seen, _) ← Store.observe recording parser buffer 0
    noteInner journal seen

/-- Writes announcements down and lets a probe act at its own. -/
def probing (probe : Option Probe) (parser scanner journal : Address) (entry : Entry)
    : Work H Unit := do
  let number ← note journal entry
  match probe with
  | some probe =>
    if probe.number = Number.ofNat number then
      probe.act.perform parser scanner journal
  | none => return ()

/-- Parses a buffer with the parser at an address, after advancing by `count` units, with a probe;
returns what was observed, and the observations of the parses run inside. -/
def observe (probe : Option Probe) (parser : Address) (buffer : Buffer) (count : Number)
    : Work H (Observation × List Observation) :=
  Store.observe (probing probe parser) parser buffer count

end Probe

/-- What is observed of parsing a buffer with a grammar that has a store to itself. -/
def Grammar.observe {H : Host} (grammar : Grammar H) (buffer : Buffer) (count : Number)
    (probe : Option Probe) : Except Fault (Store.Observation × List Store.Observation) :=
  let work : Store.Work H _ := do
    Probe.observe probe (← Store.place grammar) buffer count
  match work {} with
  | .ok observed _ => .ok observed
  | .error fault _ => .error fault

end StagedParser
