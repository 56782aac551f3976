import StagedParser.Forge
import StagedParser.Store.Parse

/-!
Sessions: parses over any number of contexts and records, with parsers shared between them. All of
them work on one store. Contexts may share a scanner; records, marks and named parsers belong to the
session.
-/

namespace StagedParser

variable {H : Host}

/-- What a context reads: a buffer of its own, or the buffer of an earlier context through one
scanner. -/
inductive Session.Source where
  | buffer (value : Buffer)
  | shares (context : Nat)

/-- The state of a session: where parsers are built, the store, and the addresses there of the named
parsers, of the scanner of each context, and of each record. -/
structure Session (H : Host) where
  forge : Forge H
  store : Store H := {}
  parsers : List (Text × Address) := []
  contexts : List Address := []
  records : List Address := []
  marks : List Position := []

namespace Session

/-- Adds a context. Only a context that is there can share its scanner. -/
def addContext (session : Session H) : Source → Session H
  | .buffer value =>
    { session with
      store :=
        { session.store with scanners := session.store.scanners ++ [.start value] }
      contexts := session.contexts ++ [session.store.scanners.length] }
  | .shares context =>
    match session.contexts[context]? with
    | some scanner => { session with contexts := session.contexts ++ [scanner] }
    | none => session

def addRecord (session : Session H) : Session H :=
  { session with
    store := { session.store with records := session.store.records ++ [none] }
    records := session.records ++ [session.store.records.length] }

/-- Puts a grammar into the session's store under a name. -/
def addParser (session : Session H) (name : Text) (grammar : Grammar H) : Session H :=
  match Store.place grammar session.store with
  | .ok address store => { session with store, parsers := (name, address) :: session.parsers }
  | .error _ store => { session with store }

/-- The session at a forge, with the grammars that were built there, the given sources for contexts,
and as many records as given. -/
def start (forge : Forge H) (sources : List Source) (records : Nat) : Session H :=
  let empty := sources.foldl addContext (Nat.repeat addRecord records { forge })
  forge.named.foldr (fun (name, grammar) session => session.addParser name grammar) empty

/-- A step of a session. -/
inductive Step where
  | parse (parser : Text) (context record : Nat)
  | advance (context : Nat) (count : Number)
  | mark (context : Nat)
  | restore (context number : Nat)
  | read (record : Nat)
  | resetRecord (record : Nat)
  /-- Stages the parser `name` and puts the result under a new name. -/
  | stage (newName name : Text)
  | set (values : Fields)
  | resetSettings

inductive Reply where
  | parsed (verdict : Except Fault Bool) (scanner : Scanner) (record : MatchRecord)
  | scanner (value : Scanner)
  | position (value : Position)
  | restored (fault : Option Fault) (scanner : Scanner)
  | read (value : Match)
  | flag (value : Bool)
  | staged (name : Text) (hasCode : Bool)
  | options (value : Settings.CodeOptions)
  | fault (value : Fault)

/-- The address of a context's scanner, and the scanner. -/
def scanner? (session : Session H) (context : Nat) : Option (Address × Scanner) := do
  let address ← session.contexts[context]?
  return (address, ← session.store.scanners[address]?)

/-- The address of a record of the session, and the record. -/
def record? (session : Session H) (record : Nat) : Option (Address × MatchRecord) := do
  let address ← session.records[record]?
  return (address, ← session.store.records[address]?)

def setScanner (session : Session H) (address : Address) (scanner : Scanner) : Session H :=
  { session with
    store := { session.store with scanners := session.store.scanners.set address scanner } }

def setRecord (session : Session H) (address : Address) (held : MatchRecord) : Session H :=
  { session with
    store := { session.store with records := session.store.records.set address held } }

/-- Does work on the session's store. -/
def atStore (session : Session H) (work : Store.Work H Reply) : Reply × Session H :=
  match work session.store with
  | .ok reply store => (reply, { session with store })
  | .error fault store => (.fault fault, { session with store })

/-- Does work at the session's forge. -/
def atForge (session : Session H) (work : Forge.Work H Reply) : Reply × Session H :=
  match work session.forge with
  | .ok reply forge => (reply, { session with forge })
  | .error fault forge => (.fault fault, { session with forge })

/-- Parses with the parser at an address in a context that watches nothing, and tells how that ended
and what it left of scanner and record. -/
def parseAt (parser scanner record : Address) : Store.Work H Reply := do
  let verdict ← Store.attempt (Store.parse ⟨scanner, fun _ => return ()⟩ parser record)
  return .parsed verdict (← Store.scannerRegion.read scanner) (← Store.recordRegion.read record)

/-- Parses with a named parser in a context, on a record of the session. -/
def parse (session : Session H) (parser : Text) (context record : Nat) : Reply × Session H :=
  match session.parsers.lookup parser, session.contexts[context]?, session.records[record]? with
  | some parser, some scanner, some record => session.atStore (parseAt parser scanner record)
  | _, _, _ => (.fault .stuck, session)

/-- Stages the grammar that was built under a name and puts the result under a new one. -/
def stageNamed (newName name : Text) : Forge.Work H (Grammar H) := do
  let staged ← Forge.stage (← Forge.find name)
  Forge.put newName staged
  return staged

/-- Stages a named parser and puts the result into the store under a new name. -/
def stage (session : Session H) (newName name : Text) : Reply × Session H :=
  match stageNamed newName name session.forge with
  | .ok staged forge =>
    (.staged staged.name staged.codeText?.isSome,
      addParser { session with forge } newName staged)
  | .error fault forge => (.fault fault, { session with forge })

def Step.run (session : Session H) : Step → Reply × Session H
  | .parse parser context record => session.parse parser context record
  | .advance context count =>
    match session.scanner? context with
    | some (address, scanner) =>
      let moved := scanner.advance count
      (.scanner moved, session.setScanner address moved)
    | none => (.fault .stuck, session)
  | .mark context =>
    match session.scanner? context with
    | some (_, scanner) =>
      (.position scanner.position, { session with marks := session.marks ++ [scanner.position] })
    | none => (.fault .stuck, session)
  | .restore context number =>
    match session.scanner? context, session.marks[number]? with
    | some (address, scanner), some position =>
      match scanner.moveTo position with
      | (.ok _, moved) => (.restored none moved, session.setScanner address moved)
      | (.error fault, still) => (.restored (some fault) still, session)
    | _, _ => (.fault .stuck, session)
  | .read record =>
    match session.record? record with
    | some (_, held) =>
      match held.read with
      | .ok found => (.read found, session)
      | .error fault => (.fault fault, session)
    | none => (.fault .stuck, session)
  | .resetRecord record =>
    match session.records[record]? with
    | some address => (.flag false, session.setRecord address none)
    | none => (.fault .stuck, session)
  | .stage newName name => session.stage newName name
  | .set values =>
    session.atForge do
      Forge.access (Settings.set values)
      return .options (← Forge.access Settings.codeOptions)
  | .resetSettings =>
    session.atForge do
      Forge.access Settings.reset
      return .options (← Forge.access Settings.codeOptions)

def runSteps (session : Session H) : List Step → List Reply
  | [] => []
  | step :: rest =>
    let (reply, after) := step.run session
    reply :: runSteps after rest

end Session

end StagedParser
