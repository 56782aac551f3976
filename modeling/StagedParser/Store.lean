import StagedParser.Program
import StagedParser.Scanner

/-!
The store that parses share: scanners, records, the locals of running code, what entry hooks write
down, and the parsers themselves. All of it is referred to by addresses, and whoever holds an address
can read and change what is there; nothing is ever given back.
-/

namespace StagedParser

/-- A place in one of the regions of a store. -/
abbrev Address := Nat

/-- What a parser does and which other parsers it refers to. -/
inductive Parser.Body (H : Host) where
  | literal (text : Text) (ignoreCase : Bool)
  | pattern (test : H.Test) (min max : Nat)
  | map (source : Address) (transform : Conversion H)
  | oneOf (alternatives : List Address)
  | either (left right : Address) (ofLeft ofRight : Conversion H)
  /-- Hands over to its source. -/
  | relay (source : Address)
  /-- Runs the program that was generated for the parser with the given name. -/
  | generated (name : Text) (program : Except Fault (Program H))
  | foreign (parser : H.Foreign)
  /-- Never matches. -/
  | never

/-- A parser in the store. -/
structure Parser (H : Host) where
  entry : Entry
  body : Parser.Body H

namespace Store

/-- What a local of running code holds. A record is held by its address. -/
inductive Datum where
  | value (held : Value)
  | position (held : Position)
  | record (address : Address)

/-- Whether a datum counts as true in a condition. -/
def Datum.isTruthy : Datum → Bool
  | .value held => held.isTruthy
  | .position _ | .record _ => true

def Datum.typeName : Datum → Text
  | .value held => held.typeName
  | .position _ | .record _ => Text.ofString "object"

/-- The locals of one call of generated code and what they hold, the latest assignment first. -/
abbrev Frame := List (Name × Datum)

/-- What was observed of a parse: how it ended, what it left of scanner and record, and which parsers
were announced. -/
structure Observation where
  verdict : Except Fault Bool
  scanner : Scanner
  record : MatchRecord
  entered : List Entry

/-- What an entry hook wrote down: the parsers that were announced, and what it observed of parses that
it ran itself. -/
structure Journal where
  entered : List Entry := []
  inner : List Observation := []

end Store

structure Store (H : Host) where
  parsers : List (Parser H) := []
  scanners : List Scanner := []
  records : List MatchRecord := []
  frames : List Store.Frame := []
  journals : List Store.Journal := []

namespace Store

variable {H : Host} {α : Type}

/-- Work on a store. A fault keeps what was done before it. -/
abbrev Work (H : Host) (α : Type) := EStateM Fault (Store H) α

/-- Work that cannot go on. -/
def stuck : Work H α :=
  throw .stuck

/-- A result that is already there. -/
def give : Except Fault α → Work H α
  | .ok value => pure value
  | .error fault => throw fault

/-- Works and returns a fault instead of stopping with it. -/
def attempt (work : Work H α) : Work H (Except Fault α) := fun store =>
  match work store with
  | .ok value after => .ok (.ok value) after
  | .error fault after => .ok (.error fault) after

-----------------------------------------------------------------------------------------
-- Regions
-----------------------------------------------------------------------------------------

/-- A region of the store, with cells of one kind. -/
structure Region (H : Host) (α : Type) where
  cells : Store H → List α
  withCells : Store H → List α → Store H

namespace Region

/-- What a cell holds. -/
def read (region : Region H α) (address : Address) : Work H α := fun store =>
  match (region.cells store)[address]? with
  | some cell => .ok cell store
  | none => .error .stuck store

/-- Changes what a cell holds. -/
def write (region : Region H α) (address : Address) (cell : α) : Work H Unit := fun store =>
  .ok () (region.withCells store ((region.cells store).set address cell))

/-- Adds a new cell and returns its address. -/
def add (region : Region H α) (cell : α) : Work H Address := fun store =>
  .ok (region.cells store).length (region.withCells store (region.cells store ++ [cell]))

end Region

def parserRegion : Region H (Parser H) :=
  ⟨Store.parsers, fun store parsers => { store with parsers }⟩

def scannerRegion : Region H Scanner :=
  ⟨Store.scanners, fun store scanners => { store with scanners }⟩

def recordRegion : Region H MatchRecord :=
  ⟨Store.records, fun store records => { store with records }⟩

def frameRegion : Region H Frame :=
  ⟨Store.frames, fun store frames => { store with frames }⟩

def journalRegion : Region H Journal :=
  ⟨Store.journals, fun store journals => { store with journals }⟩

-----------------------------------------------------------------------------------------
-- Contexts
-----------------------------------------------------------------------------------------

/-- Uses a scanner and puts it back as it is then, also after a fault. -/
def use (scanner : Address) (action : Scanner → Except Fault α × Scanner) : Work H α := do
  let (result, after) := action (← scannerRegion.read scanner)
  scannerRegion.write scanner after
  give result

/-- The context of a parse: its scanner, and what is done when a parser is announced. -/
structure Context (H : Host) where
  scanner : Address
  watch : Entry → Work H Unit

namespace Context

def cursor (context : Context H) : Work H Cursor := do
  return (← scannerRegion.read context.scanner).cursor

def position (context : Context H) : Work H Position := do
  return (← scannerRegion.read context.scanner).position

def move (context : Context H) (step : Move) : Work H Unit :=
  use context.scanner (·.apply step)

def takeText (context : Context H) (text : Text) (ignoreCase : Bool) : Work H (Option Text) :=
  use context.scanner fun scanner =>
    let (taken, after) := scanner.takeText text ignoreCase
    (.ok taken, after)

/-- Takes a run of units that pass a test. -/
def takeWhile (context : Context H) (test : CodeUnit → Except Fault Bool) (min max : Int)
    : Work H (Option Text) :=
  use context.scanner (·.takeWhile test min max)

end Context

end Store

open Store

variable {H : Host}

/-- Lets a parser from outside act in a context, on the record with the given address. -/
def Conduct.runOn (context : Context H) (record : Address) : Conduct → Work H Bool
  | .finish matched => pure matched
  | .raise fault => throw fault
  | .observe next => do
    let cursor ← context.cursor
    let held ← recordRegion.read record
    (next cursor held).runOn context record
  | .move step next => do
    context.move step
    next.runOn context record
  | .write held next => do
    recordRegion.write record held
    next.runOn context record
  | .enter entry next => do
    match ← attempt (context.watch entry) with
    | .ok () => (next none).runOn context record
    | .error fault => (next (some fault)).runOn context record

end StagedParser
