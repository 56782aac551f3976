import StagedParser.Match

/-!
Parsing: what parsers do. It goes on in a scene, that is, on the cursor, on the record at hand and
with the notes of the entry hook, and either returns or stops with a fault; a fault keeps what was
done to the scene.
-/

namespace StagedParser

/-- A parser as it is announced to the entry hook: its identity and its name. -/
structure Entry where
  id : Nat
  name : Text
deriving DecidableEq, Repr

/-- A movement of a cursor by its own operations. -/
inductive Move where
  | advance (count : Number)
  | moveTo (position : Position)
deriving DecidableEq, Repr

def Cursor.apply (c : Cursor) : Move → Except Fault Cursor
  | .advance count => .ok (c.advance count)
  | .moveTo position => c.moveTo position

/-- What an entry hook does when a parser is announced: it takes notes, moves the cursor, and then
may raise a fault. -/
structure Reaction (σ : Type) where
  notes : σ
  moves : List Move
  fault : Option Fault

/-- An entry hook, called each time a parser starts matching. Its notes are of type `σ`. -/
structure Hook (σ : Type) where
  react : Entry → Cursor → σ → Reaction σ

/-- The hook that keeps the list of entries in order and does nothing else. -/
def Hook.recorder : Hook (List Entry) where
  react entry _ entries := ⟨entries ++ [entry], [], none⟩

/-- The hook that does nothing. -/
def Hook.silent : Hook Unit where
  react _ _ _ := ⟨(), [], none⟩

/-- What parsing works on. -/
structure Scene (σ : Type) where
  cursor : Cursor
  record : MatchRecord
  notes : σ

/-- Parsing that returns an `α` or stops with a fault. -/
abbrev Parsing (σ α : Type) := EStateM Fault (Scene σ) α

namespace Parsing

variable {σ α : Type}

/-- Returns a result that is already there. -/
def ofResult (result : Except Fault α) : Parsing σ α := fun scene =>
  match result with
  | .ok value => .ok value scene
  | .error fault => .error fault scene

def cursor : Parsing σ Cursor := fun scene =>
  .ok scene.cursor scene

def position : Parsing σ Position := fun scene =>
  .ok scene.cursor.position scene

def record : Parsing σ MatchRecord := fun scene =>
  .ok scene.record scene

def write (record : MatchRecord) : Parsing σ Unit := fun scene =>
  .ok () { scene with record }

def move (step : Move) : Parsing σ Unit := fun scene =>
  match scene.cursor.apply step with
  | .ok cursor => .ok () { scene with cursor }
  | .error fault => .error fault scene

/-- Moves the cursor step by step, stopping at the first fault. -/
def moveAll : List Move → Parsing σ Unit
  | [] => pure ()
  | step :: rest => do
    move step
    moveAll rest

/-- Announces a parser to the entry hook. -/
def enter (hook : Hook σ) (entry : Entry) : Parsing σ Unit := fun scene =>
  let reaction := hook.react entry scene.cursor scene.notes
  match moveAll reaction.moves { scene with notes := reaction.notes } with
  | .error fault scene => .error fault scene
  | .ok () scene =>
    match reaction.fault with
    | some fault => .error fault scene
    | none => .ok () scene

def takeText (text : Text) (ignoreCase : Bool) : Parsing σ (Option Text) := fun scene =>
  let (taken, cursor) := scene.cursor.takeText text ignoreCase
  .ok taken { scene with cursor }

/-- Takes a run of units that pass a test. -/
def takeWhile (test : CodeUnit → Except Fault Bool) (min max : Int)
    : Parsing σ (Option Text) := fun scene =>
  match scene.cursor.takeWhile test min max with
  | (.ok taken, cursor) => .ok taken { scene with cursor }
  | (.error fault, cursor) => .error fault { scene with cursor }

/-- Works on a record of its own and returns what was left there. The record at hand stays as it is,
whether the work returns or stops. -/
def onRecord (own : MatchRecord) (work : Parsing σ α) : Parsing σ (α × MatchRecord) := fun scene =>
  match work { scene with record := own } with
  | .ok value after => .ok (value, after.record) { after with record := scene.record }
  | .error fault after => .error fault { after with record := scene.record }

/-- Works and returns a fault instead of stopping with it. -/
def attempt (work : Parsing σ α) : Parsing σ (Except Fault α) := fun scene =>
  match work scene with
  | .ok value after => .ok (.ok value) after
  | .error fault after => .ok (.error fault) after

end Parsing

end StagedParser
