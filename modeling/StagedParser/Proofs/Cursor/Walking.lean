import StagedParser.Cursor
import StagedParser.Parsing

/-! What passing a unit keeps, every movement forward keeps.
A cursor only moves forward by passing the unit it stands at, so a property that this keeps holds
wherever advancing and taking units end, also where a test stopped a run in its midst. That a cursor
stays in its buffer is such a property.
-/

namespace StagedParser

namespace Cursor

/-- A property that a cursor keeps when it passes the unit it stands at. -/
def KeptByStep (property : Cursor → Prop) : Prop :=
  ∀ c unit, c.unit? = some unit → property c → property (c.step unit)

namespace KeptByStep

variable {property : Cursor → Prop} (kept : KeptByStep property) {c : Cursor} (holds : property c)

include kept holds

/-- Walking keeps the property, by induction on the number of units. -/
theorem walk (count : Nat) : property (Cursor.walk count c) := by
  induction count generalizing c with
  | zero => exact holds
  | succ count ih =>
      rw [Cursor.walk]
      cases stands : c.unit? with
      | none => exact holds
      | some unit => exact ih (kept c unit stands holds)

/-- Taking a text keeps it, by whether the text is there. -/
theorem takeText (text : Text) (ignoreCase : Bool) : property (c.takeText text ignoreCase).2 := by
  simp only [Cursor.takeText]
  generalize (if ignoreCase then c.startsWithIgnoringCase text else c.startsWith text) = found
  cases found with
  | true => exact kept.walk holds _
  | false => exact holds

/-- Taking units one by one keeps the property, by induction on the units that are left. -/
theorem runWithin (test : CodeUnit → Except Fault Bool) (max : Int) (fuel taken : Nat)
    : property (Cursor.runWithin test max fuel c taken).cursor := by
  induction fuel generalizing c taken with
  | zero => exact holds
  | succ fuel ih =>
      rw [Cursor.runWithin]
      cases stands : c.unit? with
      | none => exact holds
      | some unit =>
          dsimp only
          split
          · cases test unit with
            | error fault => exact holds
            | ok accepted =>
                cases accepted with
                | false => exact holds
                | true => exact ih (kept c unit stands holds) (taken + 1)
          · exact holds

end KeptByStep

-----------------------------------------------------------------------------------------
-- Cursors stay in their buffers
-----------------------------------------------------------------------------------------

/-- Steps stay in the buffer. -/
theorem keptByStep_buffer (buffer : Buffer) : KeptByStep (·.buffer = buffer) :=
  fun _ _ _ same => same

/-- Advancing stays in the buffer. -/
theorem buffer_advance (c : Cursor) (count : Number) : (c.advance count).buffer = c.buffer :=
  (keptByStep_buffer c.buffer).walk rfl _

/-- Moving stays in the buffer. -/
theorem buffer_of_moveTo {c moved : Cursor} {position : Position}
    (ended : c.moveTo position = .ok moved)
    : moved.buffer = c.buffer := by
  rw [moveTo] at ended
  split at ended
  · cases ended
    rfl
  · cases ended

/-- So does any move. -/
theorem buffer_of_apply {c moved : Cursor} {step : Move} (ended : c.apply step = .ok moved)
    : moved.buffer = c.buffer := by
  cases step with
  | advance count =>
      cases ended
      exact buffer_advance c count
  | moveTo position => exact buffer_of_moveTo ended

/-- So does taking a text. -/
theorem buffer_takeText (c : Cursor) (text : Text) (ignoreCase : Bool)
    : (c.takeText text ignoreCase).2.buffer = c.buffer :=
  (keptByStep_buffer c.buffer).takeText rfl text ignoreCase

/-- So does taking a run of units. -/
theorem buffer_run (c : Cursor) (test : CodeUnit → Except Fault Bool) (max : Int)
    : (c.run test max).cursor.buffer = c.buffer :=
  (keptByStep_buffer c.buffer).runWithin rfl test max _ _

/-- A run that is given back leads to the very cursor it was taken from, so taking a run keeps what
passing a unit keeps. -/
theorem KeptByStep.takeWhile {property : Cursor → Prop} (kept : KeptByStep property) {c : Cursor}
    (holds : property c) (test : CodeUnit → Except Fault Bool) (min max : Int)
    : property (c.takeWhile test min max).2 := by
  have ran : property (c.run test max).cursor := kept.runWithin holds test max _ _
  have same := c.buffer_run test max
  rw [Cursor.takeWhile]
  cases (c.run test max).fault with
  | some fault => exact ran
  | none =>
      dsimp only
      split
      · cases moves : (c.run test max).cursor.moveTo c.position with
        | error fault => exact ran
        | ok back =>
            have returned : back = c := by
              rw [moveTo] at moves
              split at moves
              · cases moves
                rw [same]
              · cases moves
            rw [returned]
            exact holds
      · exact ran

/-- So does taking a run that may be given back. -/
theorem buffer_takeWhile (c : Cursor) (test : CodeUnit → Except Fault Bool) (min max : Int)
    : (c.takeWhile test min max).2.buffer = c.buffer :=
  (keptByStep_buffer c.buffer).takeWhile rfl test min max

end Cursor

end StagedParser
