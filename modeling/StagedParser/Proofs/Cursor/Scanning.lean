import StagedParser.Proofs.Cursor.Walking
import StagedParser.Scanner

/-! The unit that a scanner keeps.
Whatever a scanner does, the unit it kept is the unit under its cursor, and all it does is what the
cursor alone would do.
-/

namespace StagedParser

/-- What comes of trying to make a move: whether it can be made, and where the cursor is then. -/
def Cursor.attempt (c : Cursor) (step : Move) : Except Fault Unit × Cursor :=
  match c.apply step with
  | .ok moved => (.ok (), moved)
  | .error fault => (.error fault, c)

namespace Scanner

/-- The unit that was kept is the one under the cursor. -/
def IsFresh (s : Scanner) : Prop :=
  s.current = s.cursor.current

/-- A scanner that was just refreshed has kept the unit under its cursor. -/
theorem isFresh_refreshed (c : Cursor) : (refreshed c).IsFresh :=
  rfl

section Refreshed

variable (c : Cursor)

@[simp] theorem cursor_refreshed : (refreshed c).cursor = c :=
  rfl

@[simp] theorem current_refreshed : (refreshed c).current = c.current :=
  rfl

@[simp] theorem position_refreshed : (refreshed c).position = c.position :=
  rfl

@[simp] theorem skip_refreshed (count : Nat) : (refreshed c).skip count = refreshed (c.skip count) :=
  rfl

@[simp] theorem advance_refreshed (count : Number)
    : (refreshed c).advance count = refreshed (c.advance count) :=
  rfl

-----------------------------------------------------------------------------------------
-- Single operations
-----------------------------------------------------------------------------------------

/-- Moving a scanner is moving its cursor, by whether the position is inside the buffer. -/
theorem moveTo_refreshed (position : Position)
    : (refreshed c).moveTo position
      = match c.moveTo position with
        | .ok moved => (.ok (), refreshed moved)
        | .error fault => (.error fault, refreshed c) :=
  rfl

/-- Taking a text is taking it with the cursor, by whether it starts there. -/
theorem takeText_refreshed (text : Text) (ignoreCase : Bool)
    : (refreshed c).takeText text ignoreCase
      = ((c.takeText text ignoreCase).1, refreshed (c.takeText text ignoreCase).2) := by
  rw [takeText, Cursor.takeText, cursor_refreshed]
  by_cases starts : (if ignoreCase then c.startsWithIgnoringCase text else c.startsWith text) = true
  · rw [if_pos starts, if_pos starts, skip_refreshed]
  · rw [if_neg starts, if_neg starts]

/-- Moving past one unit, where there is one, is one step. -/
theorem skip_one {c : Cursor} {unit : CodeUnit} (stands : c.unit? = some unit)
    : c.skip 1 = c.step unit := by
  have inside : c.index < c.buffer.size := (Array.getElem?_eq_some_iff.mp stands).1
  have one : min 1 (c.buffer.size - c.index) = 1 := by omega
  rw [Cursor.skip, one, Cursor.walk, stands]
  rfl

/-- A cursor is at the end where there is no unit under it. -/
theorem atEnd_iff : c.atEnd = true ↔ c.unit? = none := by
  rw [Cursor.atEnd, decide_eq_true_iff]
  exact Array.getElem?_eq_none_iff.symm

/-- Putting the unit that was kept to the test is putting the one under the cursor to it, by induction
on the units that may be taken. -/
theorem runWithin_refreshed (test : CodeUnit → Except Fault Bool) (max : Int) (fuel taken : Nat)
    : let run := c.runWithin test max fuel taken
      runWithin test max fuel (refreshed c) taken = ⟨run.taken, refreshed run.cursor, run.fault⟩ := by
  induction fuel generalizing c taken with
  | zero => rfl
  | succ fuel ih =>
      rw [runWithin, Cursor.runWithin, cursor_refreshed]
      cases stands : c.unit? with
      | none => rw [if_pos ((atEnd_iff c).mpr stands)]
      | some unit =>
          have further : ¬ c.atEnd = true := by simp [atEnd_iff, stands]
          have kept : (refreshed c).current = [unit] := by
            rw [current_refreshed, Cursor.current, stands]
            rfl
          rw [if_neg further, kept, skip_refreshed, skip_one stands]
          by_cases room : max = 0 ∨ (taken : Int) < max
          · simp only [if_pos room]
            cases test unit with
            | error fault => rfl
            | ok passed =>
                cases passed with
                | false => rfl
                | true => exact ih (c.step unit) (taken + 1)
          · simp only [if_neg room]

/-- A run of units is the run that the cursor takes. -/
theorem run_refreshed (test : CodeUnit → Except Fault Bool) (max : Int)
    : (refreshed c).run test max
      = ⟨(c.run test max).taken, refreshed (c.run test max).cursor, (c.run test max).fault⟩ :=
  runWithin_refreshed c test max _ 0

/-- Taking a run, or giving it back if it is short, is doing so with the cursor. -/
theorem takeWhile_refreshed (test : CodeUnit → Except Fault Bool) (min max : Int)
    : (refreshed c).takeWhile test min max
      = ((c.takeWhile test min max).1, refreshed (c.takeWhile test min max).2) := by
  rw [takeWhile, Cursor.takeWhile, run_refreshed]
  generalize c.run test max = run
  cases run.fault with
  | some fault => rfl
  | none =>
      dsimp only
      by_cases short : (run.taken : Int) < min
      · rw [if_pos short, if_pos short, position_refreshed, moveTo_refreshed]
        cases run.cursor.moveTo c.position <;> rfl
      · rw [if_neg short, if_neg short]
        rfl

/-- A scanner that cannot make a move stays where it is. -/
theorem apply_refreshed (step : Move)
    : (refreshed c).apply step = ((c.attempt step).1, refreshed (c.attempt step).2) := by
  cases step with
  | advance count => rfl
  | moveTo position =>
      rw [apply, moveTo_refreshed, Cursor.attempt, Cursor.apply]
      cases c.moveTo position <;> rfl

end Refreshed

-----------------------------------------------------------------------------------------
-- Scripts
-----------------------------------------------------------------------------------------

/-- The desk with a scanner in place of a cursor. -/
def Desk.refreshed (desk : Cursor.Desk) : Desk :=
  ⟨.refreshed desk.cursor, desk.marks⟩

@[simp]
theorem Desk.refreshed_marks (desk : Cursor.Desk) : (refreshed desk).marks = desk.marks :=
  rfl

/-- A scanner takes a step as its cursor would, by the kinds of steps. -/
theorem take_refreshed (desk : Cursor.Desk) (step : Cursor.Step)
    : (Desk.refreshed desk).take step = ((step.run desk).1, .refreshed (step.run desk).2) := by
  have moves (position : Position)
      : (Desk.refreshed desk).moveTo position
        = ((desk.moveTo position).1, .refreshed (desk.moveTo position).2) := by
    simp only [Desk.moveTo, Desk.refreshed, moveTo_refreshed, Cursor.Desk.moveTo]
    cases desk.cursor.moveTo position <;> rfl
  cases step with
  | advance | peek | startsWith | startsWithIgnoringCase | mark => rfl
  | takeText text ignoreCase =>
      simp only [Desk.take, Desk.refreshed, takeText_refreshed, Cursor.Step.run]
  | takeWhile test min max =>
      simp only [Desk.take, Desk.refreshed, takeWhile_refreshed, Cursor.Step.run]
  | restore number =>
      simp only [Desk.take, Desk.refreshed_marks, Cursor.Step.run]
      cases desk.marks[number]? with
      | some position => exact moves position
      | none => rfl
  | moveTo position => exact moves position

/-- In every script, a scanner replies as its cursor would, and after each step it has kept the unit
that is then under the cursor. By induction on the steps. -/
theorem runSteps_refreshed (desk : Cursor.Desk) (steps : List Cursor.Step)
    : runSteps (Desk.refreshed desk) steps
      = (Cursor.runSteps desk steps).map fun (reply, cursor) => (reply, refreshed cursor) := by
  induction steps generalizing desk with
  | nil => rfl
  | cons step rest ih =>
      simp only [runSteps, Cursor.runSteps, List.map_cons, take_refreshed, ih]
      rfl

/-- After every step of a script on a buffer, the unit that the scanner kept is the one under its
cursor, by what each step is for its cursor. -/
theorem isFresh_of_mem_runSteps {buffer : Buffer} {steps : List Cursor.Step}
    {reply : Except Fault Cursor.Reply} {scanner : Scanner}
    (reached : (reply, scanner) ∈ runSteps ⟨.start buffer, []⟩ steps)
    : scanner.IsFresh := by
  have alike := runSteps_refreshed ⟨.start buffer, []⟩ steps
  change runSteps ⟨.start buffer, []⟩ steps = _ at alike
  rw [alike, List.mem_map] at reached
  obtain ⟨⟨_, cursor⟩, _, same⟩ := reached
  cases same
  exact isFresh_refreshed cursor

end Scanner

end StagedParser
