import StagedParser.Proofs.Cursor.Canonical

/-! What is left of a text from an offset on.
A cursor in the text and one in what is left of it that stand before the same unit read alike: they
take the same units, put the same units to the test, and stop before the same unit again. Their
positions differ by a shift of offset and line, and in the first line of what is left by one of the
column.
-/

namespace StagedParser

namespace Buffer

variable (buffer : Buffer) {start count : Nat}

/-- The buffer of what is left of a text from an offset on. -/
def suffix (start : Nat) : Buffer :=
  ofText (buffer.text.drop start) <| by
    rw [List.length_drop, buffer.length_text]
    exact Nat.lt_of_le_of_lt (Nat.sub_le _ _) buffer.bounded

/-- The text of a suffix is the rest of the text. -/
theorem text_suffix (start : Nat) : (buffer.suffix start).text = buffer.text.drop start :=
  rfl

/-- It has the units that are left. -/
theorem size_suffix (start : Nat) : (buffer.suffix start).size = buffer.size - start := by
  rw [← length_text, text_suffix, List.length_drop, length_text]

-----------------------------------------------------------------------------------------
-- Positions
-----------------------------------------------------------------------------------------

/-- The text up to an offset is the text up to the suffix and the beginning of that. -/
theorem take_add_suffix (start count : Nat)
    : buffer.text.take (start + count)
      = buffer.text.take start ++ (buffer.suffix start).text.take count :=
  List.take_add

/-- The lines of a suffix are counted on from those before it. -/
theorem lineAt_add (start count : Nat)
    : buffer.lineAt (start + count)
      = (buffer.suffix start).lineAt count + (buffer.lineAt start - 1) := by
  rw [lineAt, lineAt, lineAt, take_add_suffix, List.count_append]
  omega

/-- After a line feed the column does not depend on what comes before it. -/
theorem columnAt_add_of_line_gt (later : 1 < (buffer.suffix start).lineAt count)
    : buffer.columnAt (start + count) = (buffer.suffix start).columnAt count := by
  rw [lineAt] at later
  rw [columnAt, columnAt, take_add_suffix, List.reverse_append]
  generalize (buffer.suffix start).text.take count = read at later
  have feeds : Text.lineFeed ∈ read.reverse := by
    rw [List.mem_reverse, ← List.count_pos_iff]
    omega
  -- Counting back from the offset, the line feed comes before anything that was there earlier.
  have stopped : (read.reverse.takeWhile (· ≠ Text.lineFeed)).length ≠ read.reverse.length := by
    intro whole
    have same := (List.takeWhile_prefix (· ≠ Text.lineFeed)).eq_of_length whole
    rw [← same] at feeds
    have passed := List.all_eq_true.mp List.all_takeWhile _ feeds
    simp at passed
  rw [List.takeWhile_append, if_neg stopped]

/-- Within the first line columns are counted on from the column at the offset. -/
theorem columnAt_add_of_line_eq_one (first : (buffer.suffix start).lineAt count = 1)
    : buffer.columnAt (start + count)
      = (buffer.suffix start).columnAt count + (buffer.columnAt start - 1) := by
  rw [lineAt] at first
  rw [columnAt, columnAt, columnAt, take_add_suffix, List.reverse_append]
  generalize (buffer.suffix start).text.take count = read at first
  have unbroken : ∀ unit ∈ read.reverse, decide (unit ≠ Text.lineFeed) = true := by
    intro unit member
    have absent : Text.lineFeed ∉ read := List.count_eq_zero.mp (by omega)
    rw [List.mem_reverse] at member
    simpa using fun same : unit = Text.lineFeed => absent (same ▸ member)
  have whole : (read.reverse ++ []).takeWhile (· ≠ Text.lineFeed)
      = read.reverse ++ [].takeWhile (· ≠ Text.lineFeed) :=
    List.takeWhile_append_of_pos unbroken
  rw [List.append_nil, List.takeWhile_nil, List.append_nil] at whole
  rw [List.takeWhile_append_of_pos unbroken, whole, List.length_append]
  omega

/-- A position in what is left of the text from an offset on, as a position of the whole text. -/
def shifted (start : Nat) (position : Position) : Position :=
  ⟨position.offset.plus start, position.line.plus (buffer.lineAt start - 1),
    if 1 < position.line then
      position.column
    else
      position.column.plus (buffer.columnAt start - 1)⟩

/-- Canonical positions of what is left are canonical positions of the text, shifted. -/
theorem positionAt_add (inside : start + count ≤ buffer.size)
    : buffer.positionAt (start + count)
      = buffer.shifted start ((buffer.suffix start).positionAt count) := by
  have within : count ≤ (buffer.suffix start).size := by
    rw [size_suffix]
    omega
  have offset := Number.plus_ofNat ((buffer.suffix start).le_exactLimit within) start
  have lineSmall := (buffer.suffix start).lineAt_le_exactLimit within
  have line := Number.plus_ofNat lineSmall (buffer.lineAt start - 1)
  have column := Number.plus_ofNat ((buffer.suffix start).columnAt_le_exactLimit within)
    (buffer.columnAt start - 1)
  have lineBefore : ((buffer.lineAt start - 1 : Nat) : Int) = buffer.lineAt start - 1 := by
    rw [lineAt]
    omega
  have columnBefore : ((buffer.columnAt start - 1 : Nat) : Int) = buffer.columnAt start - 1 := by
    rw [columnAt]
    omega
  have later : (1 : Number) < Number.ofNat ((buffer.suffix start).lineAt count)
      ↔ 1 < (buffer.suffix start).lineAt count :=
    Number.ofNat_lt_ofNat (by decide) lineSmall
  rw [lineBefore] at line
  rw [columnBefore] at column
  simp only [shifted, positionAt, offset, line, later, Position.mk.injEq]
  refine ⟨by rw [Nat.add_comm], by rw [lineAt_add], ?_⟩
  by_cases feeds : 1 < (buffer.suffix start).lineAt count
  · rw [if_pos feeds, buffer.columnAt_add_of_line_gt feeds]
  · have first : (buffer.suffix start).lineAt count = 1 := by
      rw [lineAt] at feeds ⊢
      omega
    rw [if_neg feeds, column, buffer.columnAt_add_of_line_eq_one first]

end Buffer

namespace Cursor

-----------------------------------------------------------------------------------------
-- Cursors before the same unit
-----------------------------------------------------------------------------------------

/-- Advancing from the start by an offset of the buffer leads to its canonical position. -/
theorem advance_start {buffer : Buffer} {offset : Nat} (inside : offset ≤ buffer.size)
    : (start buffer).advance (Number.ofNat offset) = buffer.cursorAt offset := by
  have stands : start buffer = buffer.cursorAt 0 := rfl
  rw [advance, Number.ceiling_ofNat (buffer.le_exactLimit inside), Int.toNat_natCast, stands,
    skip_cursorAt buffer (by omega), Nat.zero_add]

/-- A cursor in a text, and one in what is left of it from an offset on, that stand before the same
unit. -/
def Alongside (buffer : Buffer) (start : Nat) (c other : Cursor) : Prop :=
  ∃ count,
    start + count ≤ buffer.size
    ∧ c = buffer.cursorAt (start + count)
    ∧ other = (buffer.suffix start).cursorAt count

/-- The start of a suffix stands alongside the place where the suffix begins. -/
theorem alongside_start {buffer : Buffer} {offset : Nat} (inside : offset ≤ buffer.size)
    : Alongside buffer offset ((start buffer).advance (Number.ofNat offset))
        (start (buffer.suffix offset)) :=
  ⟨0, inside, advance_start inside, rfl⟩

variable {buffer : Buffer} {start : Nat} {c other : Cursor}

/-- An offset of the buffer past the start is one of the suffix. -/
theorem count_le_size {count : Nat} (inside : start + count ≤ buffer.size)
    : count ≤ (buffer.suffix start).size := by
  rw [Buffer.size_suffix]
  omega

/-- What is left of a suffix is what is left of the buffer. -/
theorem drop_suffix (buffer : Buffer) (start count : Nat)
    : (buffer.suffix start).text.drop count = buffer.text.drop (start + count) := by
  rw [Buffer.text_suffix, List.drop_drop]

/-- Cursors before the same unit see it, and have the same number of units before them. -/
theorem Alongside.unit? (alongside : Alongside buffer start c other)
    : c.unit? = other.unit? := by
  obtain ⟨count, inside, rfl, rfl⟩ := alongside
  rw [unit?_cursorAt buffer inside, unit?_cursorAt _ (count_le_size inside), Buffer.text_suffix,
    List.getElem?_drop]

/-- Cursors alongside have as many units before them. -/
theorem Alongside.left (alongside : Alongside buffer start c other)
    : c.buffer.size - c.index = other.buffer.size - other.index := by
  obtain ⟨count, inside, rfl, rfl⟩ := alongside
  rw [index_cursorAt buffer inside, index_cursorAt _ (count_le_size inside)]
  change buffer.size - _ = (buffer.suffix start).size - _
  rw [Buffer.size_suffix]
  omega

/-- They stay alongside past the same unit. -/
theorem Alongside.step (alongside : Alongside buffer start c other) {unit : CodeUnit}
    (stands : c.unit? = some unit)
    : Alongside buffer start (c.step unit) (other.step unit) := by
  have sees := alongside.unit?
  obtain ⟨count, inside, rfl, rfl⟩ := alongside
  rw [stands, unit?_cursorAt _ (count_le_size inside)] at sees
  rw [unit?_cursorAt buffer inside] at stands
  have within := buffer.lt_size stands
  exact ⟨count + 1, by omega, step_cursorAt buffer stands, step_cursorAt _ sees.symm⟩

/-- They take the same texts. -/
theorem Alongside.takeText (alongside : Alongside buffer start c other) (literal : Text)
    (ignoreCase : Bool)
    : (c.takeText literal ignoreCase).1 = (other.takeText literal ignoreCase).1
      ∧ Alongside buffer start (c.takeText literal ignoreCase).2
          (other.takeText literal ignoreCase).2 := by
  obtain ⟨count, inside, rfl, rfl⟩ := alongside
  rw [takeText_cursorAt buffer inside, takeText_cursorAt _ (count_le_size inside), drop_suffix]
  cases begins : Text.beginsWith (buffer.text.drop (start + count)) literal ignoreCase with
  | false => exact ⟨rfl, count, inside, rfl, rfl⟩
  | true =>
      have length := Text.length_le_of_beginsWith begins
      rw [List.length_drop, buffer.length_text] at length
      exact ⟨rfl, count + literal.length, by omega, by rw [if_pos rfl, Nat.add_assoc], rfl⟩

/-- Either cursor can return to where the two stood before the same unit. -/
theorem Alongside.moveTo {target otherTarget : Cursor} (alongside : Alongside buffer start c other)
    (targets : Alongside buffer start target otherTarget)
    : c.moveTo target.position = .ok target
      ∧ other.moveTo otherTarget.position = .ok otherTarget := by
  obtain ⟨count, inside, rfl, rfl⟩ := alongside
  obtain ⟨back, within, rfl, rfl⟩ := targets
  exact ⟨moveTo_positionAt buffer _ within, moveTo_positionAt _ _ (count_le_size within)⟩

/-- The units up to where the two stop before the same unit are the same. -/
theorem Alongside.upTo {stop otherStop : Cursor} (alongside : Alongside buffer start c other)
    (stops : Alongside buffer start stop otherStop)
    : c.upTo stop.offset = other.upTo otherStop.offset := by
  obtain ⟨count, inside, rfl, rfl⟩ := alongside
  obtain ⟨last, within, rfl, rfl⟩ := stops
  have stopIndex : (buffer.cursorAt (start + last)).offset.index = start + last :=
    index_cursorAt buffer within
  have otherIndex : ((buffer.suffix start).cursorAt last).offset.index = last :=
    index_cursorAt _ (count_le_size within)
  have distance : start + last - (start + count) = last - count := by omega
  rw [Cursor.upTo, Cursor.upTo, index_cursorAt buffer inside, index_cursorAt _ (count_le_size inside),
    stopIndex, otherIndex]
  change buffer.slice _ _ = (buffer.suffix start).slice _ _
  rw [Buffer.slice_eq, Buffer.slice_eq, drop_suffix, distance]

/-- Taking units one by one goes alike, by induction on the units that may be taken. A fault of the
test comes at the same unit. -/
theorem Alongside.runWithin (alongside : Alongside buffer start c other)
    (test : CodeUnit → Except Fault Bool) (max : Int) (fuel taken : Nat)
    : let run := runWithin test max fuel c taken
      let otherRun := runWithin test max fuel other taken
      run.taken = otherRun.taken
      ∧ run.fault = otherRun.fault
      ∧ Alongside buffer start run.cursor otherRun.cursor := by
  induction fuel generalizing c other taken with
  | zero => exact ⟨rfl, rfl, alongside⟩
  | succ fuel ih =>
      have sees := alongside.unit?
      simp only [Cursor.runWithin, ← sees]
      cases stands : c.unit? with
      | none => exact ⟨rfl, rfl, alongside⟩
      | some unit =>
          dsimp only
          split
          · cases test unit with
            | error fault => exact ⟨rfl, rfl, alongside⟩
            | ok passes =>
                cases passes with
                | false => exact ⟨rfl, rfl, alongside⟩
                | true => exact ih (alongside.step stands) (taken + 1)
          · exact ⟨rfl, rfl, alongside⟩

/-- They take the same runs. -/
theorem Alongside.run (alongside : Alongside buffer start c other)
    (test : CodeUnit → Except Fault Bool) (max : Int)
    : (c.run test max).taken = (other.run test max).taken
      ∧ (c.run test max).fault = (other.run test max).fault
      ∧ Alongside buffer start (c.run test max).cursor (other.run test max).cursor := by
  rw [Cursor.run, Cursor.run, ← alongside.left]
  exact alongside.runWithin test max _ 0

/-- Taking a run goes alike, also where a test stops it with a fault. -/
theorem Alongside.takeWhile (alongside : Alongside buffer start c other)
    (test : CodeUnit → Except Fault Bool) (min max : Int)
    : (c.takeWhile test min max).1 = (other.takeWhile test min max).1
      ∧ Alongside buffer start (c.takeWhile test min max).2 (other.takeWhile test min max).2 := by
  have ran := alongside.run test max
  simp only [Cursor.takeWhile]
  generalize c.run test max = run at ran ⊢
  generalize other.run test max = otherRun at ran ⊢
  obtain ⟨taken, fault, stops⟩ := ran
  rw [← taken, ← fault]
  cases run.fault with
  | some fault => exact ⟨rfl, stops⟩
  | none =>
      obtain ⟨back, otherBack⟩ := stops.moveTo alongside
      dsimp only
      split
      · rw [back, otherBack]
        exact ⟨rfl, alongside⟩
      · exact ⟨by rw [alongside.upTo stops], stops⟩

end Cursor

end StagedParser
