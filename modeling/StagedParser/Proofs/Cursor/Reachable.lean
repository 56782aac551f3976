import StagedParser.Proofs.Cursor.Canonical
import StagedParser.Proofs.Cursor.Walking

/-! Cursors that their operations can bring about.
Whatever a cursor goes through from the start of its buffer on, it stands at a whole offset inside the
buffer, as long as it is only ever moved to whole offsets. To such a place there is always a way back.
-/

namespace StagedParser

namespace Cursor

/-- A cursor that can be brought about from the start of its buffer by advancing, by taking texts and
runs of units, and by moving to positions at whole offsets. Lines and columns of those positions need
not agree with the buffer. -/
inductive Reachable : Cursor → Prop
  | start (buffer : Buffer) : Reachable (.start buffer)
  | advance {c : Cursor} (count : Number) (reachable : Reachable c) : Reachable (c.advance count)
  | takeText {c : Cursor} (text : Text) (ignoreCase : Bool) (reachable : Reachable c)
    : Reachable (c.takeText text ignoreCase).2
  | takeWhile {c : Cursor} (test : CodeUnit → Except Fault Bool) (min max : Int)
    (reachable : Reachable c)
    : Reachable (c.takeWhile test min max).2
  | moveTo {c moved : Cursor} {position : Position} (whole : position.offset.toInt?.isSome)
    (moves : c.moveTo position = .ok moved) (reachable : Reachable c)
    : Reachable moved

/-- A cursor at a whole offset inside its buffer. -/
def IsInside (c : Cursor) : Prop :=
  ∃ offset ≤ c.buffer.size, c.offset = Number.ofNat offset

/-- The start is inside the buffer. -/
theorem isInside_start (buffer : Buffer) : (start buffer).IsInside :=
  ⟨0, Nat.zero_le _, rfl⟩

/-- A step adds one to the offset, whatever the unit is. -/
theorem offset_step (c : Cursor) (unit : CodeUnit) : (c.step unit).offset = c.offset.plus 1 := by
  simp only [offset, step, Position.after]
  split <;> rfl

/-- Passing a unit of the buffer leads to the next offset. -/
theorem keptByStep_isInside : KeptByStep IsInside := by
  intro c unit stands inside
  obtain ⟨offset, bounded, same⟩ := inside
  have exact := c.buffer.le_exactLimit bounded
  have index : c.index = offset := by rw [Cursor.index, same, Number.index_ofNat exact]
  have before : offset < c.buffer.size := by
    rw [unit?, index] at stands
    exact (Array.getElem?_eq_some_iff.mp stands).1
  refine ⟨offset + 1, before, ?_⟩
  rw [offset_step, same]
  exact Number.plus_ofNat exact 1

/-- A move to a whole offset that is not refused ends inside. -/
theorem isInside_of_moveTo {c moved : Cursor} {position : Position}
    (whole : position.offset.toInt?.isSome) (moves : c.moveTo position = .ok moved)
    : moved.IsInside := by
  rw [Cursor.moveTo] at moves
  split at moves
  · next admitted =>
      cases moves
      obtain ⟨low, high⟩ := admitted
      have exact := c.buffer.le_exactLimit (Nat.le_refl _)
      rw [Number.ofNat_eq_finite exact] at high
      generalize shape : position.offset = offset at whole low high
      rcases offset with ⟨mantissa, scale⟩ | negative | _
      · cases scale with
        | succ scale => cases whole
        | zero =>
            -- Without a scale both bounds are bounds of the mantissa.
            replace low : (0 : Int) ≤ mantissa := Number.finite_le_finite.mp low
            replace high := Number.finite_le_finite.mp high
            refine ⟨mantissa.toNat, by change _ ≤ c.buffer.size; omega, ?_⟩
            change position.offset = _
            rw [shape, Number.ofNat_eq_finite (Nat.le_trans (by omega) exact),
              Int.toNat_of_nonneg (by omega)]
      · cases whole
      · cases whole
  · cases moves

/-- Reachable cursors stand inside their buffers, by induction on how they were reached. -/
theorem Reachable.isInside {c : Cursor} (reachable : c.Reachable) : c.IsInside := by
  induction reachable with
  | start buffer => exact isInside_start buffer
  | advance count reachable inside => exact keptByStep_isInside.walk inside _
  | takeText text ignoreCase reachable inside => exact keptByStep_isInside.takeText inside _ _
  | takeWhile test min max reachable inside => exact keptByStep_isInside.takeWhile inside _ _ _
  | moveTo whole moves reachable inside => exact isInside_of_moveTo whole moves

/-- Every cursor of the same buffer can move to where a cursor stands inside, and is then the same
cursor. -/
theorem IsInside.moveTo_eq {c : Cursor} (inside : c.IsInside) {other : Cursor}
    (same : other.buffer = c.buffer)
    : other.moveTo c.position = .ok c := by
  obtain ⟨offset, bounded, stands⟩ := inside
  change c.position.offset = _ at stands
  have limit := Nat.le_of_lt c.buffer.bounded
  rw [Cursor.moveTo, if_pos]
  · rw [same]
  · rw [stands, same]
    exact ⟨Number.ofNat_le_ofNat (Nat.zero_le offset) (c.buffer.le_exactLimit bounded),
      Number.ofNat_le_ofNat bounded limit⟩

end Cursor

end StagedParser
