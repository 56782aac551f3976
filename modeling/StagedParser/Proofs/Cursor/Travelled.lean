import StagedParser.Cursor.Script
import StagedParser.Proofs.Parsing.Orderly

/-! Where cursors get in one buffer.
Steps and parses, on any number of cursors of a buffer and in any order, lead from canonical positions
to canonical positions, as long as no cursor is moved to a place of the buffer that was not read from
one of them: line and column are those of the offset at any time. So to go back to a position that was
read is to get the very cursor from which it was read.
-/

namespace StagedParser

namespace Cursor

/-- How a cursor of the buffer stands at an offset: its line is one more than there are line feeds
before the offset, its column one more than there are units since the last of them. -/
structure StandsAt (buffer : Buffer) (offset : Nat) (c : Cursor) : Prop where
  inBuffer : c.buffer = buffer
  inside : offset ≤ buffer.size
  atOffset : c.offset = Number.ofNat offset
  line : c.position.line = Number.ofNat (buffer.lineAt offset)
  column : c.position.column = Number.ofNat (buffer.columnAt offset)
  current : c.current = buffer.text[offset]?.toList
  atEnd : c.atEnd = true ↔ offset = buffer.size

/-- The canonical cursor at an offset stands there. -/
theorem standsAt_cursorAt {buffer : Buffer} {offset : Nat} (inside : offset ≤ buffer.size)
    : (buffer.cursorAt offset).StandsAt buffer offset where
  inBuffer := rfl
  inside := inside
  atOffset := rfl
  line := rfl
  column := rfl
  current := by rw [current, unit?_cursorAt buffer inside]
  atEnd := by
    rw [atEnd, index_cursorAt buffer inside, decide_eq_true_iff]
    exact ⟨fun ended => Nat.le_antisymm inside ended, fun ended => Nat.le_of_eq ended.symm⟩

namespace Desk

/-- A desk that stood at the start of the buffer and went through any steps and parses since. Apart
from positions outside of the buffer, it was moved only to positions that were read from such desks:
its own or others. -/
inductive Travelled (buffer : Buffer) : Desk → Prop
  | start : Travelled buffer ⟨.start buffer, []⟩
  | step {desk : Desk} (step : Step) (free : ∀ position, step ≠ .moveTo position)
    (travelled : Travelled buffer desk)
    : Travelled buffer (step.run desk).2
  | back {desk other : Desk} (read : Travelled buffer other) (travelled : Travelled buffer desk)
    : Travelled buffer ((Step.moveTo other.cursor.position).run desk).2
  | refused {desk : Desk} {position : Position} (outside : buffer.Excludes position)
    (travelled : Travelled buffer desk)
    : Travelled buffer ((Step.moveTo position).run desk).2
  | parse {H : Host} {σ : Type} {desk : Desk} {hook : Hook σ} {sound : σ → Prop} {scene : Scene σ}
    (grammar : Grammar H) (contained : grammar.SelfContained)
    (orderly : hook.IsOrderly buffer sound) (noted : sound scene.notes)
    (stands : scene.cursor = desk.cursor) (travelled : Travelled buffer desk)
    : Travelled buffer { desk with cursor := (Ending.scene (grammar.parse hook scene)).cursor }

/-- A desk with a canonical cursor, and with canonical positions noted on it. -/
structure IsCanonical (buffer : Buffer) (desk : Desk) : Prop where
  cursor : desk.cursor.IsCanonical buffer
  marks : ∀ position ∈ desk.marks, buffer.Has position

variable {buffer : Buffer} {desk : Desk}

/-- Moving to a canonical position keeps a desk canonical. -/
theorem IsCanonical.moveTo (canonical : desk.IsCanonical buffer) {position : Position}
    (has : buffer.Has position)
    : (desk.moveTo position).2.IsCanonical buffer := by
  rw [Desk.moveTo]
  cases moves : desk.cursor.moveTo position with
  | error fault => exact canonical
  | ok cursor => exact ⟨isCanonical_of_moveTo canonical.cursor has moves, canonical.marks⟩

/-- A move out of the buffer is refused, and the desk stays as it was. -/
theorem moveTo_of_excluded (canonical : desk.IsCanonical buffer) {position : Position}
    (outside : buffer.Excludes position)
    : desk.moveTo position = (.error (.invariant (.outside position.offset buffer.size)), desk) := by
  obtain ⟨_, _, same⟩ := canonical.cursor
  have inBuffer : desk.cursor.buffer = buffer := by
    rw [same]
    rfl
  rw [Desk.moveTo, Cursor.moveTo_of_excluded (by rw [inBuffer]; exact outside), inBuffer]

/-- A move to the position of a canonical cursor leads to that cursor. -/
theorem moveTo_of_canonical (canonical : desk.IsCanonical buffer) {other : Cursor}
    (target : other.IsCanonical buffer)
    : desk.moveTo other.position = (.ok .nothing, { desk with cursor := other }) := by
  rw [Desk.moveTo, canonical.cursor.moveTo_eq target]

/-- A step that is no move to a position of its own keeps a desk canonical, by the kinds of steps. -/
theorem IsCanonical.step (canonical : desk.IsCanonical buffer) (step : Step)
    (free : ∀ position, step ≠ .moveTo position)
    : (step.run desk).2.IsCanonical buffer := by
  have kept := keptByStep_isCanonical buffer
  cases step with
  | advance count => exact ⟨kept.walk canonical.cursor _, canonical.marks⟩
  | peek | startsWith | startsWithIgnoringCase => exact canonical
  | takeText text ignoreCase =>
      exact ⟨kept.takeText canonical.cursor text ignoreCase, canonical.marks⟩
  | takeWhile test min max =>
      exact ⟨kept.takeWhile canonical.cursor test _ _, canonical.marks⟩
  | mark =>
      refine ⟨canonical.cursor, fun position member => ?_⟩
      rcases List.mem_append.mp member with earlier | noted
      · exact canonical.marks position earlier
      · rw [List.mem_singleton.mp noted]
        exact canonical.cursor.has
  | restore number =>
      simp only [Step.run]
      cases found : desk.marks[number]? with
      | none => exact canonical
      | some position =>
          exact canonical.moveTo (canonical.marks position (List.mem_of_getElem? found))
  | moveTo position => exact absurd rfl (free position)

/-- Travelled desks are canonical, by induction on their travels. -/
theorem Travelled.isCanonical (travelled : desk.Travelled buffer) : desk.IsCanonical buffer := by
  induction travelled with
  | start => exact ⟨isCanonical_start buffer, by simp⟩
  | step step free travelled ih => exact ih.step step free
  | back read travelled other ih => exact ih.moveTo other.cursor.has
  | refused outside travelled ih =>
      rw [Step.run, moveTo_of_excluded ih outside]
      exact ih
  | parse grammar contained orderly noted stands travelled ih =>
      have holds := grammar.keeps_parse orderly contained _ ⟨stands ▸ ih.cursor, noted⟩
      exact ⟨holds.canonical, ih.marks⟩

/-- However a cursor travelled in its buffer, it stands at an offset of it, in the line and column of
that offset. It can go back to where any travelled cursor stands or stood, and is then the same as
that one was, and a move to a position outside is refused and leaves it as it is. -/
theorem stands_of_travelled (travelled : desk.Travelled buffer)
    : (∃ offset, desk.cursor.StandsAt buffer offset)
      ∧ (∀ other : Desk,
          other.Travelled buffer
          → (Step.moveTo other.cursor.position).run desk
            = (.ok .nothing, { desk with cursor := other.cursor }))
      ∧ ∀ position,
          buffer.Excludes position
          → (Step.moveTo position).run desk
            = (.error (.invariant (.outside position.offset buffer.size)), desk) := by
  have canonical := travelled.isCanonical
  refine ⟨?_, ?_, ?_⟩
  · obtain ⟨offset, inside, same⟩ := canonical.cursor
    rw [same]
    exact ⟨offset, standsAt_cursorAt inside⟩
  · intro other read
    exact moveTo_of_canonical canonical read.isCanonical.cursor
  · intro position outside
    exact moveTo_of_excluded canonical outside

/-- A cursor that stopped before a line feed, where its test failed, passed it, and then parsed the
digits of the next line: it can go back to where the test failed, but not beyond the end. -/
theorem stands_of_travelled_sample
    : let buffer := Buffer.ofText (Text.ofString "a\n42") (by decide)
      let test unit := Stock.TestForm.accepts unit (.failOn [Text.lineFeed])
      let stopped := ((Step.takeWhile test 0 0).run ⟨.start buffer, []⟩).2
      let passed := ((Step.advance 1).run stopped).2
      let parsed := Stock.tokens.parse Hook.recorder ⟨passed.cursor, none, []⟩
      let late := { passed with cursor := (Ending.scene parsed).cursor }
      stopped.Travelled buffer
      ∧ late.Travelled buffer
      ∧ buffer.Excludes ⟨5, 1, 1⟩
      ∧ stopped.cursor.position = ⟨1, 1, 2⟩
      ∧ late.cursor.position = ⟨4, 2, 3⟩
      ∧ (∃ offset, late.cursor.StandsAt buffer offset)
      ∧ (Step.moveTo stopped.cursor.position).run late
        = (.ok .nothing, { late with cursor := stopped.cursor })
      ∧ (Step.moveTo ⟨5, 1, 1⟩).run late = (.error (.invariant (.outside 5 4)), late) := by
  intro buffer test stopped passed parsed late
  have begun : stopped.Travelled buffer := .step (.takeWhile test 0 0) (by simp) .start
  have gone : late.Travelled buffer :=
    .parse Stock.tokens Stock.tokens_selfContained
      (Hook.isOrderly_of_moves_eq_nil buffer fun _ _ _ => rfl) trivial rfl
      (.step (.advance 1) (by simp) begun)
  have outside : buffer.Excludes ⟨5, 1, 1⟩ := by decide
  obtain ⟨stands, back, refused⟩ := stands_of_travelled gone
  exact ⟨begun, gone, outside, by decide, by decide, stands, back stopped begun,
    refused ⟨5, 1, 1⟩ outside⟩

end Desk

end Cursor

end StagedParser
