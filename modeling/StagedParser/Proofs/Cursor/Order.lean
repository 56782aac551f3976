import Mathlib.Data.List.Basic
import Mathlib.Data.Prod.Lex
import Mathlib.Data.Nat.SuccPred
import Mathlib.Order.Interval.Set.Monotone
import StagedParser.Proofs.Cursor.Travelled
import StagedParser.Proofs.Name.Texts

/-! The order of the positions of one buffer.
Past a unit, a cursor is further in the same line or at the start of a later one. So lines and columns,
compared in that order, go up with the offset, and each of offset, place and text of a position that was
read from a cursor determines the others.
-/

namespace StagedParser

namespace Number

/-- How two numbers compare. -/
def order (a b : Number) : Ordering :=
  compareOfLessAndEq a b

/-- Integers up to the limit are ordered as numbers as they are. -/
theorem order_ofInt {m n : Int} (small : m.natAbs ≤ exactLimit) (smaller : n.natAbs ≤ exactLimit)
    : (ofInt m).order (ofInt n) = compare m n := by
  change _ = compareOfLessAndEq m n
  simp only [order, compareOfLessAndEq, ofInt_lt_ofInt small smaller, ofInt_inj small smaller]

/-- So are natural numbers. -/
theorem order_ofNat {m n : Nat} (small : m ≤ exactLimit) (smaller : n ≤ exactLimit)
    : (ofNat m).order (ofNat n) = compare m n := by
  change _ = compareOfLessAndEq m n
  simp only [order, compareOfLessAndEq, ofNat_lt_ofNat small smaller, ofNat_inj small smaller]

/-- The sign of an exact difference tells how two natural numbers compare. -/
theorem order_ofInt_sub_zero {m n : Nat} (small : m ≤ exactLimit) (smaller : n ≤ exactLimit)
    : (ofInt (m - n)).order 0 = compare m n := by
  change (ofInt (m - n)).order (ofInt 0) = compareOfLessAndEq m n
  rw [order_ofInt (by omega) (by decide)]
  change compareOfLessAndEq _ _ = _
  have negative : (m : Int) - n < 0 ↔ m < n := by omega
  have zero : (m : Int) - n = 0 ↔ m = n := by omega
  simp only [compareOfLessAndEq, negative, zero]

/-- A natural number up to the limit is printed in its digits. -/
theorem text_ofNat {n : Nat} (small : n ≤ exactLimit) : (ofNat n).text = Text.ofNat n := by
  rw [ofNat_eq_finite small, text, if_pos ⟨rfl, by simpa using small⟩]
  rfl

end Number

namespace Text

def colon : CodeUnit := 58

/-- Digits are no colons. -/
theorem colon_not_mem_ofNat (n : Nat) : colon ∉ ofNat n := by
  intro member
  cases isDigitUnit_of_mem_ofNat member

end Text

namespace Position

/-- How the places of two positions compare: by line, and by column within a line. -/
def placeOrder (position other : Position) : Ordering :=
  (position.line.order other.line).then (position.column.order other.column)

end Position

namespace Buffer

variable (buffer : Buffer) {offset : Nat}

/-- The place of an offset: its line, and then its column. -/
def placeAt (offset : Nat) : Nat ×ₗ Nat :=
  toLex (buffer.lineAt offset, buffer.columnAt offset)

/-- One unit further is a later place: a line feed leads to a later line, any other unit to a later
column of the same line. -/
theorem placeAt_lt_succ (inside : offset < buffer.size)
    : buffer.placeAt offset < buffer.placeAt (offset + 1) := by
  rw [← buffer.length_text] at inside
  have stands := List.getElem?_eq_getElem inside
  rw [placeAt, placeAt, Prod.Lex.toLex_lt_toLex, buffer.lineAt_succ stands, buffer.columnAt_succ stands]
  split
  · exact .inl (Nat.lt_succ_self _)
  · exact .inr ⟨rfl, Nat.lt_succ_self _⟩

/-- The places of a buffer go up with the offsets. -/
theorem strictMonoOn_placeAt : StrictMonoOn buffer.placeAt (Set.Iic buffer.size) :=
  strictMonoOn_Iic_of_lt_succ fun _ inside => buffer.placeAt_lt_succ inside

variable {i j : Nat} (left : i ≤ buffer.size) (right : j ≤ buffer.size)

include left right

/-- Different offsets have different positions. -/
theorem positionAt_eq_iff : buffer.positionAt i = buffer.positionAt j ↔ i = j := by
  refine ⟨fun same => ?_, fun same => by rw [same]⟩
  exact (Number.ofNat_inj (buffer.le_exactLimit left) (buffer.le_exactLimit right)).mp
    (congrArg Position.offset same)

/-- Positions are equal if their offsets are. -/
theorem isEqual_positionAt
    : (buffer.positionAt i).isEqual (buffer.positionAt j) = true ↔ i = j := by
  rw [Position.isEqual, Bool.and_eq_true, Bool.and_eq_true, positionAt, positionAt,
    Number.isEqual_ofNat (buffer.le_exactLimit left) (buffer.le_exactLimit right),
    Number.isEqual_ofNat (buffer.lineAt_le_exactLimit left) (buffer.lineAt_le_exactLimit right),
    Number.isEqual_ofNat (buffer.columnAt_le_exactLimit left) (buffer.columnAt_le_exactLimit right)]
  exact ⟨fun equal => equal.1.1, fun same => by simp [same]⟩

/-- Positions compare by the difference of their offsets. -/
theorem compare_positionAt
    : (buffer.positionAt i).compare (buffer.positionAt j) = Number.ofInt (i - j) :=
  Number.sub_ofNat (buffer.le_exactLimit left) (buffer.le_exactLimit right)

/-- The places of two offsets compare like the offsets. -/
theorem placeOrder_positionAt
    : (buffer.positionAt i).placeOrder (buffer.positionAt j) = compare i j := by
  have lines :=
    Number.order_ofNat (buffer.lineAt_le_exactLimit left) (buffer.lineAt_le_exactLimit right)
  have columns :=
    Number.order_ofNat (buffer.columnAt_le_exactLimit left) (buffer.columnAt_le_exactLimit right)
  calc (buffer.positionAt i).placeOrder (buffer.positionAt j)
    _ = compare (buffer.placeAt i) (buffer.placeAt j) := by
      rw [Position.placeOrder, positionAt, positionAt, lines, columns]
      rfl
    _ = compare i j := by
      rw [← cmp_eq_compare, ← cmp_eq_compare]
      exact buffer.strictMonoOn_placeAt.cmp_map_eq left right

/-- The texts of positions tell them apart. Witness: there is no colon among digits, so a text has one
line and one column, and no two offsets are in the same place. -/
theorem text_positionAt_eq_iff
    : (buffer.positionAt i).text = (buffer.positionAt j).text ↔ i = j := by
  refine ⟨fun same => ?_, fun same => by rw [same]⟩
  have split {offset : Nat} (inside : offset ≤ buffer.size)
      : (buffer.positionAt offset).text
        = Text.ofString "(" ++ (Text.ofNat (buffer.lineAt offset)
          ++ Text.colon :: (Text.ofNat (buffer.columnAt offset) ++ Text.ofString ")")) := by
    rw [Position.text, positionAt, Number.text_ofNat (buffer.lineAt_le_exactLimit inside),
      Number.text_ofNat (buffer.columnAt_le_exactLimit inside)]
    simp [Text.ofString, Text.ofCharacter, Text.colon]
  have plain : Text.colon ∉ Text.ofNat (buffer.columnAt i) ++ Text.ofString ")" := by
    rw [List.mem_append, not_or]
    exact ⟨Text.colon_not_mem_ofNat _, by decide⟩
  rw [split left, split right, List.append_cancel_left_eq,
    List.append_cons_inj_of_notMem (Text.colon_not_mem_ofNat _) plain, List.append_cancel_right_eq]
    at same
  obtain ⟨lines, -, columns⟩ := same
  apply buffer.strictMonoOn_placeAt.injOn left right
  rw [placeAt, placeAt, Text.ofNat_injective lines, Text.ofNat_injective columns]

end Buffer

namespace Cursor.Desk

/-- Positions read from travelled cursors of a buffer are ordered by their offsets alone: positions are
equal, in a comparison as well as in fact, just if there is no difference between them, the sign of the
difference is the order of lines and columns, and only positions with the same offset are shown by the
same text. -/
theorem positions_totally_ordered {buffer : Buffer} {desk other : Desk}
    (travelled : desk.Travelled buffer) (read : other.Travelled buffer)
    : let p := desk.cursor.position
      let q := other.cursor.position
      (p.isEqual q = true ↔ p = q)
      ∧ (p = q ↔ p.compare q = 0)
      ∧ (p.compare q).order 0 = p.placeOrder q
      ∧ (p.text = q.text ↔ p.offset = q.offset) := by
  obtain ⟨i, left, stands⟩ := travelled.isCanonical.cursor.has
  obtain ⟨j, right, standsOther⟩ := read.isCanonical.cursor.has
  rw [stands, standsOther]
  have small := buffer.le_exactLimit left
  have smaller := buffer.le_exactLimit right
  have difference := buffer.compare_positionAt left right
  have offsets : (buffer.positionAt i).offset = (buffer.positionAt j).offset ↔ i = j :=
    Number.ofNat_inj small smaller
  refine ⟨?_, ?_, ?_, ?_⟩
  · rw [buffer.isEqual_positionAt left right, buffer.positionAt_eq_iff left right]
  · have zero : Number.ofInt (i - j) = Number.ofInt 0 ↔ ((i : Int) - j) = 0 :=
      Number.ofInt_inj (by omega) (by decide)
    rw [buffer.positionAt_eq_iff left right, difference]
    exact (show i = j ↔ ((i : Int) - j) = 0 by omega).trans zero.symm
  · rw [difference, Number.order_ofInt_sub_zero small smaller, buffer.placeOrder_positionAt left right]
  · rw [buffer.text_positionAt_eq_iff left right, offsets]

/-- A cursor before the line feed at the end of a text, and one after it: the latter is at the start of
the second line, so it is later though its column is smaller, and its position is shown differently. -/
theorem positions_totally_ordered_sample
    : let buffer := Buffer.ofText (Text.ofString "a\n") (by decide)
      let early := ((Step.advance 1).run ⟨.start buffer, []⟩).2
      let late := ((Step.advance 1).run early).2
      let p := early.cursor.position
      let q := late.cursor.position
      early.Travelled buffer
      ∧ late.Travelled buffer
      ∧ late.cursor.atEnd = true
      ∧ p ≠ q
      ∧ q.column < p.column
      ∧ p.placeOrder q = .lt
      ∧ p.text ≠ q.text := by
  intro buffer early late p q
  have first : early.Travelled buffer := .step (.advance 1) (by simp) .start
  have second : late.Travelled buffer := .step (.advance 1) (by simp) first
  obtain ⟨-, equal, sign, shown⟩ := positions_totally_ordered first second
  have apart : p.compare q = Number.ofInt (-1) := by decide
  refine ⟨first, second, by decide, fun same => ?_, by decide, ?_, fun same => ?_⟩
  · have none : p.compare q = 0 := equal.mp same
    rw [apart] at none
    exact absurd none (by decide)
  · rw [← sign, apart]
    decide
  · exact absurd (shown.mp same) (by decide)

end Cursor.Desk

end StagedParser
