import StagedParser.Cursor
import StagedParser.Proofs.Number.Whole

/-! Cursors at canonical positions.
The canonical position of an offset counts the line feeds before it and the units since the last one.
Reading from a canonical position takes what the text holds there and ends at a canonical position.
-/

namespace StagedParser

namespace Text

/-- Whether a text begins with a literal, or, where case is ignored, with as many units in the same
lower-case form. -/
def beginsWith (text literal : Text) (ignoreCase : Bool) : Bool :=
  if ignoreCase then
    (text.take literal.length).length == literal.length
      && Text.lowerCase (text.take literal.length) == Text.lowerCase literal
  else
    literal.isPrefixOf text

/-- Beginning with a text as it is written is being equal to it so far. -/
theorem beginsWith_false (text literal : Text)
    : text.beginsWith literal false = (text.take literal.length == literal) := by
  rw [Bool.eq_iff_iff, beginsWith, if_neg Bool.false_ne_true, List.isPrefixOf_iff_prefix, beq_iff_eq,
    List.prefix_iff_eq_take]
  exact eq_comm

/-- A text is as long as what it begins with, whether case counts or not. -/
theorem length_le_of_beginsWith {text literal : Text} {ignoreCase : Bool}
    (begins : text.beginsWith literal ignoreCase = true)
    : literal.length ≤ text.length := by
  cases ignoreCase with
  | false =>
      rw [beginsWith, if_neg Bool.false_ne_true, List.isPrefixOf_iff_prefix] at begins
      exact begins.length_le
  | true =>
      rw [beginsWith, if_pos rfl, Bool.and_eq_true, beq_iff_eq, List.length_take] at begins
      omega

/-- The longest run of accepted units at the start of a text, at most `max` of them unless `max` is
zero. -/
def run (accept : CodeUnit → Bool) (max : Nat) (text : Text) : Text :=
  if max = 0 then text.takeWhile accept else (text.takeWhile accept).take max

end Text

namespace Buffer

/-- The line of an offset: one more than there are line feeds before it. -/
def lineAt (buffer : Buffer) (offset : Nat) : Nat :=
  1 + (buffer.text.take offset).count Text.lineFeed

/-- The column of an offset: one more than there are units between it and the last line feed before
it. -/
def columnAt (buffer : Buffer) (offset : Nat) : Nat :=
  1 + ((buffer.text.take offset).reverse.takeWhile (· ≠ Text.lineFeed)).length

def positionAt (buffer : Buffer) (offset : Nat) : Position :=
  ⟨Number.ofNat offset, Number.ofNat (buffer.lineAt offset), Number.ofNat (buffer.columnAt offset)⟩

def cursorAt (buffer : Buffer) (offset : Nat) : Cursor :=
  ⟨buffer, buffer.positionAt offset⟩

variable (buffer : Buffer) {offset : Nat}

/-- The text of a buffer is as long as the buffer. -/
theorem length_text : buffer.text.length = buffer.size :=
  buffer.units.length_toList

/-- Offsets of a buffer are numbers exactly. -/
theorem le_exactLimit (inside : offset ≤ buffer.size) : offset ≤ Number.exactLimit :=
  Nat.le_trans inside (Nat.le_of_lt buffer.bounded)

/-- Lines are numbers exactly, as there are no more of them than units and one. -/
theorem lineAt_le_exactLimit (inside : offset ≤ buffer.size)
    : buffer.lineAt offset ≤ Number.exactLimit := by
  have counted := List.count_le_length (a := Text.lineFeed) (l := buffer.text.take offset)
  have taken := buffer.text.length_take_le offset
  have bounded : buffer.size < Number.exactLimit := buffer.bounded
  rw [lineAt]
  omega

/-- So are columns. -/
theorem columnAt_le_exactLimit (inside : offset ≤ buffer.size)
    : buffer.columnAt offset ≤ Number.exactLimit := by
  have passed := (List.takeWhile_sublist (· ≠ Text.lineFeed)
    (l := (buffer.text.take offset).reverse)).length_le
  have taken := buffer.text.length_take_le offset
  have bounded : buffer.size < Number.exactLimit := buffer.bounded
  rw [List.length_reverse] at passed
  rw [columnAt]
  omega

/-- A slice of the buffer is one of its text. -/
theorem slice_eq (start stop : Nat)
    : buffer.slice start stop = (buffer.text.drop start).take (stop - start) := by
  simp [slice, text]

section Step

variable {unit : CodeUnit} (stands : buffer.text[offset]? = some unit)

include stands

/-- Up to the next offset there is one unit more. -/
theorem take_succ : buffer.text.take (offset + 1) = buffer.text.take offset ++ [unit] := by
  rw [List.take_add_one, stands]
  rfl

/-- An offset with a unit is before the end. -/
theorem lt_size : offset < buffer.size := by
  rw [← buffer.length_text]
  exact (List.getElem?_eq_some_iff.mp stands).1

/-- A line feed begins a new line, by whether the unit is one. -/
theorem lineAt_succ
    : buffer.lineAt (offset + 1)
      = if unit = Text.lineFeed then buffer.lineAt offset + 1 else buffer.lineAt offset := by
  rw [lineAt, lineAt, buffer.take_succ stands, List.count_append, List.count_singleton]
  by_cases same : unit = Text.lineFeed
  · simp [same, Nat.add_assoc]
  · simp [same]

/-- A line feed is followed by the first column, any other unit by the next one. -/
theorem columnAt_succ
    : buffer.columnAt (offset + 1)
      = if unit = Text.lineFeed then 1 else buffer.columnAt offset + 1 := by
  rw [columnAt, columnAt, buffer.take_succ stands, List.reverse_append, List.reverse_singleton,
    List.singleton_append, List.takeWhile_cons]
  by_cases same : unit = Text.lineFeed
  · simp [same]
  · simp [same, Nat.add_assoc]

/-- The position after the unit at an offset is the canonical one of the next offset. -/
theorem positionAt_succ
    : (buffer.positionAt offset).after unit = buffer.positionAt (offset + 1) := by
  have inside := Nat.le_of_lt (buffer.lt_size stands)
  have nextOffset := Number.plus_ofNat (buffer.le_exactLimit inside) 1
  have nextLine := Number.plus_ofNat (buffer.lineAt_le_exactLimit inside) 1
  have nextColumn := Number.plus_ofNat (buffer.columnAt_le_exactLimit inside) 1
  rw [positionAt, positionAt, Position.after, buffer.lineAt_succ stands, buffer.columnAt_succ stands]
  by_cases same : unit = Text.lineFeed
  · simp only [same, if_true, Position.mk.injEq]
    exact ⟨nextOffset, nextLine, rfl⟩
  · simp only [same, if_false, Position.mk.injEq]
    exact ⟨nextOffset, trivial, nextColumn⟩

end Step

end Buffer

/-- The unit at an offset where a run of `count` units ended, unless the run has reached its greatest
length. There is none at the end of the buffer. -/
def Buffer.following (buffer : Buffer) (max count offset : Nat) : Option CodeUnit :=
  if max = 0 ∨ count < max then buffer.text[offset]? else none

/-- The unit that follows a run is one of the buffer. -/
theorem Buffer.getElem?_of_following {buffer : Buffer} {max count offset : Nat} {unit : CodeUnit}
    (follows : buffer.following max count offset = some unit)
    : buffer.text[offset]? = some unit := by
  rw [Buffer.following] at follows
  split at follows
  · exact follows
  · cases follows

namespace Cursor

variable (buffer : Buffer) {offset : Nat}

/-- A canonical cursor points at its offset. -/
theorem index_cursorAt (inside : offset ≤ buffer.size) : (buffer.cursorAt offset).index = offset :=
  Number.index_ofNat (buffer.le_exactLimit inside)

/-- It sees the unit there. -/
theorem unit?_cursorAt (inside : offset ≤ buffer.size)
    : (buffer.cursorAt offset).unit? = buffer.text[offset]? := by
  rw [unit?, index_cursorAt buffer inside]
  simp [Buffer.cursorAt, Buffer.text]

/-- One step from a canonical cursor is the canonical cursor at the next offset. -/
theorem step_cursorAt {unit : CodeUnit} (stands : buffer.text[offset]? = some unit)
    : (buffer.cursorAt offset).step unit = buffer.cursorAt (offset + 1) := by
  rw [step, Buffer.cursorAt, Buffer.cursorAt, ← buffer.positionAt_succ stands]

/-- Walking past units of the buffer ends at a canonical position, by induction on their number. -/
theorem walk_cursorAt {count : Nat} (inside : offset + count ≤ buffer.size)
    : walk count (buffer.cursorAt offset) = buffer.cursorAt (offset + count) := by
  induction count generalizing offset with
  | zero => rw [walk, Nat.add_zero]
  | succ count ih =>
      have within : offset < buffer.text.length := by
        rw [buffer.length_text]
        omega
      have stands := List.getElem?_eq_getElem within
      rw [walk, unit?_cursorAt buffer (by omega), stands]
      dsimp only
      rw [step_cursorAt buffer stands, ih (by omega), Nat.add_right_comm, Nat.add_assoc]

/-- Skipping units inside the buffer ends at the canonical cursor after them. -/
theorem skip_cursorAt {count : Nat} (inside : offset + count ≤ buffer.size)
    : (buffer.cursorAt offset).skip count = buffer.cursorAt (offset + count) := by
  have enough : min count (buffer.size - offset) = count := by omega
  rw [skip, index_cursorAt buffer (by omega)]
  change walk (min count (buffer.size - offset)) _ = _
  rw [enough, walk_cursorAt buffer inside]

/-- Any cursor of the buffer can move to a canonical position. -/
theorem moveTo_positionAt (position : Position) (inside : offset ≤ buffer.size)
    : moveTo ⟨buffer, position⟩ (buffer.positionAt offset) = .ok (buffer.cursorAt offset) := by
  have limit := Nat.le_of_lt buffer.bounded
  rw [moveTo, if_pos]
  · rfl
  · exact ⟨Number.ofNat_le_ofNat (Nat.zero_le offset) (buffer.le_exactLimit inside),
      Number.ofNat_le_ofNat inside limit⟩

/-- The units ahead of a canonical position are those of the text, also where rounding the offset
after them goes astray: that happens beyond every buffer only. -/
theorem ahead_cursorAt (inside : offset ≤ buffer.size) (count : Nat)
    : (buffer.cursorAt offset).ahead count = (buffer.text.drop offset).take count := by
  have small := buffer.le_exactLimit inside
  have after : (buffer.cursorAt offset).offset.plus count = Number.ofNat (offset + count) :=
    Number.plus_ofNat small count
  rw [ahead, upTo, after, index_cursorAt buffer inside]
  change buffer.slice _ _ = _
  rw [buffer.slice_eq]
  by_cases exact : offset + count ≤ Number.exactLimit
  · rw [Number.index_ofNat exact, Nat.add_sub_cancel_left]
  · have beyond := Number.index_ofNat_ge (Nat.le_of_not_le exact)
    have bounded : buffer.size < Number.exactLimit := buffer.bounded
    have length := buffer.length_text
    rw [List.take_of_length_le (by rw [List.length_drop]; omega),
      List.take_of_length_le (by rw [List.length_drop]; omega)]

/-- Taking a text at a canonical position takes it where the text begins with it there. -/
theorem takeText_cursorAt (inside : offset ≤ buffer.size) (literal : Text) (ignoreCase : Bool)
    : (buffer.cursorAt offset).takeText literal ignoreCase
      = if Text.beginsWith (buffer.text.drop offset) literal ignoreCase then
          (some ((buffer.text.drop offset).take literal.length),
            buffer.cursorAt (offset + literal.length))
        else
          (none, buffer.cursorAt offset) := by
  have found : (if ignoreCase then (buffer.cursorAt offset).startsWithIgnoringCase literal
        else (buffer.cursorAt offset).startsWith literal)
      = Text.beginsWith (buffer.text.drop offset) literal ignoreCase := by
    cases ignoreCase with
    | true =>
        rw [if_pos rfl, startsWithIgnoringCase, ahead_cursorAt buffer inside, Text.beginsWith,
          if_pos rfl]
    | false =>
        rw [if_neg Bool.false_ne_true, startsWith, index_cursorAt buffer inside, Text.beginsWith_false]
        change (buffer.slice _ _ == literal) = _
        rw [buffer.slice_eq, Nat.add_sub_cancel_left]
  rw [takeText, found]
  cases begins : Text.beginsWith (buffer.text.drop offset) literal ignoreCase with
  | false => rfl
  | true =>
      have length := Text.length_le_of_beginsWith begins
      rw [List.length_drop, buffer.length_text] at length
      rw [if_pos rfl, if_pos rfl, ahead_cursorAt buffer inside, skip_cursorAt buffer (by omega)]

/-- Whether a unit passes a test. One that the test fails on does not. -/
def passes (test : CodeUnit → Except Fault Bool) (unit : CodeUnit) : Bool :=
  match test unit with
  | .ok accepted => accepted
  | .error _ => false

/-- The fault of a test on a unit, if it fails there. -/
def faultOn? (test : CodeUnit → Except Fault Bool) (unit : CodeUnit) : Option Fault :=
  match test unit with
  | .ok _ => none
  | .error fault => some fault

/-- A unit passes if the test says so without a fault. -/
theorem passes_eq_true {test : CodeUnit → Except Fault Bool} {unit : CodeUnit}
    : passes test unit = true ↔ test unit = .ok true := by
  rw [passes]
  cases test unit with
  | ok accepted => simp
  | error fault => simp

/-- What is left of a run of at most `max` units after some have been taken. -/
def remainingRun (accept : CodeUnit → Bool) (max taken : Nat) (text : Text) : Text :=
  if max = 0 then text.takeWhile accept else (text.takeWhile accept).take (max - taken)

/-- An accepted unit is taken as long as the run may go on. -/
theorem remainingRun_cons {accept : CodeUnit → Bool} {max taken : Nat} {unit : CodeUnit} {text : Text}
    (accepted : accept unit = true) (allowed : max = 0 ∨ taken < max)
    : remainingRun accept max taken (unit :: text)
      = unit :: remainingRun accept max (taken + 1) text := by
  rw [remainingRun, remainingRun, List.takeWhile_cons_of_pos accepted]
  by_cases unlimited : max = 0
  · rw [if_pos unlimited, if_pos unlimited]
  · have next : max - taken = max - (taken + 1) + 1 := by omega
    rw [if_neg unlimited, if_neg unlimited, next, List.take_succ_cons]

/-- Taking units one by one from a canonical position takes what is left of the longest run, asks about
these units and about the following one, and stops with the fault of the test on that one, if any.
Witness: induction on the units that are left. -/
theorem runWithin_cursorAt (test : CodeUnit → Except Fault Bool) (max : Nat) {fuel taken : Nat}
    (inside : offset ≤ buffer.size) (enough : fuel = buffer.size - offset) {rest : Text}
    (left : rest = remainingRun (passes test) max taken (buffer.text.drop offset))
    : let next := buffer.following max (taken + rest.length) (offset + rest.length)
      runWithin test max fuel (buffer.cursorAt offset) taken
      = ⟨taken + rest.length, rest ++ next.toList, buffer.cursorAt (offset + rest.length),
          next.bind (faultOn? test)⟩ := by
  induction fuel generalizing offset taken rest with
  | zero =>
      have ended : buffer.text.length ≤ offset := by
        rw [buffer.length_text]
        omega
      obtain rfl : rest = [] := by
        rw [left, List.drop_eq_nil_of_le ended]
        simp [remainingRun]
      simp [runWithin, Buffer.following, List.getElem?_eq_none ended]
  | succ fuel ih =>
      have within : offset < buffer.text.length := by
        rw [buffer.length_text]
        omega
      have stands := List.getElem?_eq_getElem within
      have ahead := List.drop_eq_getElem_cons within
      generalize buffer.text[offset] = unit at stands ahead
      rw [ahead] at left
      rw [runWithin, unit?_cursorAt buffer inside, stands]
      dsimp only
      by_cases allowed : max = 0 ∨ taken < max
      · have next : buffer.following max taken offset = some unit := by
          rw [Buffer.following, if_pos allowed, stands]
        rw [if_pos (by omega)]
        cases asked : test unit with
        | error fault =>
            obtain rfl : rest = [] := by
              rw [left]
              simp [remainingRun, passes, asked]
            simp [next, faultOn?, asked]
        | ok accepted =>
            cases accepted with
            | false =>
                obtain rfl : rest = [] := by
                  rw [left]
                  simp [remainingRun, passes, asked]
                simp [next, faultOn?, asked]
            | true =>
                let tail := remainingRun (passes test) max (taken + 1) (buffer.text.drop (offset + 1))
                obtain rfl : rest = unit :: tail := by
                  rw [left]
                  exact remainingRun_cons (passes_eq_true.mpr asked) allowed
                have further := ih (by omega) (by omega) (rfl : tail = _)
                have counts (n : Nat) : n + 1 + tail.length = n + (unit :: tail).length := by
                  rw [List.length_cons]
                  omega
                rw [counts, counts] at further
                rw [step_cursorAt buffer stands, further]
                rfl
      · have next : buffer.following max taken offset = none := by
          rw [Buffer.following, if_neg allowed]
        obtain rfl : rest = [] := by
          rw [left, remainingRun, if_neg (by omega), Nat.sub_eq_zero_of_le (by omega), List.take_zero]
        rw [if_neg (by omega)]
        simp [next]

/-- A run is no longer than the text. -/
theorem length_run_le (accept : CodeUnit → Bool) (max : Nat) (text : Text)
    : (Text.run accept max text).length ≤ text.length := by
  have passed := (List.takeWhile_sublist accept (l := text)).length_le
  rw [Text.run]
  split
  · exact passed
  · exact Nat.le_trans (List.length_take_le' _ _) passed

/-- A run is the beginning of the text that is as long. -/
theorem take_length_run (accept : CodeUnit → Bool) (max : Nat) (text : Text)
    : text.take (Text.run accept max text).length = Text.run accept max text := by
  have whole : Text.run accept max text <+: text := by
    rw [Text.run]
    split
    · exact List.takeWhile_prefix accept
    · exact (List.take_prefix max _).trans (List.takeWhile_prefix accept)
  exact (List.prefix_iff_eq_take.mp whole).symm

/-- Taking a run from a canonical cursor asks the units of the run and the one that follows, and
stops there. -/
theorem run_cursorAt (test : CodeUnit → Except Fault Bool) (max : Nat) (inside : offset ≤ buffer.size)
    : let run := Text.run (passes test) max (buffer.text.drop offset)
      let next := buffer.following max run.length (offset + run.length)
      (buffer.cursorAt offset).run test max
      = ⟨run.length, run ++ next.toList, buffer.cursorAt (offset + run.length),
          next.bind (faultOn? test)⟩ := by
  have whole : Text.run (passes test) max (buffer.text.drop offset)
      = remainingRun (passes test) max 0 (buffer.text.drop offset) :=
    rfl
  have ran := runWithin_cursorAt buffer test max inside rfl whole
  rw [Nat.zero_add] at ran
  rw [Cursor.run, index_cursorAt buffer inside]
  exact ran

/-- What lies between two canonical cursors is that part of the text. -/
theorem upTo_cursorAt {count : Nat} (inside : offset + count ≤ buffer.size)
    : (buffer.cursorAt offset).upTo (buffer.cursorAt (offset + count)).offset
      = (buffer.text.drop offset).take count := by
  have stop : (buffer.cursorAt (offset + count)).offset.index = offset + count :=
    index_cursorAt buffer inside
  rw [upTo, stop, index_cursorAt buffer (by omega)]
  change buffer.slice _ _ = _
  rw [buffer.slice_eq, Nat.add_sub_cancel_left]

/-- What taking a run from a canonical position comes to: the fault of the test on the following unit,
if it fails there, and otherwise nothing if the run is too short, and the run if it is not. -/
theorem takeWhile_cursorAt (test : CodeUnit → Except Fault Bool) (min max : Nat)
    (inside : offset ≤ buffer.size)
    : let run := Text.run (passes test) max (buffer.text.drop offset)
      let next := buffer.following max run.length (offset + run.length)
      (∀ fault,
          next.bind (faultOn? test) = some fault
          → (buffer.cursorAt offset).takeWhile test min max
            = (.error fault, buffer.cursorAt (offset + run.length)))
      ∧ (next.bind (faultOn? test) = none
          → (buffer.cursorAt offset).takeWhile test min max
            = if run.length < min then
                (.ok none, buffer.cursorAt offset)
              else
                (.ok (some run), buffer.cursorAt (offset + run.length))) := by
  intro run next
  have ran : (buffer.cursorAt offset).run test max
      = ⟨run.length, run ++ next.toList, buffer.cursorAt (offset + run.length),
          next.bind (faultOn? test)⟩ :=
    run_cursorAt buffer test max inside
  have fits : run.length ≤ buffer.size - offset := by
    rw [← buffer.length_text, ← List.length_drop]
    exact length_run_le (passes test) max (buffer.text.drop offset)
  have prefixed : (buffer.text.drop offset).take run.length = run :=
    take_length_run (passes test) max (buffer.text.drop offset)
  rw [takeWhile, ran]
  refine ⟨fun fault failed => by rw [failed], fun faultless => ?_⟩
  rw [faultless]
  dsimp only
  by_cases short : run.length < min
  · have back : moveTo (buffer.cursorAt (offset + run.length)) (buffer.cursorAt offset).position
        = .ok (buffer.cursorAt offset) :=
      moveTo_positionAt buffer _ inside
    rw [if_pos (by omega), if_pos short, back]
  · rw [if_neg (by omega), if_neg short, upTo_cursorAt buffer (by omega), prefixed]

/-- Taking a run with a test that never fails takes the longest one that is admitted, if it is long
enough, and gives it back otherwise. -/
theorem takeWhile_cursorAt_of_total {test : CodeUnit → Except Fault Bool} {accept : CodeUnit → Bool}
    (total : ∀ unit, test unit = .ok (accept unit)) (inside : offset ≤ buffer.size) (min max : Nat)
    : (buffer.cursorAt offset).takeWhile test min max
      = let run := Text.run accept max (buffer.text.drop offset)
        if min ≤ run.length then
          (.ok (some run), buffer.cursorAt (offset + run.length))
        else
          (.ok none, buffer.cursorAt offset) := by
  have passing : passes test = accept := funext fun unit => by rw [passes, total]
  have faultless : faultOn? test = fun _ => none := funext fun unit => by rw [faultOn?, total]
  obtain ⟨_, taken⟩ := takeWhile_cursorAt buffer test min max inside
  rw [passing, faultless] at taken
  rw [taken (Option.bind_fun_none _)]
  dsimp only
  by_cases long : min ≤ (Text.run accept max (buffer.text.drop offset)).length
  · rw [if_neg (Nat.not_lt.mpr long), if_pos long]
  · rw [if_pos (Nat.not_le.mp long), if_neg long]

end Cursor

end StagedParser
