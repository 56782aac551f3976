import StagedParser.Proofs.Cursor.Travelled

/-! The longest runs of units that pass a test.
A run ends where the text ends, where it has reached its greatest length, or at a unit that does not
pass, and only in the last case a unit was put to the test without being taken. A test that fails on a
unit stops the run there, and its fault comes before any question of length.
-/

namespace StagedParser

namespace Text

/-- The longest run of accepted units at the start of a text, at most `max` of them unless `max` is
zero, told by comparing it with all others. -/
structure IsLongestRun (accept : CodeUnit → Prop) (max : Nat) (text run : Text) : Prop where
  ahead : run <+: text
  accepted : ∀ unit ∈ run, accept unit
  bounded : max = 0 ∨ run.length ≤ max
  longest
    : ∀ other : Text,
        other <+: text
        → (∀ unit ∈ other, accept unit)
        → max = 0 ∨ other.length ≤ max
        → other.length ≤ run.length

/-- A beginning that passes is part of the longest one that does. -/
theorem prefix_takeWhile {accept : CodeUnit → Bool} {text run : Text} (ahead : run <+: text)
    (accepted : ∀ unit ∈ run, accept unit = true)
    : run <+: text.takeWhile accept := by
  obtain ⟨more, rfl⟩ := ahead
  rw [List.takeWhile_append_of_pos accepted]
  exact List.prefix_append run _

/-- The run of a text is the longest one. -/
theorem isLongestRun_run (accept : CodeUnit → Bool) (max : Nat) (text : Text)
    : IsLongestRun (accept · = true) max text (text.run accept max) where
  ahead := Cursor.take_length_run accept max text ▸ List.take_prefix _ _
  accepted := by
    have passed := List.all_eq_true.mp (List.all_takeWhile (p := accept) (l := text))
    intro unit member
    rw [run] at member
    split at member
    · exact passed unit member
    · exact passed unit (List.mem_of_mem_take member)
  bounded := by
    rw [run]
    split
    · next unlimited => exact .inl unlimited
    · exact .inr (List.length_take_le _ _)
  longest := by
    intro other ahead accepted bounded
    have within := (prefix_takeWhile ahead accepted).length_le
    rw [run]
    split
    · exact within
    · next limited =>
        rw [List.length_take]
        exact Nat.le_min.mpr ⟨bounded.resolve_left limited, within⟩

end Text

namespace Cursor

variable {test other : CodeUnit → Except Fault Bool}

/-- Only the units that a test was asked about count, by induction on the units that are left. -/
theorem runWithin_congr {max : Int} {fuel : Nat} {c : Cursor} {taken : Nat}
    (same : ∀ unit ∈ (runWithin test max fuel c taken).asked, other unit = test unit)
    : runWithin other max fuel c taken = runWithin test max fuel c taken := by
  induction fuel generalizing c taken with
  | zero => rfl
  | succ fuel ih =>
      rw [runWithin] at same
      rw [runWithin, runWithin]
      cases stands : c.unit? with
      | none => rfl
      | some unit =>
          rw [stands] at same
          dsimp only at same ⊢
          by_cases allowed : max = 0 ∨ (taken : Int) < max
          · rw [if_pos allowed] at same ⊢
            rw [if_pos allowed]
            cases asked : test unit with
            | error fault =>
                rw [asked] at same
                rw [same unit (by simp), asked]
            | ok accepted =>
                rw [asked] at same
                cases accepted with
                | false => rw [same unit (by simp), asked]
                | true =>
                    have further := fun later member => same later (List.mem_cons_of_mem unit member)
                    rw [same unit (by simp), asked, ih further]
          · rw [if_neg allowed, if_neg allowed]

/-- Tests that agree on the units asked take the same run. -/
theorem takeWhile_congr {c : Cursor} {max : Int}
    (same : ∀ unit ∈ (c.run test max).asked, other unit = test unit) (min : Int)
    : c.takeWhile other min max = c.takeWhile test min max := by
  have ran : c.run other max = c.run test max := runWithin_congr same
  rw [takeWhile, takeWhile, ran]

namespace Desk

/-- Wherever a cursor travelled in its buffer, taking a run of units that pass a test comes to the
longest run ahead of it. The test is asked about the units of the run, in order and once each, and then
about the following unit, if there is one and the run may go on; it might answer anything about other
units. If it never fails, a run of fewer than `min` units is given back and the cursor is as it was, and
any other is returned and passed. If it fails, the cursor stands at the unit on which it failed. -/
theorem takeWhile_takes_longest_run {buffer : Buffer} {desk : Desk} (travelled : desk.Travelled buffer)
    (test : CodeUnit → Except Fault Bool) (min max : Nat)
    : let c := desk.cursor
      let asked := (c.run test max).asked
      ∃ offset run,
        c.StandsAt buffer offset
        ∧ Text.IsLongestRun (test · = .ok true) max (buffer.text.drop offset) run
        ∧ asked = run ++ (buffer.following max run.length (offset + run.length)).toList
        ∧ (∀ other,
            (∀ unit ∈ asked, other unit = test unit)
            → c.takeWhile other min max = c.takeWhile test min max)
        ∧ ((∀ unit ∈ asked, ∃ accepted, test unit = .ok accepted)
            → (c.takeWhile test min max = (.ok none, c) ↔ run.length < min)
              ∧ (min ≤ run.length
                  → ∃ after,
                      c.takeWhile test min max = (.ok (some run), after)
                      ∧ after.StandsAt buffer (offset + run.length)))
        ∧ ∀ unit ∈ asked, ∀ fault,
            test unit = .error fault
            → ∃ after,
                c.takeWhile test min max = (.error fault, after)
                ∧ after.StandsAt buffer (offset + run.length)
                ∧ after.current = [unit] := by
  obtain ⟨offset, inside, stands⟩ := travelled.isCanonical.cursor
  rw [stands]
  intro c asked
  let run := Text.run (passes test) max (buffer.text.drop offset)
  let next := buffer.following max run.length (offset + run.length)
  have longest : Text.IsLongestRun (test · = .ok true) max (buffer.text.drop offset) run := by
    simpa only [passes_eq_true] using Text.isLongestRun_run (passes test) max (buffer.text.drop offset)
  have asks : asked = run ++ next.toList := congrArg Run.asked (run_cursorAt buffer test max inside)
  obtain ⟨stopped, taken⟩ := takeWhile_cursorAt buffer test min max inside
  have fits : offset + run.length ≤ buffer.size := by
    have length : run.length ≤ _ := length_run_le (passes test) max (buffer.text.drop offset)
    rw [List.length_drop, buffer.length_text] at length
    omega
  have arrived := standsAt_cursorAt fits
  refine ⟨offset, run, standsAt_cursorAt inside, longest, asks, ?_, ?_, ?_⟩
  · intro other same
    exact takeWhile_congr same min
  · intro answered
    -- The only unit on which the test might fail is the following one.
    have faultless : next.bind (faultOn? test) = none := by
      rw [Option.bind_eq_none_iff]
      intro unit follows
      obtain ⟨accepted, answer⟩ := answered unit (by simp [asks, follows])
      rw [faultOn?, answer]
    have took : c.takeWhile test min max = _ := taken faultless
    by_cases short : run.length < min
    · rw [if_pos short] at took
      exact ⟨iff_of_true took short, fun long => absurd short (Nat.not_lt.mpr long)⟩
    · rw [if_neg short] at took
      exact ⟨iff_of_false (by simp [took]) short, fun _ => ⟨_, took, arrived⟩⟩
  · intro unit member fault fails
    have follows : next = some unit := by
      rw [asks, List.mem_append, Option.mem_toList] at member
      refine member.resolve_left fun within => ?_
      have passed := longest.accepted unit within
      rw [fails] at passed
      cases passed
    have failed : next.bind (faultOn? test) = some fault := by
      rw [follows, Option.bind_some, faultOn?, fails]
    refine ⟨_, stopped fault failed, arrived, ?_⟩
    have there : buffer.text[offset + run.length]? = some unit :=
      Buffer.getElem?_of_following follows
    rw [arrived.current, there, Option.toList_some]

/-- A cursor that passed a letter and takes a run over a line feed, with a test that fails on the digit
after it. With no greatest length the run stops at the digit with the fault, in the second line; with at
most three units nobody asks about the digit, and the run is given back where four are wanted. -/
theorem takeWhile_takes_longest_run_sample
    : let buffer := Buffer.ofText (Text.ofString "a\nbc1") (by decide)
      let test unit := Stock.TestForm.accepts unit (.failOn (Text.ofString "1"))
      let desk := ((Step.advance 1).run ⟨.start buffer, []⟩).2
      desk.Travelled buffer
      ∧ (desk.cursor.run test 0).asked = Text.ofString "\nbc1"
      ∧ (desk.cursor.run test 3).asked = Text.ofString "\nbc"
      ∧ (∃ fault after,
          desk.cursor.takeWhile test 0 0 = (.error fault, after) ∧ after.current = Text.ofString "1")
      ∧ desk.cursor.takeWhile test 4 3 = (.ok none, desk.cursor) := by
  intro buffer test desk
  have travelled : desk.Travelled buffer := .step (.advance 1) (by simp) .start
  have endless : (desk.cursor.run test 0).asked = Text.ofString "\nbc1" := by decide
  have limited : (desk.cursor.run test 3).asked = Text.ofString "\nbc" := by decide
  obtain ⟨_, _, _, _, _, _, _, failed⟩ := takeWhile_takes_longest_run travelled test 0 0
  obtain ⟨_, _, _, longest, _, _, answered, _⟩ := takeWhile_takes_longest_run travelled test 4 3
  have digit : 49 ∈ (desk.cursor.run test 0).asked := by
    rw [endless]
    decide
  obtain ⟨after, stopped, _, current⟩ := failed 49 digit _ rfl
  have passed : (Text.ofString "\nbc").all (passes test) = true := by decide
  have total : ∀ unit ∈ (desk.cursor.run test 3).asked, ∃ accepted, test unit = .ok accepted := by
    rw [limited]
    exact fun unit member => ⟨true, passes_eq_true.mp (List.all_eq_true.mp passed unit member)⟩
  have short := longest.bounded.resolve_left (by decide)
  exact ⟨travelled, endless, limited, ⟨_, after, stopped, current⟩,
    (answered total).1.mpr (Nat.lt_succ_of_le short)⟩

end Desk

end Cursor

end StagedParser
