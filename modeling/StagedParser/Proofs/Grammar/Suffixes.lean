import StagedParser.Proofs.Cursor.Suffixes
import StagedParser.Proofs.Parsing.Orderly
import StagedParser.Proofs.Parsing.Related

/-! Parsing depends on nothing but what is left of the text.
A self-contained grammar parses at an offset of a text as it parses what is left of the text from
there on: it announces the same parsers, ends with the same verdict, value or fault, and stops before
the same unit. What it reports are the same positions, shifted.
-/

namespace StagedParser

variable {H : Host} {σ α : Type} {buffer : Buffer} {start : Nat}

/-- A scene in a text, and one in what is left of it from an offset on, before the same unit and with
the same notes. Their records may differ. -/
structure Scene.Alongside (buffer : Buffer) (start : Nat) (scene other : Scene σ) : Prop where
  cursor : Cursor.Alongside buffer start scene.cursor other.cursor
  notes : scene.notes = other.notes

-----------------------------------------------------------------------------------------
-- Meanings
-----------------------------------------------------------------------------------------

namespace Parsing

/-- Recording an entry keeps scenes alongside. -/
theorem alongside_recorded (entry : Entry)
    : Related (Scene.Alongside buffer start) (enter Hook.recorder entry)
        (enter Hook.recorder entry) := by
  intro scene other alongside
  exact .ok () ⟨alongside.cursor, congrArg (· ++ [entry]) alongside.notes⟩

/-- So does taking a text. -/
theorem alongside_takeText (text : Text) (ignoreCase : Bool)
    : Related (Scene.Alongside buffer start) (takeText text ignoreCase : Parsing σ (Option Text))
        (takeText text ignoreCase) := by
  intro scene other alongside
  obtain ⟨same, stops⟩ := alongside.cursor.takeText text ignoreCase
  simp only [takeText, same]
  exact .ok _ ⟨stops, alongside.notes⟩

/-- So does taking a run. -/
theorem alongside_takeWhile (test : CodeUnit → Except Fault Bool) (min max : Int)
    : Related (Scene.Alongside buffer start) (takeWhile test min max : Parsing σ (Option Text))
        (takeWhile test min max) := by
  intro scene other alongside
  obtain ⟨same, stops⟩ := alongside.cursor.takeWhile test min max
  simp only [takeWhile]
  generalize scene.cursor.takeWhile test min max = result at same stops
  generalize other.cursor.takeWhile test min max = otherResult at same stops
  obtain ⟨taken, cursor⟩ := result
  obtain ⟨otherTaken, otherCursor⟩ := otherResult
  obtain rfl : taken = otherTaken := same
  cases taken with
  | ok taken => exact .ok taken ⟨stops, alongside.notes⟩
  | error fault => exact .error fault ⟨stops, alongside.notes⟩

/-- Work that notes where it starts goes alike if it does so from any two cursors before the same
unit. -/
theorem alongside_position {next : Position → Parsing σ α}
    (each
      : ∀ c other,
          Cursor.Alongside buffer start c other
          → Related (Scene.Alongside buffer start) (next c.position) (next other.position))
    : Related (Scene.Alongside buffer start) (position >>= next) (position >>= next) := by
  intro scene other alongside
  rw [run_position_bind, run_position_bind]
  exact each scene.cursor other.cursor alongside.cursor scene other alongside

variable {c other : Cursor} (stands : Cursor.Alongside buffer start c other)

/-- So does converting what such work yields. -/
theorem alongside_converted (conversion : Conversion H) {work otherWork : Parsing σ (Option Value)}
    (related : Related (Scene.Alongside buffer start) work otherWork)
    : Related (Scene.Alongside buffer start) (converted conversion work)
        (converted conversion otherWork) := by
  refine related.bind fun value => ?_
  cases value with
  | none => exact related_pure none
  | some value => exact (related_ofResult _).bind fun _ => related_pure _

include stands

/-- Both sides of a choice can go back to where they started. -/
theorem alongside_returnTo
    : Related (Scene.Alongside buffer start) (returnTo c.position : Parsing σ Unit)
        (returnTo other.position) := by
  intro scene companion alongside
  obtain ⟨back, otherBack⟩ := alongside.cursor.moveTo stands
  simp only [returnTo, move, Cursor.apply, back, otherBack]
  exact .ok () ⟨stands, alongside.notes⟩

/-- So does trying two such pieces of work. -/
theorem alongside_orReturn {first otherFirst second otherSecond : Parsing σ (Option Value)}
    (left : Related (Scene.Alongside buffer start) first otherFirst)
    (right : Related (Scene.Alongside buffer start) second otherSecond)
    : Related (Scene.Alongside buffer start) (orReturn c.position first second)
        (orReturn other.position otherFirst otherSecond) := by
  refine left.bind fun value => ?_
  cases value with
  | some value => exact related_pure (some value)
  | none => exact (alongside_returnTo stands).bind fun _ => right

/-- The alternatives of a choice go alike if each of them does, by induction on the alternatives. -/
theorem alongside_firstMatch {hook : Hook σ} (choices : List (Grammar H × Conversion H))
    (each
      : ∀ choice ∈ choices,
          Related (Scene.Alongside buffer start) (choice.1.meaning hook) (choice.1.meaning hook))
    : Related (Scene.Alongside buffer start) (firstMatch hook c.position choices)
        (firstMatch hook other.position choices) := by
  induction choices with
  | nil =>
      rw [firstMatch, firstMatch]
      exact related_pure none
  | cons first rest ih =>
      rw [firstMatch, firstMatch]
      have tried := alongside_converted first.2 (each first List.mem_cons_self)
      refine alongside_orReturn stands tried ?_
      exact ih fun choice member => each choice (List.mem_cons_of_mem _ member)

end Parsing

open Parsing

/-- What a choice means keeps scenes alongside if what its alternatives mean does. -/
theorem Grammar.alongside_meaning_choice {grammar : Grammar H}
    {choices : List (Grammar H × Conversion H)} (found : grammar.choices? = some choices)
    (each
      : ∀ choice ∈ choices,
          Related (Scene.Alongside buffer start) (choice.1.meaning Hook.recorder)
            (choice.1.meaning Hook.recorder))
    : Related (Scene.Alongside buffer start) (grammar.meaning Hook.recorder)
        (grammar.meaning Hook.recorder) := by
  rw [meaning_choice Hook.recorder found]
  exact (alongside_recorded _).bind fun _ =>
    alongside_position fun _ _ stands => alongside_firstMatch stands choices each

/-- A grammar means the same in a text and in what is left of it, by induction on the grammar. -/
theorem Grammar.alongside_meaning (grammar : Grammar H) (contained : grammar.SelfContained)
    : Related (Scene.Alongside buffer start) (grammar.meaning Hook.recorder)
        (grammar.meaning Hook.recorder) := by
  induction grammar with
  | literal id text ignoreCase =>
      rw [meaning]
      exact (alongside_recorded _).bind fun _ =>
        (alongside_takeText text ignoreCase).bind fun _ => related_pure _
  | pattern id test min max =>
      rw [meaning]
      exact (alongside_recorded _).bind fun _ =>
        (alongside_takeWhile _ _ _).bind fun _ => related_pure _
  | map id source transform ih =>
      rw [meaning]
      exact (alongside_recorded _).bind fun _ =>
        alongside_converted transform (ih (contained.child mem_children_map))
  | oneOf id alternatives ih =>
      refine alongside_meaning_choice rfl fun choice member => ?_
      obtain ⟨alternative, inside, rfl⟩ := List.mem_map.mp member
      exact ih alternative inside (contained.child inside)
  | either id left right ofLeft ofRight ihLeft ihRight =>
      refine alongside_meaning_choice rfl fun choice member => ?_
      simp only [List.mem_cons, List.not_mem_nil, or_false] at member
      rcases member with rfl | rfl
      · exact ihLeft (contained.child left_mem_children_either)
      · exact ihRight (contained.child right_mem_children_either)
  | staged id source generated ih =>
      rw [meaning]
      exact ih (contained.child mem_children_staged)
  | foreign id name parser =>
      exact absurd rfl ((contained _ (self_mem_nodes _)).1 id name parser)
  | scripted id name emission =>
      exact absurd rfl ((contained _ (self_mem_nodes _)).2 id name emission)

-----------------------------------------------------------------------------------------
-- Reports
-----------------------------------------------------------------------------------------

/-- How parsing ends at an offset of a text, on a record, and how it ends on what is left of the text,
on another record: with the same verdict or fault and the same notes, and before the same unit. A
match has the same value, and its positions in the text are those in what is left, shifted; without
one each record is as it was. -/
inductive Ending.Shifted (buffer : Buffer) (start : Nat) (record other : MatchRecord)
    : Ending σ Bool → Ending σ Bool → Prop
  | matched (consumed : Nat) (found : Match) (notes : σ) (inside : start + consumed ≤ buffer.size)
    : Shifted buffer start record other
        (.ok true
          ⟨buffer.cursorAt (start + consumed),
            some ⟨buffer.shifted start found.start, buffer.shifted start found.stop, found.value⟩,
            notes⟩)
        (.ok true ⟨(buffer.suffix start).cursorAt consumed, some found, notes⟩)
  | failed (consumed : Nat) (notes : σ) (inside : start + consumed ≤ buffer.size)
    : Shifted buffer start record other
        (.ok false ⟨buffer.cursorAt (start + consumed), record, notes⟩)
        (.ok false ⟨(buffer.suffix start).cursorAt consumed, other, notes⟩)
  | faulted (fault : Fault) (consumed : Nat) (notes : σ) (inside : start + consumed ≤ buffer.size)
    : Shifted buffer start record other
        (.error fault ⟨buffer.cursorAt (start + consumed), record, notes⟩)
        (.error fault ⟨(buffer.suffix start).cursorAt consumed, other, notes⟩)

/-- The report of work that goes alike is the same but for the shift. -/
theorem Parsing.shifted_report {work : Parsing σ (Option Value)} (free : RecordFree work)
    (related : Related (Scene.Alongside buffer start) work work) (inside : start ≤ buffer.size)
    (record other : MatchRecord) (notes : σ)
    : Ending.Shifted buffer start record other
        (report work ⟨(Cursor.start buffer).advance (Number.ofNat start), record, notes⟩)
        (report work ⟨.start (buffer.suffix start), other, notes⟩) := by
  have ended := related ⟨(Cursor.start buffer).advance (Number.ofNat start), record, notes⟩
    ⟨.start (buffer.suffix start), other, notes⟩ ⟨Cursor.alongside_start inside, rfl⟩
  rw [Cursor.advance_start inside] at ended ⊢
  rw [report, run_position_bind, run_position_bind]
  generalize left : work ⟨buffer.cursorAt start, record, notes⟩ = ending at ended
  generalize right : work ⟨.start (buffer.suffix start), other, notes⟩ = otherEnding at ended
  cases ended with
  | @error fault after otherAfter later =>
      obtain ⟨cursor, own, notes⟩ := after
      obtain ⟨otherCursor, otherOwn, otherNotes⟩ := otherAfter
      obtain ⟨⟨consumed, within, rfl, rfl⟩, rfl⟩ := later
      obtain rfl : own = record := free.record_eq_of_fault left
      obtain rfl : otherOwn = other := free.record_eq_of_fault right
      rw [run_bind_error left, run_bind_error right]
      exact .faulted fault consumed notes within
  | @ok value after otherAfter later =>
      obtain ⟨cursor, own, notes⟩ := after
      obtain ⟨otherCursor, otherOwn, otherNotes⟩ := otherAfter
      obtain ⟨⟨consumed, within, rfl, rfl⟩, rfl⟩ := later
      obtain rfl : own = record := free.record_eq left
      obtain rfl : otherOwn = other := free.record_eq right
      rw [run_bind_ok left, run_bind_ok right]
      cases value with
      | none => exact .failed consumed notes within
      | some value =>
          -- The report takes its positions from the cursors, which stand at canonical ones.
          have shiftedStart : buffer.positionAt (start + 0) = _ := buffer.positionAt_add inside
          have shiftedStop := buffer.positionAt_add within
          change Ending.Shifted buffer start own otherOwn
            (.ok true
              ⟨_, some ⟨buffer.positionAt (start + 0), buffer.positionAt (start + consumed), value⟩,
                _⟩)
            (.ok true
              ⟨_, some ⟨(buffer.suffix start).positionAt 0, (buffer.suffix start).positionAt consumed,
                value⟩, _⟩)
          rw [shiftedStart, shiftedStop]
          exact .matched consumed
            ⟨(buffer.suffix start).positionAt 0, (buffer.suffix start).positionAt consumed, value⟩
            notes within

/-- Parsing depends on nothing but what is left of the text: whether a self-contained grammar is
interpreted or staged, it parses at an offset of a text as it parses what is left of the text from
there on. It ends with the same verdict or fault, after the same announcements and before the same
unit; a match has the same value, and its positions are the same, shifted. -/
theorem Grammar.parse_shifted_of_suffix (grammar : Grammar H) (contained : grammar.SelfContained)
    (buffer : Buffer) {start : Nat} (inside : start ≤ buffer.size) (id : Nat)
    : ∀ parser ∈ [grammar, .staged id grammar true], ∀ record other entries,
        Ending.Shifted buffer start record other
          (parser.parse Hook.recorder
            ⟨(Cursor.start buffer).advance (Number.ofNat start), record, entries⟩)
          (parser.parse Hook.recorder ⟨.start (buffer.suffix start), other, entries⟩) := by
  intro parser member record other entries
  have selfContained : parser.SelfContained := by
    simp only [List.mem_cons, List.not_mem_nil, or_false] at member
    rcases member with rfl | rfl
    · exact contained
    · exact contained.staged id true
  have still : Hook.recorder.Still := Hook.still_of_moves_eq_nil fun _ _ _ => rfl
  rw [← selfContained.report_meaning still]
  exact shifted_report (parser.recordFree_meaning Hook.recorder)
    (parser.alongside_meaning selfContained) inside record other entries

/-- A match that starts in the middle of the second line and ends in the third one. In what is left of
the text it starts in the first line, where columns are shifted, and ends in the second, where they
are not. -/
theorem Grammar.parse_shifted_of_suffix_twoTexts
    : let buffer := Buffer.ofText (Text.ofString "a\nab\ncd") (by decide)
      let grammar := Stock.twoTexts (Text.ofString "x") (Text.ofString "b\nc")
      let start : Scene (List Entry) := ⟨(Cursor.start buffer).advance 3, none, []⟩
      let restart : Scene (List Entry) := ⟨.start (buffer.suffix 3), none, []⟩
      let positions (ending : Ending (List Entry) Bool) :=
        (Ending.scene ending).record.map fun found => (found.start, found.stop)
      grammar.SelfContained
      ∧ 3 ≤ buffer.size
      ∧ Ending.Shifted buffer 3 none none ((Grammar.staged 3 grammar true).parse Hook.recorder start)
          ((Grammar.staged 3 grammar true).parse Hook.recorder restart)
      ∧ Ending.Shifted buffer 3 none none (grammar.parse Hook.recorder start)
          (grammar.parse Hook.recorder restart)
      ∧ positions (grammar.parse Hook.recorder start) = some (⟨3, 2, 2⟩, ⟨6, 3, 2⟩)
      ∧ positions (grammar.parse Hook.recorder restart) = some (⟨0, 1, 1⟩, ⟨3, 2, 2⟩) := by
  intro buffer grammar start restart positions
  have contained : grammar.SelfContained := Stock.twoTexts_selfContained _ _
  have inside : 3 ≤ buffer.size := by decide
  have shifted := grammar.parse_shifted_of_suffix contained buffer inside 3
  exact ⟨contained, inside, shifted _ (by simp) none none [], shifted _ (by simp) none none [],
    by decide +kernel, by decide +kernel⟩

end StagedParser
