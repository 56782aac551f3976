import StagedParser.Proofs.Grammar.Denotation

/-! Parsing whole texts.
A text is accepted if the match that the grammar denotes at its start reaches its end. An ordered
choice commits to its first match: that a later alternative would have reached the end does not count.
-/

namespace StagedParser

variable {H : Host}

open Parsing

-----------------------------------------------------------------------------------------
-- Where matches end
-----------------------------------------------------------------------------------------

/-- A converted match stops where the match does. -/
theorem stop_of_convertMatch {sense : Sense H} {conversion : Conversion H}
    {found : Option (Nat × Value)} {stop : Nat} {value : Value}
    (converted : sense.convertMatch conversion found = some (stop, value))
    : ∃ inner, found = some (stop, inner) := by
  obtain ⟨⟨_, inner⟩, rfl, same⟩ := Option.map_eq_some_iff.mp converted
  obtain ⟨rfl, _⟩ := Prod.mk.inj same
  exact ⟨inner, rfl⟩

/-- The match of the first alternative that has one ends inside the text if each match does, by
induction on the alternatives. -/
theorem stop_le_of_denotesFirst {sense : Sense H} {text : Text} {start stop : Nat} {value : Value}
    (alternatives : List (Grammar H))
    (each
      : ∀ alternative ∈ alternatives, ∀ stop value,
          alternative.denotes sense text start = some (stop, value) → stop ≤ text.length)
    (found : denotesFirst sense text start alternatives = some (stop, value))
    : stop ≤ text.length := by
  induction alternatives with
  | nil => cases found
  | cons first rest ih =>
      rw [denotesFirst] at found
      rcases Option.or_eq_some_iff.mp found with matched | ⟨_, later⟩
      · exact each first List.mem_cons_self stop value matched
      · exact ih (fun alternative member => each alternative (List.mem_cons_of_mem _ member)) later

/-- A match ends inside the text, by induction on the grammar. -/
theorem Grammar.stop_le_of_denotes {sense : Sense H} {text : Text} {start : Nat}
    (inside : start ≤ text.length) (grammar : Grammar H) {stop : Nat} {value : Value}
    (found : grammar.denotes sense text start = some (stop, value))
    : stop ≤ text.length := by
  induction grammar generalizing stop value with
  | literal id literal ignoreCase =>
      rw [denotes] at found
      cases begins : Text.beginsWith (text.drop start) literal ignoreCase with
      | false => simp [begins] at found
      | true =>
          have length := Text.length_le_of_beginsWith begins
          rw [List.length_drop] at length
          rw [begins, if_pos rfl] at found
          obtain ⟨rfl, _⟩ := Prod.mk.inj (Option.some.inj found)
          omega
  | pattern id test min max =>
      have length := Cursor.length_run_le (sense.accept test) max (text.drop start)
      rw [List.length_drop] at length
      rw [denotes] at found
      split at found
      · obtain ⟨rfl, _⟩ := Prod.mk.inj (Option.some.inj found)
        omega
      · cases found
  | map id source transform ih =>
      rw [denotes] at found
      obtain ⟨inner, matched⟩ := stop_of_convertMatch found
      exact ih matched
  | oneOf id alternatives ih =>
      rw [denotes] at found
      exact stop_le_of_denotesFirst alternatives (fun _ member _ _ => ih _ member) found
  | either id left right ofLeft ofRight ihLeft ihRight =>
      rw [denotes] at found
      rcases Option.or_eq_some_iff.mp found with matched | ⟨_, matched⟩
      · obtain ⟨inner, matched⟩ := stop_of_convertMatch matched
        exact ihLeft matched
      · obtain ⟨inner, matched⟩ := stop_of_convertMatch matched
        exact ihRight matched
  | staged id source generated ih =>
      rw [denotes] at found
      exact ih found
  | foreign id name parser =>
      rw [denotes] at found
      cases found
  | scripted id name emission =>
      rw [denotes] at found
      cases found

-----------------------------------------------------------------------------------------
-- Commitment to the first match
-----------------------------------------------------------------------------------------

/-- What the first alternative that matches denotes, with its conversion. -/
def firstDenoted (sense : Sense H) (text : Text) (start : Nat)
    (choices : List (Grammar H × Conversion H))
    : Option (Nat × Value) :=
  choices.findSome? fun choice => sense.convertMatch choice.2 (choice.1.denotes sense text start)

/-- The identity changes no match. -/
theorem convertMatch_identity (sense : Sense H) (found : Option (Nat × Value))
    : sense.convertMatch .identity found = found := by
  cases found <;> rfl

/-- Alternatives without conversions are alternatives converted by the identity, by induction on the
alternatives. -/
theorem denotesFirst_eq_firstDenoted (sense : Sense H) (text : Text) (start : Nat)
    (alternatives : List (Grammar H))
    : denotesFirst sense text start alternatives
      = firstDenoted sense text start (alternatives.map (·, .identity)) := by
  induction alternatives with
  | nil => rfl
  | cons first rest ih =>
      rw [denotesFirst, ih, firstDenoted, firstDenoted, List.map_cons, List.findSome?_cons]
      simp only [convertMatch_identity]
      cases first.denotes sense text start <;> rfl

/-- Both forms of choice denote the first match among their alternatives. -/
theorem Grammar.denotes_choice (sense : Sense H) (text : Text) (start : Nat) {grammar : Grammar H}
    {choices : List (Grammar H × Conversion H)} (found : grammar.choices? = some choices)
    : grammar.denotes sense text start = firstDenoted sense text start choices := by
  cases grammar with
  | oneOf id alternatives =>
      obtain rfl := Option.some.inj found
      rw [denotes, denotesFirst_eq_firstDenoted]
  | either id left right ofLeft ofRight =>
      obtain rfl := Option.some.inj found
      rw [denotes, firstDenoted]
      simp only [List.findSome?_cons, List.findSome?_nil]
      cases sense.convertMatch ofLeft (left.denotes sense text start) <;>
        cases sense.convertMatch ofRight (right.denotes sense text start) <;> rfl
  | _ => cases found

/-- The alternatives behind the first match play no part. -/
theorem firstDenoted_of_match {sense : Sense H} {text : Text} {start stop : Nat} {value : Value}
    {before after : List (Grammar H × Conversion H)} {first : Grammar H} {conversion : Conversion H}
    (unmatched : ∀ choice ∈ before, choice.1.denotes sense text start = none)
    (matched : first.denotes sense text start = some (stop, value))
    : firstDenoted sense text start (before ++ (first, conversion) :: after)
      = some (stop, sense.converted conversion value) := by
  rw [firstDenoted, List.findSome?_append, List.findSome?_cons]
  have passed : before.findSome? (fun choice =>
      sense.convertMatch choice.2 (choice.1.denotes sense text start)) = none := by
    rw [List.findSome?_eq_none_iff]
    intro choice member
    rw [unmatched choice member]
    rfl
  rw [passed, matched]
  rfl

-----------------------------------------------------------------------------------------
-- Whole texts
-----------------------------------------------------------------------------------------

/-- How parsing a whole text ends, by the match at its start: with its value where it reaches the end,
else with a mismatch there, and with one at the very start where there is no match. -/
def Buffer.wholeResult (buffer : Buffer) (name : Text) : Option (Nat × Value) → Except Fault Value
  | none => .error (.mismatch buffer.text .start name)
  | some (stop, value) =>
    if stop = buffer.size then
      .ok value
    else
      .error (.mismatch buffer.text (buffer.positionAt stop) (Text.ofString "end of input"))

/-- Parsing a whole text goes by what the grammar denotes at its start. -/
theorem Grammar.parseAll_eq_wholeResult {sense : Sense H} (grammar : Grammar H)
    (contained : grammar.SelfContained) (fits : sense.Fits grammar) (buffer : Buffer)
    : grammar.parseAll buffer
      = buffer.wholeResult grammar.name (grammar.denotes sense buffer.text 0) := by
  have takesNotes : Hook.silent.TakesNotes := fun _ _ _ => ⟨rfl, rfl⟩
  have still : Hook.silent.Still := Hook.still_of_moves_eq_nil fun _ _ _ => rfl
  have reads : grammar.meaning Hook.silent (.start buffer ()) = _ :=
    grammar.meaning_readsAs takesNotes contained fits (Nat.zero_le buffer.size) none ()
  rw [parseAll, tryParse, ← contained.report_meaning still, report, run_position_bind,
    run_bind_ok reads]
  cases found : grammar.denotes sense buffer.text 0 with
  | none => rfl
  | some result =>
      obtain ⟨stop, value⟩ := result
      have inside := grammar.stop_le_of_denotes (Nat.zero_le _) found
      rw [buffer.length_text] at inside
      have limit := Nat.le_of_lt buffer.bounded
      have reached : Number.ofNat stop = Number.ofNat buffer.size ↔ stop = buffer.size :=
        Number.ofNat_inj (Nat.le_trans inside limit) limit
      change (if Number.ofNat stop = Number.ofNat buffer.size then _ else _) = _
      simp only [reached]
      rfl

/-- A whole text is accepted if the match stops at its end. -/
theorem Buffer.wholeResult_eq_ok {buffer : Buffer} {name : Text} {found : Option (Nat × Value)}
    {value : Value}
    : buffer.wholeResult name found = .ok value ↔ found = some (buffer.size, value) := by
  rcases found with _ | ⟨stop, inner⟩
  · simp [wholeResult]
  · by_cases reached : stop = buffer.size <;> simp [wholeResult, reached]

/-- A match that stops before the end is a mismatch there. -/
theorem Buffer.wholeResult_of_stop_ne {buffer : Buffer} {stop : Nat} (short : stop ≠ buffer.size)
    (name : Text) (value : Value)
    : buffer.wholeResult name (some (stop, value))
      = .error (.mismatch buffer.text (buffer.positionAt stop) (Text.ofString "end of input")) := by
  rw [wholeResult, if_neg short]

/-- A whole text is accepted, with the value of the match, exactly if the match that the grammar
denotes at its start ends where the text does. Without a match the mismatch is at the first position
and names the parser. A match that stops short is a mismatch at the canonical position of its end,
also where an alternative behind the first one that matched would have reached the end of the text.
Staging changes the name in the mismatch and nothing else. -/
theorem Grammar.parseAll_eq_ok_iff_denotes {sense : Sense H} (grammar : Grammar H)
    (contained : grammar.SelfContained) (fits : sense.Fits grammar) (buffer : Buffer)
    : (∀ value,
        grammar.parseAll buffer = .ok value
        ↔ grammar.denotes sense buffer.text 0 = some (buffer.size, value))
      ∧ (grammar.denotes sense buffer.text 0 = none
        → grammar.parseAll buffer = .error (.mismatch buffer.text ⟨0, 1, 1⟩ grammar.name))
      ∧ (∀ stop value,
          grammar.denotes sense buffer.text 0 = some (stop, value)
          → stop ≠ buffer.size
          → stop < buffer.size
            ∧ grammar.parseAll buffer
              = .error
                  (.mismatch buffer.text (buffer.positionAt stop) (Text.ofString "end of input")))
      ∧ (∀ before first conversion after stop value,
          grammar.choices? = some (before ++ (first, conversion) :: after)
          → (∀ choice ∈ before, choice.1.denotes sense buffer.text 0 = none)
          → first.denotes sense buffer.text 0 = some (stop, value)
          → stop ≠ buffer.size
          → grammar.parseAll buffer
            = .error
                (.mismatch buffer.text (buffer.positionAt stop) (Text.ofString "end of input")))
      ∧ ∀ id generated,
          (Grammar.staged id grammar generated).parseAll buffer
          = if grammar.denotes sense buffer.text 0 = none then
              .error
                (.mismatch buffer.text ⟨0, 1, 1⟩
                  (Text.ofString "Compiled(" ++ grammar.name ++ Text.ofString ")"))
            else
              grammar.parseAll buffer := by
  have whole := grammar.parseAll_eq_wholeResult contained fits buffer
  refine ⟨fun value => ?_, fun unmatched => ?_, fun stop value found short => ?_, ?_,
    fun id generated => ?_⟩
  · rw [whole]
    exact Buffer.wholeResult_eq_ok
  · rw [whole, unmatched]
    rfl
  · have inside := grammar.stop_le_of_denotes (Nat.zero_le _) found
    rw [buffer.length_text] at inside
    refine ⟨by omega, ?_⟩
    rw [whole, found, Buffer.wholeResult_of_stop_ne short]
  · intro before first conversion after stop value choices unmatched matched short
    rw [whole, grammar.denotes_choice sense buffer.text 0 choices,
      firstDenoted_of_match unmatched matched, Buffer.wholeResult_of_stop_ne short]
  · rw [parseAll_eq_wholeResult _ (contained.staged id generated) (fits.staged id generated), whole,
      denotes]
    cases grammar.denotes sense buffer.text 0 with
    | none => rfl
    | some found => rfl

/-- The second text of a choice is the whole one, but the first match counts. -/
theorem Grammar.parseAll_eq_ok_iff_denotes_twoTexts
    : let buffer := Buffer.ofText (Text.ofString "ab") (by decide)
      let grammar := Stock.twoTexts (Text.ofString "a") (Text.ofString "ab")
      grammar.SelfContained
      ∧ (Sense.ofHost Stock.host).Fits grammar
      ∧ (Grammar.literal 2 (Text.ofString "ab") false).denotes (Sense.ofHost Stock.host) buffer.text 0
        = some (buffer.size, .text (Text.ofString "ab"))
      ∧ grammar.parseAll buffer
        = .error (.mismatch (Text.ofString "ab") ⟨1, 1, 2⟩ (Text.ofString "end of input"))
      ∧ (Grammar.staged 3 grammar true).parseAll buffer
        = .error (.mismatch (Text.ofString "ab") ⟨1, 1, 2⟩ (Text.ofString "end of input")) := by
  intro buffer grammar
  have contained := Stock.twoTexts_selfContained (Text.ofString "a") (Text.ofString "ab")
  have fits := Stock.fits_twoTexts (Text.ofString "a") (Text.ofString "ab")
  obtain ⟨_, _, _, short, staged⟩ := parseAll_eq_ok_iff_denotes _ contained fits buffer
  have ends := short [] (.literal 1 (Text.ofString "a") false) .identity
    [(.literal 2 (Text.ofString "ab") false, .identity)] 1 (.text (Text.ofString "a")) rfl (by simp)
    rfl (by decide)
  exact ⟨contained, fits, rfl, ends, (staged 3 true).trans ends⟩

end StagedParser
