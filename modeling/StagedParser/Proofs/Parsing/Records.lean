import StagedParser.Grammar.Parse

/-! What parsing does to the record at hand.
Three grades of care are told apart: work that has nothing to do with the record, parsers whose
conduct does not depend on it, and parsers that keep the contract. A parser that keeps the contract
is as good as the report of the value that it yields.
-/

namespace StagedParser

variable {σ α β : Type} {H : Host}

/-- How a piece of parsing ended, with the scene it left. -/
abbrev Ending (σ α : Type) := EStateM.Result Fault (Scene σ) α

/-- An ending with the record replaced. -/
def Ending.withRecord (record : MatchRecord) : Ending σ α → Ending σ α
  | .ok value after => .ok value { after with record }
  | .error fault after => .error fault { after with record }

section Sequences

variable {ε τ : Type}

/-- What follows a piece of work that returned goes on in the state it left. -/
theorem run_bind_ok {work : EStateM ε τ α} {next : α → EStateM ε τ β} {state after : τ} {value : α}
    (ended : work state = .ok value after)
    : (work >>= next) state = next value after := by
  change EStateM.bind work next state = next value after
  simp only [EStateM.bind, ended]

/-- What follows a piece of work that stopped with a fault is not run. -/
theorem run_bind_error {work : EStateM ε τ α} {next : α → EStateM ε τ β} {state after : τ}
    {fault : ε} (ended : work state = .error fault after)
    : (work >>= next) state = .error fault after := by
  change EStateM.bind work next state = .error fault after
  simp only [EStateM.bind, ended]

/-- Two pieces of work return only if each of them does. -/
theorem of_run_bind {work : EStateM ε τ α} {next : α → EStateM ε τ β} {state later : τ} {result : β}
    (ended : (work >>= next) state = .ok result later)
    : ∃ value between, work state = .ok value between ∧ next value between = .ok result later := by
  cases first : work state with
  | error fault between =>
      rw [run_bind_error first] at ended
      cases ended
  | ok value between =>
      rw [run_bind_ok first] at ended
      exact ⟨value, between, rfl, ended⟩

end Sequences

namespace Parsing

/-- Asking for the position changes nothing. -/
theorem run_position_bind (next : Position → Parsing σ α) (scene : Scene σ)
    : (position >>= next) scene = next scene.cursor.position scene :=
  rfl

-----------------------------------------------------------------------------------------
-- Work that has nothing to do with the record
-----------------------------------------------------------------------------------------

/-- Work that neither looks at the record at hand nor changes it. -/
def RecordFree (work : Parsing σ α) : Prop :=
  ∀ scene record, work { scene with record } = Ending.withRecord record (work scene)

/-- Record-free work that returns leaves the record as it is, by replacing it with itself. -/
theorem RecordFree.record_eq {work : Parsing σ α} (free : RecordFree work) {scene after : Scene σ}
    {value : α} (ended : work scene = .ok value after)
    : after.record = scene.record := by
  have same := free scene scene.record
  change work scene = _ at same
  rw [ended] at same
  injection same with _ same
  rw [same]

/-- Record-free work that stops leaves the record as it is, by replacing it with itself. -/
theorem RecordFree.record_eq_of_fault {work : Parsing σ α} (free : RecordFree work)
    {scene after : Scene σ} {fault : Fault} (ended : work scene = .error fault after)
    : after.record = scene.record := by
  have same := free scene scene.record
  change work scene = _ at same
  rw [ended] at same
  injection same with _ same
  rw [same]

/-- Giving back a value is free of the record. -/
theorem recordFree_pure (value : α) : RecordFree (pure value : Parsing σ α) :=
  fun _ _ => rfl

/-- So is giving back a result. -/
theorem recordFree_ofResult (result : Except Fault α)
    : RecordFree (ofResult result : Parsing σ α) := by
  intro scene record
  cases result <;> rfl

/-- Record-free pieces make record-free work, by the way the first of them ends. -/
theorem RecordFree.bind {work : Parsing σ α} {next : α → Parsing σ β} (free : RecordFree work)
    (each : ∀ value, RecordFree (next value))
    : RecordFree (work >>= next) := by
  intro scene record
  have replaced := free scene record
  cases ended : work scene with
  | ok value after =>
      rw [ended] at replaced
      rw [run_bind_ok ended, run_bind_ok replaced]
      exact each value after record
  | error fault after =>
      rw [ended] at replaced
      rw [run_bind_error ended, run_bind_error replaced]
      rfl

/-- So is asking for the position. -/
theorem recordFree_position : RecordFree (position : Parsing σ Position) :=
  fun _ _ => rfl

/-- So is moving. -/
theorem recordFree_move (step : Move) : RecordFree (move step : Parsing σ Unit) := by
  intro scene record
  simp only [move]
  cases scene.cursor.apply step <;> rfl

/-- Moving the cursor step by step is record-free, by induction on the steps. -/
theorem recordFree_moveAll (steps : List Move)
    : RecordFree (moveAll steps : Parsing σ Unit) := by
  induction steps with
  | nil => exact recordFree_pure ()
  | cons step rest ih => exact (recordFree_move step).bind fun _ => ih

/-- Announcing a parser is record-free: the hook sees the cursor and its own notes only. -/
theorem recordFree_enter (hook : Hook σ) (entry : Entry)
    : RecordFree (enter hook entry) := by
  intro scene record
  let reaction := hook.react entry scene.cursor scene.notes
  have moved := recordFree_moveAll reaction.moves { scene with notes := reaction.notes } record
  simp only [enter]
  rw [moved]
  cases moveAll reaction.moves { scene with notes := reaction.notes } with
  | error fault after => rfl
  | ok _ after => cases reaction.fault <;> rfl

/-- So is taking a text. -/
theorem recordFree_takeText (text : Text) (ignoreCase : Bool)
    : RecordFree (takeText text ignoreCase : Parsing σ (Option Text)) :=
  fun _ _ => rfl

/-- So is taking a run. -/
theorem recordFree_takeWhile (test : CodeUnit → Except Fault Bool) (min max : Int)
    : RecordFree (takeWhile test min max : Parsing σ (Option Text)) := by
  intro scene record
  simp only [takeWhile]
  rcases scene.cursor.takeWhile test min max with ⟨taken | fault, cursor⟩ <;> rfl

/-- Working on a record of its own is record-free, whatever the work. -/
theorem recordFree_onRecord (own : MatchRecord) (work : Parsing σ α)
    : RecordFree (onRecord own work) := by
  intro scene record
  simp only [onRecord]
  cases work { scene with record := own } <;> rfl

-----------------------------------------------------------------------------------------
-- The value that a parser yields, and its report
-----------------------------------------------------------------------------------------

/-- Runs a parser on an unset record of its own and returns the value of its match, if it
matched. -/
def yield (parser : Parsing σ Bool) : Parsing σ (Option Value) := do
  let (matched, own) ← onRecord none parser
  if matched then
    return some (← ofResult own.read).value
  else
    return none

/-- Sets the record at hand to the match between the positions before and after some work that
yields a value, and tells whether it yielded one. -/
def report (work : Parsing σ (Option Value)) : Parsing σ Bool := do
  let start ← position
  match ← work with
  | some value =>
    write (some ⟨start, ← position, value⟩)
    return true
  | none => return false

/-- What a parser yields on a record of its own is free of the record at hand. -/
theorem recordFree_yield (parser : Parsing σ Bool) : RecordFree (yield parser) := by
  refine (recordFree_onRecord none parser).bind ?_
  intro result
  obtain ⟨matched, own⟩ := result
  cases matched with
  | true => exact (recordFree_ofResult own.read).bind fun found => recordFree_pure _
  | false => exact recordFree_pure none

/-- A match yields its value. -/
theorem yield_of_matched {parser : Parsing σ Bool} (scene : Scene σ) {cursor : Cursor}
    {found : Match} {notes : σ}
    (ended : parser { scene with record := none } = .ok true ⟨cursor, some found, notes⟩)
    : yield parser scene = .ok (some found.value) ⟨cursor, scene.record, notes⟩ := by
  have own : onRecord none parser scene
      = .ok (true, some found) ⟨cursor, scene.record, notes⟩ := by
    simp only [onRecord, ended]
  rw [yield, run_bind_ok own]
  rfl

/-- No match yields nothing. -/
theorem yield_of_failed {parser : Parsing σ Bool} (scene : Scene σ) {after : Scene σ}
    (ended : parser { scene with record := none } = .ok false after)
    : yield parser scene = .ok none { after with record := scene.record } := by
  have own : onRecord none parser scene
      = .ok (false, after.record) { after with record := scene.record } := by
    simp only [onRecord, ended]
  rw [yield, run_bind_ok own]
  rfl

/-- A fault is passed on. -/
theorem yield_of_faulted {parser : Parsing σ Bool} (scene : Scene σ) {after : Scene σ}
    {fault : Fault}
    (ended : parser { scene with record := none } = .error fault after)
    : yield parser scene = .error fault { after with record := scene.record } := by
  have own : onRecord none parser scene
      = .error fault { after with record := scene.record } := by
    simp only [onRecord, ended]
  rw [yield, run_bind_error own]

/-- A match that leaves the record unset is a fault. -/
theorem yield_of_unset {parser : Parsing σ Bool} (scene : Scene σ) {cursor : Cursor} {notes : σ}
    (ended : parser { scene with record := none } = .ok true ⟨cursor, none, notes⟩)
    : yield parser scene = .error (.invariant .unset) ⟨cursor, scene.record, notes⟩ := by
  have own : onRecord none parser scene = .ok (true, none) ⟨cursor, scene.record, notes⟩ := by
    simp only [onRecord, ended]
  rw [yield, run_bind_ok own]
  rfl

/-- Record-free work in front of a parser can be done before its record is made. -/
theorem yield_bind {work : Parsing σ α} (free : RecordFree work) (next : α → Parsing σ Bool)
    : yield (work >>= next) = work >>= fun value => yield (next value) := by
  funext scene
  have replaced := free scene none
  cases ended : work scene with
  | ok value after =>
      have kept := free.record_eq ended
      rw [ended] at replaced
      rw [run_bind_ok ended]
      simp only [yield, bind, EStateM.bind, onRecord, Ending.withRecord, replaced, kept]
  | error fault after =>
      have kept := free.record_eq_of_fault ended
      rw [ended] at replaced
      rw [run_bind_error ended, yield_of_faulted scene (run_bind_error replaced), ← kept]

/-- The report of record-free work yields what the work yields. -/
theorem yield_report {work : Parsing σ (Option Value)} (free : RecordFree work)
    : yield (report work) = work := by
  rw [report, yield_bind recordFree_position]
  funext scene
  rw [run_position_bind, yield_bind free]
  cases ended : work scene with
  | error fault after => exact run_bind_error ended
  | ok value after =>
      rw [run_bind_ok ended]
      cases value <;> rfl

-----------------------------------------------------------------------------------------
-- Parsers whose conduct does not depend on the record
-----------------------------------------------------------------------------------------

end Parsing

/-- Two endings of one parser that was started on different records: alike in verdict, fault, cursor
and notes, and after a match alike in the record too, which is set. -/
inductive Ending.Alike : Ending σ Bool → Ending σ Bool → Prop
  | matched (cursor : Cursor) (found : Match) (notes : σ)
    : Alike (.ok true ⟨cursor, some found, notes⟩) (.ok true ⟨cursor, some found, notes⟩)
  | failed (cursor : Cursor) (left right : MatchRecord) (notes : σ)
    : Alike (.ok false ⟨cursor, left, notes⟩) (.ok false ⟨cursor, right, notes⟩)
  | faulted (fault : Fault) (cursor : Cursor) (left right : MatchRecord) (notes : σ)
    : Alike (.error fault ⟨cursor, left, notes⟩) (.error fault ⟨cursor, right, notes⟩)

namespace Parsing

/-- A parser that sets its record whenever it matches, and whose conduct does not depend on what the
record held before. What it leaves there when it fails or stops is not said. -/
def IgnoresRecord (parser : Parsing σ Bool) : Prop :=
  ∀ scene record, Ending.Alike (parser scene) (parser { scene with record })

/-- Failing at once ignores the record. -/
theorem ignoresRecord_failure : IgnoresRecord (pure false : Parsing σ Bool) :=
  fun scene _ => .failed scene.cursor _ _ scene.notes

/-- Record-free work in front of parsers that ignore the record makes one that ignores it. -/
theorem IgnoresRecord.bind {work : Parsing σ α} {next : α → Parsing σ Bool} (free : RecordFree work)
    (each : ∀ value, IgnoresRecord (next value))
    : IgnoresRecord (work >>= next) := by
  intro scene record
  have replaced := free scene record
  cases ended : work scene with
  | ok value after =>
      rw [ended] at replaced
      rw [run_bind_ok ended, run_bind_ok replaced]
      exact each value after record
  | error fault after =>
      rw [ended] at replaced
      rw [run_bind_error ended, run_bind_error replaced]
      exact .faulted fault after.cursor _ _ after.notes

/-- Settling ignores the record, by whether anything was taken. -/
theorem ignoresRecord_settle (start : Position) (taken : Option Text)
    : IgnoresRecord (settle start taken : Parsing σ Bool) := by
  intro scene record
  cases taken with
  | none => exact .failed scene.cursor _ _ scene.notes
  | some taken => exact .matched scene.cursor _ scene.notes

/-- Converting the match of any parser ignores the record at hand: the parser gets another one. -/
theorem ignoresRecord_converting (conversion : Conversion H) (parser : Parsing σ Bool)
    : IgnoresRecord (converting conversion parser) := by
  refine IgnoresRecord.bind (recordFree_onRecord none parser) ?_
  intro result
  obtain ⟨matched, own⟩ := result
  cases matched with
  | false => exact ignoresRecord_failure
  | true =>
      refine IgnoresRecord.bind (recordFree_ofResult own.read) fun found => ?_
      refine IgnoresRecord.bind (recordFree_ofResult (conversion.apply found.value)) fun value => ?_
      exact fun scene _ => .matched scene.cursor _ scene.notes

/-- Reporting ignores the record, by whether there is a value to report. -/
theorem ignoresRecord_report {work : Parsing σ (Option Value)} (free : RecordFree work)
    : IgnoresRecord (report work) := by
  refine IgnoresRecord.bind recordFree_position fun start => IgnoresRecord.bind free fun value => ?_
  intro scene record
  cases value with
  | none => exact .failed scene.cursor _ _ scene.notes
  | some value => exact .matched scene.cursor _ scene.notes

-----------------------------------------------------------------------------------------
-- Parsers that keep the contract
-----------------------------------------------------------------------------------------

end Parsing

/-- An ending that leaves the record as a parser should: set to a match from the start to where the
cursor stands, or as it was before when there is no match. -/
def Ending.Settles (start : Position) (record : MatchRecord) : Ending σ Bool → Prop
  | .ok true after => ∃ value, after.record = some ⟨start, after.cursor.position, value⟩
  | .ok false after => after.record = record
  | .error _ after => after.record = record

/-- The endings of two ways of parsing from one position agree: the same verdict or fault, cursor
and notes, and after a match the same value; the second reports it from the start to where the
cursor stands. -/
inductive Ending.Agree (start : Position) : Ending σ Bool → Ending σ Bool → Prop
  | matched (cursor : Cursor) (found : Match) (notes : σ)
    : Agree start (.ok true ⟨cursor, some found, notes⟩)
        (.ok true ⟨cursor, some ⟨start, cursor.position, found.value⟩, notes⟩)
  | failed (cursor : Cursor) (left right : MatchRecord) (notes : σ)
    : Agree start (.ok false ⟨cursor, left, notes⟩) (.ok false ⟨cursor, right, notes⟩)
  | faulted (fault : Fault) (cursor : Cursor) (left right : MatchRecord) (notes : σ)
    : Agree start (.error fault ⟨cursor, left, notes⟩) (.error fault ⟨cursor, right, notes⟩)

namespace Parsing

/-- A parser that keeps the contract: its conduct does not depend on the record, a match sets the
record from the position at the start to the one at the end, and without a match the record stays
as it was. -/
structure KeepsContract (parser : Parsing σ Bool) : Prop where
  ignoresRecord : IgnoresRecord parser
  settles : ∀ scene, Ending.Settles scene.cursor.position scene.record (parser scene)

/-- Record-free work in front of what settles the record settles it, if what follows does so after
each way the work returns. -/
theorem settles_bind {work : Parsing σ α} {next : α → Parsing σ Bool} (free : RecordFree work)
    {start : Position} {scene : Scene σ}
    (each
      : ∀ value after,
          work scene = .ok value after
          → after.record = scene.record
          → Ending.Settles start scene.record (next value after))
    : Ending.Settles start scene.record ((work >>= next) scene) := by
  cases ended : work scene with
  | ok value after =>
      rw [run_bind_ok ended]
      exact each value after ended (free.record_eq ended)
  | error fault after =>
      rw [run_bind_error ended]
      exact free.record_eq_of_fault ended

/-- The report of record-free work keeps the contract. -/
theorem keepsContract_report {work : Parsing σ (Option Value)} (free : RecordFree work)
    : KeepsContract (report work) := by
  refine ⟨ignoresRecord_report free, fun scene => ?_⟩
  rw [report, run_position_bind]
  refine settles_bind free fun value after _ kept => ?_
  cases value with
  | none => exact kept
  | some value => exact ⟨value, rfl⟩

/-- A parser that ignores the record agrees with the report of the value it yields, on whatever
records the two are started. Witness: both runs are alike to one on an unset record. -/
theorem IgnoresRecord.agree_report {parser : Parsing σ Bool} (ignores : IgnoresRecord parser)
    (scene : Scene σ) (record : MatchRecord)
    : Ending.Agree scene.cursor.position (parser scene)
        (report (yield parser) { scene with record }) := by
  have alike := ignores scene none
  rw [report, run_position_bind]
  generalize parser scene = first at alike ⊢
  generalize second : parser { scene with record := none } = own at alike
  cases alike with
  | matched cursor found notes =>
      rw [run_bind_ok (yield_of_matched { scene with record } second)]
      exact .matched cursor found notes
  | failed cursor left right notes =>
      rw [run_bind_ok (yield_of_failed { scene with record } second)]
      exact .failed ..
  | faulted fault cursor left right notes =>
      rw [run_bind_error (yield_of_faulted { scene with record } second)]
      exact .faulted ..

/-- A parser that keeps the contract is the report of the value it yields. Witness: the two agree,
and the contract leaves only one record for each ending. -/
theorem KeepsContract.report_yield {parser : Parsing σ Bool} (keeps : KeepsContract parser)
    : report (yield parser) = parser := by
  funext scene
  have agree := keeps.ignoresRecord.agree_report scene scene.record
  have left := keeps.settles scene
  have right := (keepsContract_report (recordFree_yield parser)).settles scene
  change Ending.Agree _ (parser scene) (report (yield parser) scene) at agree
  generalize parser scene = first at agree left ⊢
  generalize report (yield parser) scene = second at agree right ⊢
  cases agree with
  | matched cursor found notes =>
      obtain ⟨value, same⟩ := left
      dsimp only at same
      obtain rfl := Option.some.inj same
      rfl
  | failed cursor own other notes =>
      change own = scene.record at left
      change other = scene.record at right
      rw [left, right]
  | faulted fault cursor own other notes =>
      change own = scene.record at left
      change other = scene.record at right
      rw [left, right]

end Parsing

end StagedParser
