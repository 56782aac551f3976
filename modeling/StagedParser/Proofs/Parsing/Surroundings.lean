import StagedParser.Proofs.Parsing.Orderly
import StagedParser.Proofs.Stock.Contract

/-! Runs in different surroundings.
Parsing depends on its surroundings in three ways: the entry hook may refuse an announcement, tests
say which units pass, and functions convert values. Runs in surroundings that differ in marked
questions only go alike until the first marked question. A fault that is raised there is how the run
ends: nothing is announced after it.
-/

namespace StagedParser

variable {H : Host} {α β : Type}

/-- What parsing may ask of its surroundings: to let it announce a parser, which is known by the
number of announcements before it, to put a unit to a test, and to apply a function to a value. -/
inductive Question (H : Host) where
  | entry (number : Nat)
  | test (symbol : H.Test) (unit : CodeUnit)
  | function (symbol : H.Transform) (value : Value)

/-- The hook that keeps the list of entries in order and raises faults at the announcements with some
numbers, after it took note of them. -/
def Hook.refusing (refuses : Nat → Option Fault) : Hook (List Entry) where
  react entry _ entries := ⟨entries ++ [entry], [], refuses entries.length⟩

/-- What the surroundings answer: which announcements are refused, and with which faults, and what
tests and functions give. -/
structure Surroundings (H : Host) where
  refuses : Nat → Option Fault
  accepts : H.Test → CodeUnit → Except Fault Bool
  apply : H.Transform → Value → Except Fault Value

namespace Surroundings

def hook (around : Surroundings H) : Hook (List Entry) :=
  .refusing around.refuses

/-- A question is answered with a fault. -/
def Raises (around : Surroundings H) (fault : Fault) : Question H → Prop
  | .entry number => around.refuses number = some fault
  | .test symbol unit => around.accepts symbol unit = .error fault
  | .function symbol value => around.apply symbol value = .error fault

/-- Surroundings that give the same answers to all questions that are not marked. -/
structure AgreesOutside (marked : Question H → Prop) (around other : Surroundings H) : Prop where
  refuses : ∀ number, ¬marked (.entry number) → other.refuses number = around.refuses number
  accepts
    : ∀ symbol unit,
        ¬marked (.test symbol unit) → other.accepts symbol unit = around.accepts symbol unit
  apply
    : ∀ symbol value,
        ¬marked (.function symbol value) → other.apply symbol value = around.apply symbol value

/-- Surroundings agree with themselves. -/
theorem AgreesOutside.refl (marked : Question H → Prop) (around : Surroundings H)
    : around.AgreesOutside marked around :=
  ⟨fun _ _ => rfl, fun _ _ _ => rfl, fun _ _ _ => rfl⟩

end Surroundings

/-- How runs end that differ in their surroundings only. Either all of them end in the same way,
without an announcement whose number is marked, or they come to the same marked question in the same
scene: what is noted there stays noted, and a fault that is raised there is how the run ends. -/
inductive Ending.Decided (marked : Question H → Prop) (base : Surroundings H) (notes : List Entry)
    (runs : Surroundings H → Ending (List Entry) α) : Prop
  | same (ending : Ending (List Entry) α)
    (all : ∀ around, base.AgreesOutside marked around → runs around = ending)
    (unmarked
      : ∀ number,
          notes.length ≤ number
          → number < (Ending.scene ending).notes.length
          → ¬marked (.entry number))
  | asked (question : Question H) (after : Scene (List Entry)) (isMarked : marked question)
    (counted : ∀ number, question = .entry number → after.notes.length = number + 1)
    (all
      : ∀ around,
          base.AgreesOutside marked around
          → after.notes <+: (Ending.scene (runs around)).notes
            ∧ ∀ fault, around.Raises fault question → runs around = .error fault after)

/-- Where the announcement with a number is the only marked question, a run in which it is refused
goes alike if it is not made, and otherwise ends right there with the fault of the hook. -/
theorem Ending.Decided.refused {number : Nat} {base around : Surroundings H}
    {runs : Surroundings H → Ending (List Entry) α}
    (decided : Ending.Decided (· = .entry number) base [] runs)
    (agrees : base.AgreesOutside (· = .entry number) around) {fault : Fault}
    (refuses : around.refuses number = some fault)
    : let trace := (Ending.scene (runs base)).notes
      (trace.length ≤ number → runs around = runs base)
      ∧ (number < trace.length
        → ∃ after, runs around = .error fault after ∧ after.notes = trace.take (number + 1)) := by
  intro trace
  cases decided with
  | same ending all unmarked =>
      have ends : runs base = ending := all base (.refl _ base)
      refine ⟨fun _ => (all around agrees).trans ends.symm, fun announced => ?_⟩
      refine absurd rfl (unmarked number (Nat.zero_le number) ?_)
      rw [← ends]
      exact announced
  | asked question after isMarked counted all =>
      subst isMarked
      have length := counted number rfl
      have noted : after.notes <+: trace := (all base (.refl _ base)).1
      refine ⟨fun short => ?_, fun _ => ⟨after, (all around agrees).2 fault refuses, ?_⟩⟩
      · have := noted.length_le
        omega
      · rw [← length]
        exact List.prefix_iff_eq_take.mp noted

namespace Parsing

/-- Work that only appends to the notes, and whose ways to end in surroundings that agree outside of
the marked questions are decided by the first marked question. -/
structure Consults (marked : Question H → Prop) (base : Surroundings H)
    (work : Surroundings H → Parsing (List Entry) α) : Prop where
  appends : ∀ around scene, scene.notes <+: (Ending.scene (work around scene)).notes
  decided : ∀ scene, Ending.Decided marked base scene.notes fun around => work around scene

variable {marked : Question H → Prop} {base : Surroundings H}

-----------------------------------------------------------------------------------------
-- Work without announcements
-----------------------------------------------------------------------------------------

/-- Notes that stayed as they were are a prefix. -/
theorem prefix_of_notes_eq {notes later : List Entry} (kept : later = notes) : notes <+: later :=
  kept ▸ List.prefix_rfl

/-- Work that announces nothing and comes to one marked question at most. -/
theorem consults_quietly {work : Surroundings H → Parsing (List Entry) α}
    (kept : ∀ around scene, (Ending.scene (work around scene)).notes = scene.notes)
    (asks
      : ∀ scene,
          (∀ around, base.AgreesOutside marked around → work around scene = work base scene)
          ∨ ∃ question stop,
              marked question
              ∧ (∀ number, question ≠ .entry number)
              ∧ ∀ around,
                  base.AgreesOutside marked around
                  → ∀ fault,
                      around.Raises fault question
                      → work around scene = .error fault { scene with cursor := stop })
    : Consults marked base work := by
  constructor
  · intro around scene
    exact prefix_of_notes_eq (kept around scene)
  · intro scene
    rcases asks scene with alike | ⟨question, stop, isMarked, quiet, raised⟩
    · refine .same (work base scene) alike fun number noted announced => ?_
      rw [kept] at announced
      omega
    · refine .asked question { scene with cursor := stop } isMarked ?_ fun around agrees => ?_
      · exact fun number same => absurd same (quiet number)
      · exact ⟨prefix_of_notes_eq (kept around scene), raised around agrees⟩

/-- Work that announces nothing and asks nothing. -/
theorem consults_of_notes_eq {work : Parsing (List Entry) α}
    (kept : ∀ scene, (Ending.scene (work scene)).notes = scene.notes)
    : Consults marked base fun _ => work :=
  consults_quietly (fun _ => kept) fun _ => .inl fun _ _ => rfl

/-- Giving back a value asks nothing. -/
theorem consults_pure (value : α) : Consults marked base fun _ => pure value :=
  consults_of_notes_eq fun _ => rfl

/-- Neither does giving back a result. -/
theorem consults_given (result : Except Fault α) : Consults marked base fun _ => ofResult result := by
  refine consults_of_notes_eq fun scene => ?_
  cases result <;> rfl

/-- Neither does moving. -/
theorem consults_move (step : Move) : Consults marked base fun _ => move step := by
  refine consults_of_notes_eq fun scene => ?_
  simp only [move]
  cases scene.cursor.apply step <;> rfl

-----------------------------------------------------------------------------------------
-- Sequences
-----------------------------------------------------------------------------------------

/-- What follows a piece of work keeps what that took note of. -/
theorem notes_prefix_bind {work : Parsing (List Entry) α} {next : α → Parsing (List Entry) β}
    (appends : ∀ value scene, scene.notes <+: (Ending.scene (next value scene)).notes)
    (scene : Scene (List Entry))
    : (Ending.scene (work scene)).notes <+: (Ending.scene ((work >>= next) scene)).notes := by
  cases ended : work scene with
  | ok value after =>
      rw [run_bind_ok ended]
      exact appends value after
  | error fault after =>
      rw [run_bind_error ended]
      exact List.prefix_rfl

/-- Pieces of work make work whose first marked question is that of the first piece that comes to
one, by the ways in which the first piece ends. -/
theorem Consults.bind {work : Surroundings H → Parsing (List Entry) α}
    {next : Surroundings H → α → Parsing (List Entry) β} (consults : Consults marked base work)
    (each : ∀ value, Consults marked base fun around => next around value)
    : Consults marked base fun around => work around >>= next around := by
  have continues (around : Surroundings H) (scene : Scene (List Entry))
      : (Ending.scene (work around scene)).notes
        <+: (Ending.scene ((work around >>= next around) scene)).notes :=
    notes_prefix_bind (fun value => (each value).appends around) scene
  constructor
  · intro around scene
    exact (consults.appends around scene).trans (continues around scene)
  · intro scene
    cases consults.decided scene with
    | asked question after isMarked counted all =>
        refine .asked question after isMarked counted fun around agrees => ?_
        obtain ⟨noted, stops⟩ := all around agrees
        exact ⟨noted.trans (continues around scene),
          fun fault raises => run_bind_error (stops fault raises)⟩
    | same ending all unmarked =>
        cases ending with
        | error fault after =>
            exact .same _ (fun around agrees => run_bind_error (all around agrees)) unmarked
        | ok value after =>
            -- All runs are in one scene after the first piece, so what follows decides for them all.
            have goesOn (around : Surroundings H) (agrees : base.AgreesOutside marked around)
                : (work around >>= next around) scene = next around value after :=
              run_bind_ok (all around agrees)
            cases (each value).decided after with
            | asked question later isMarked counted laterAll =>
                refine .asked question later isMarked counted fun around agrees => ?_
                rw [goesOn around agrees]
                exact laterAll around agrees
            | same ending laterAll laterUnmarked =>
                refine .same ending
                  (fun around agrees => (goesOn around agrees).trans (laterAll around agrees)) ?_
                intro number noted announced
                by_cases before : number < after.notes.length
                · exact unmarked number noted before
                · exact laterUnmarked number (Nat.le_of_not_lt before) announced

/-- Asking for the position asks what follows on it. -/
theorem consults_position_bind {next : Surroundings H → Position → Parsing (List Entry) α}
    (each : ∀ start, Consults marked base fun around => next around start)
    : Consults marked base fun around => position >>= next around :=
  Consults.bind (consults_of_notes_eq fun _ => rfl) each

/-- Work on a record of its own asks what the work asks. -/
theorem Consults.onRecord {work : Surroundings H → Parsing (List Entry) α}
    (consults : Consults marked base work) (own : MatchRecord)
    : Consults marked base fun around => onRecord own (work around) := by
  have notes (around : Surroundings H) (scene : Scene (List Entry))
      : (Ending.scene (Parsing.onRecord own (work around) scene)).notes
        = (Ending.scene (work around { scene with record := own })).notes := by
    simp only [Parsing.onRecord]
    cases work around { scene with record := own } <;> rfl
  constructor
  · intro around scene
    rw [notes]
    exact consults.appends around { scene with record := own }
  · intro scene
    cases consults.decided { scene with record := own } with
    | asked question after isMarked counted all =>
        refine .asked question { after with record := scene.record } isMarked counted ?_
        intro around agrees
        obtain ⟨noted, stops⟩ := all around agrees
        refine ⟨by rw [notes]; exact noted, fun fault raises => ?_⟩
        simp only [Parsing.onRecord, stops fault raises]
    | same ending all unmarked =>
        refine .same (Parsing.onRecord own (fun _ => ending) scene) (fun around agrees => ?_) ?_
        · simp only [Parsing.onRecord, all around agrees]
        · intro number noted announced
          refine unmarked number noted ?_
          cases ending <;> exact announced

-----------------------------------------------------------------------------------------
-- Questions
-----------------------------------------------------------------------------------------

/-- A refusing hook notes the entry, and refuses by the number of those noted before. -/
theorem enter_refusing (refuses : Nat → Option Fault) (entry : Entry) (scene : Scene (List Entry))
    : enter (.refusing refuses) entry scene
      = match refuses scene.notes.length with
        | some fault => .error fault { scene with notes := scene.notes ++ [entry] }
        | none => .ok () { scene with notes := scene.notes ++ [entry] } :=
  rfl

/-- An announcement asks the question with its number. -/
theorem consults_enter (entry : Entry)
    : Consults marked base fun around => enter around.hook entry := by
  have notes (around : Surroundings H) (scene : Scene (List Entry))
      : (Ending.scene (enter around.hook entry scene)).notes = scene.notes ++ [entry] := by
    rw [Surroundings.hook, enter_refusing]
    cases around.refuses scene.notes.length <;> rfl
  constructor
  · intro around scene
    rw [notes]
    exact List.prefix_append _ _
  · intro scene
    by_cases isMarked : marked (.entry scene.notes.length)
    · refine .asked (.entry scene.notes.length) { scene with notes := scene.notes ++ [entry] }
        isMarked ?_ fun around _ => ⟨?_, fun fault raises => ?_⟩
      · rintro number same
        injection same with same
        simp [same]
      · exact prefix_of_notes_eq (notes around scene)
      · have refused : around.refuses scene.notes.length = some fault := raises
        rw [Surroundings.hook, enter_refusing, refused]
    · refine .same (enter base.hook entry scene) (fun around agrees => ?_) ?_
      · rw [Surroundings.hook, Surroundings.hook, enter_refusing, enter_refusing,
          agrees.refuses _ isMarked]
      · intro number noted announced
        rw [notes, List.length_append, List.length_singleton] at announced
        obtain rfl : number = scene.notes.length := by omega
        exact isMarked

/-- Applying a function asks one question. -/
theorem consults_apply (symbol : H.Transform) (value : Value)
    : Consults marked base fun around => ofResult (around.apply symbol value) := by
  refine consults_quietly (fun around scene => ?_) fun scene => ?_
  · cases around.apply symbol value <;> rfl
  · by_cases isMarked : marked (.function symbol value)
    · refine .inr ⟨.function symbol value, scene.cursor, isMarked, by simp, ?_⟩
      intro around _ fault raises
      have raised : around.apply symbol value = .error fault := raises
      rw [raised]
      rfl
    · refine .inl fun around agrees => ?_
      rw [agrees.apply _ _ isMarked]

/-- How runs of units end that differ in the surroundings of their test only: in the same way, or at
the same unit if the test raises a fault there. -/
inductive DecidedRun (marked : Question H → Prop) (base : Surroundings H) (symbol : H.Test)
    (runs : Surroundings H → Cursor.Run) : Prop
  | same (run : Cursor.Run) (all : ∀ around, base.AgreesOutside marked around → runs around = run)
  | asked (unit : CodeUnit) (cursor : Cursor) (isMarked : marked (.test symbol unit))
    (all
      : ∀ around,
          base.AgreesOutside marked around
          → ∀ fault,
              around.accepts symbol unit = .error fault
              → (runs around).fault = some fault ∧ (runs around).cursor = cursor)

/-- Runs of units go alike until the first marked test, by induction on the units that may be
taken. -/
theorem decidedRun_runWithin (symbol : H.Test) (max : Int) (fuel : Nat) (cursor : Cursor)
    (taken : Nat)
    : DecidedRun marked base symbol fun around =>
        Cursor.runWithin (around.accepts symbol) max fuel cursor taken := by
  induction fuel generalizing cursor taken with
  | zero => exact .same _ fun _ _ => rfl
  | succ fuel ih =>
      simp only [Cursor.runWithin]
      cases cursor.unit? with
      | none => exact .same _ fun _ _ => rfl
      | some unit =>
          dsimp only
          -- Where the run may go on, the unit is put to the test, which may be the marked question.
          split
          · by_cases isMarked : marked (.test symbol unit)
            · refine .asked unit cursor isMarked fun around _ fault raised => ?_
              rw [raised]
              exact ⟨rfl, rfl⟩
            · have accepts (around : Surroundings H) (agrees : base.AgreesOutside marked around)
                  : around.accepts symbol unit = base.accepts symbol unit :=
                agrees.accepts symbol unit isMarked
              cases answer : base.accepts symbol unit with
              | error fault =>
                  refine .same ⟨taken, [unit], cursor, some fault⟩ fun around agrees => ?_
                  rw [accepts around agrees, answer]
              | ok passes =>
                  cases passes with
                  | false =>
                      refine .same ⟨taken, [unit], cursor, none⟩ fun around agrees => ?_
                      rw [accepts around agrees, answer]
                  | true =>
                      cases ih (cursor.step unit) (taken + 1) with
                      | same run all =>
                          refine .same { run with asked := unit :: run.asked } fun around agrees => ?_
                          rw [accepts around agrees, answer, all around agrees]
                      | asked later stop isMarked all =>
                          refine .asked later stop isMarked fun around agrees fault raised => ?_
                          rw [accepts around agrees, answer]
                          exact all around agrees fault raised
          · exact .same _ fun _ _ => rfl

/-- Taking a run asks the questions of its test. -/
theorem consults_takeWhile (symbol : H.Test) (min max : Int)
    : Consults marked base fun around => takeWhile (around.accepts symbol) min max := by
  refine consults_quietly (fun around scene => ?_) fun scene => ?_
  · simp only [takeWhile]
    rcases scene.cursor.takeWhile (around.accepts symbol) min max with ⟨taken | fault, cursor⟩
    · rfl
    · rfl
  · have decided : DecidedRun marked base symbol fun around =>
        scene.cursor.run (around.accepts symbol) max :=
      decidedRun_runWithin symbol max _ scene.cursor 0
    cases decided with
    | same run all =>
        refine .inl fun around agrees => ?_
        simp only [takeWhile, Cursor.takeWhile, all around agrees, all base (.refl marked base)]
    | asked unit stop isMarked all =>
        refine .inr ⟨.test symbol unit, stop, isMarked, by simp, fun around agrees fault raises => ?_⟩
        obtain ⟨raised, stops⟩ := all around agrees fault raises
        simp only [takeWhile, Cursor.takeWhile, raised, stops]

-----------------------------------------------------------------------------------------
-- Parsers from outside
-----------------------------------------------------------------------------------------

end Parsing

/-- A parser from outside that does not catch the faults of the entry hook. -/
def Conduct.LetsFaultsThrough : Conduct → Prop
  | .finish _ | .raise _ => True
  | .observe next => ∀ cursor record, (next cursor record).LetsFaultsThrough
  | .move _ next | .write _ next => next.LetsFaultsThrough
  | .enter _ next => (∀ fault, next (some fault) = .raise fault) ∧ (next none).LetsFaultsThrough

/-- An entry whose faults are all raised is an announcement. -/
theorem Conduct.enter_eq_announce {entry : Entry} {next : Option Fault → Conduct}
    (through : ∀ fault, next (some fault) = .raise fault)
    : Conduct.enter entry next = .announce entry (next none) := by
  rw [announce]
  congr
  funext raised
  cases raised with
  | none => rfl
  | some fault => exact through fault

namespace Parsing

variable {marked : Question H → Prop} {base : Surroundings H}

/-- A parser from outside that lets faults through asks with its announcements only, by induction on
its conduct. -/
theorem consults_conduct {conduct : Conduct} (through : conduct.LetsFaultsThrough)
    : Consults marked base fun around => conduct.run around.hook := by
  induction conduct with
  | finish matched => exact consults_pure matched
  | raise fault => exact consults_given (.error fault)
  | observe next ih =>
      simp only [Conduct.run]
      refine Consults.bind (consults_of_notes_eq fun _ => rfl) fun cursor => ?_
      refine Consults.bind (consults_of_notes_eq fun _ => rfl) fun record => ?_
      exact ih cursor record (through cursor record)
  | move step next ih =>
      simp only [Conduct.run]
      exact (consults_move step).bind fun _ => ih through
  | write record next ih =>
      simp only [Conduct.run]
      exact Consults.bind (consults_of_notes_eq fun _ => rfl) fun _ => ih through
  | enter entry next ih =>
      obtain ⟨raises, goesOn⟩ := through
      simp only [Conduct.enter_eq_announce raises, Conduct.run_announce]
      exact (consults_enter entry).bind fun _ => ih none goesOn

end Parsing

end StagedParser
