import StagedParser.Proofs.Session.Reached
import StagedParser.Stock

/-! What the steps of a session have to do with each other.
A step touches only the scanners of its contexts and its records. So groups of steps that share neither
scanners nor records nor marks answer, however they are interleaved, as if each of them ran alone; the
parsers they share, and the store they work on, make no difference. Nor does it make a difference to a
parse if the entry hook runs the same parser again elsewhere.
-/

namespace StagedParser

open Store

variable {H : Host}

namespace Session

-----------------------------------------------------------------------------------------
-- Sessions that agree on a share
-----------------------------------------------------------------------------------------

/-- A share of a session's store: some of its scanners and some of its records. -/
structure Share where
  scanners : Address → Prop
  records : Address → Prop

/-- All that a step works on is in the share. -/
structure Share.Covers (share : Share) (session : Session H) (step : Step) : Prop where
  scanners : ∀ address ∈ step.scannerCells session.contexts, share.scanners address
  records : ∀ address ∈ step.recordCells session.records, share.records address

/-- Nothing that a step works on is in the share. -/
structure Share.Avoids (share : Share) (session : Session H) (step : Step) : Prop where
  scanners : ∀ address ∈ step.scannerCells session.contexts, ¬ share.scanners address
  records : ∀ address ∈ step.recordCells session.records, ¬ share.records address

/-- Two sessions with the same addresses and the same parsers whose stores agree on a share. -/
structure Agree (share : Share) (session other : Session H) : Prop where
  contexts : other.contexts = session.contexts
  records : other.records = session.records
  parsers : other.parsers = session.parsers
  storeParsers : other.store.parsers = session.store.parsers
  scannerCells
    : ∀ address, share.scanners address → ∃ scanner,
        session.store.scanners[address]? = some scanner
        ∧ other.store.scanners[address]? = some scanner
  recordCells
    : ∀ address, share.records address → ∃ held,
        session.store.records[address]? = some held
        ∧ other.store.records[address]? = some held

/-- A sound session agrees with itself on any share of what its addresses lead to. -/
theorem IsSound.agree_self {session : Session H} (sound : session.IsSound) {share : Share}
    (scanners : ∀ address, share.scanners address → address ∈ session.contexts)
    (records : ∀ address, share.records address → address ∈ session.records)
    : Agree share session session := by
  refine ⟨rfl, rfl, rfl, rfl, fun address shared => ?_, fun address shared => ?_⟩
  · obtain ⟨cursor, found⟩ := sound.scanners address (scanners address shared)
    exact ⟨_, found, found⟩
  · have inside := sound.inside address (records address shared)
    exact ⟨_, List.getElem?_eq_getElem inside, List.getElem?_eq_getElem inside⟩

/-- Two regions that hold the same at a place still do after the same was put at one address in both, by
whether the place is that address. -/
theorem held_in_both_set {α : Type} {cells others : List α} {place : Address} {before : α}
    (here : cells[place]? = some before) (there : others[place]? = some before) (address : Address)
    (cell : α)
    : ∃ held,
        (cells.set address cell)[place]? = some held ∧ (others.set address cell)[place]? = some held := by
  by_cases same : address = place
  · obtain ⟨insideHere, _⟩ := List.getElem?_eq_some_iff.mp here
    obtain ⟨insideThere, _⟩ := List.getElem?_eq_some_iff.mp there
    subst same
    exact ⟨cell, List.getElem?_set_self insideHere, List.getElem?_set_self insideThere⟩
  · exact ⟨before, (List.getElem?_set_ne same).trans here, (List.getElem?_set_ne same).trans there⟩

section Agree

variable {share : Share} {session other : Session H}

/-- A step that avoids the share makes no difference to it. -/
theorem Agree.avoided (agree : Agree share session other) (sound : session.IsSound) {step : Step}
    (avoids : share.Avoids session step) (unstaging : step.isStaging = false)
    : Agree share (step.run session).2 other := by
  obtain ⟨contexts, records, parsers, spares⟩ := (step.does_run sound).spares unstaging
  refine ⟨agree.contexts.trans contexts.symm, agree.records.trans records.symm,
    agree.parsers.trans parsers.symm, agree.storeParsers.trans spares.parsers.symm,
    fun address shared => ?_, fun address shared => ?_⟩
  · obtain ⟨scanner, here, there⟩ := agree.scannerCells address shared
    exact ⟨scanner, spares.scanners.held (avoids.scanners address · shared) here, there⟩
  · obtain ⟨held, here, there⟩ := agree.recordCells address shared
    exact ⟨held, spares.records.held (avoids.records address · shared) here, there⟩

/-- The same scanner is put at an address in both sessions. -/
theorem Agree.setScanner (agree : Agree share session other) (address : Address) (scanner : Scanner)
    : Agree share (session.setScanner address scanner) (other.setScanner address scanner) where
  contexts := agree.contexts
  records := agree.records
  parsers := agree.parsers
  storeParsers := agree.storeParsers
  recordCells := agree.recordCells
  scannerCells place shared := by
    obtain ⟨before, here, there⟩ := agree.scannerCells place shared
    exact held_in_both_set here there address scanner

/-- The same record is put at an address in both sessions. -/
theorem Agree.setRecord (agree : Agree share session other) (address : Address) (held : MatchRecord)
    : Agree share (session.setRecord address held) (other.setRecord address held) where
  contexts := agree.contexts
  records := agree.records
  parsers := agree.parsers
  storeParsers := agree.storeParsers
  scannerCells := agree.scannerCells
  recordCells place shared := by
    obtain ⟨before, here, there⟩ := agree.recordCells place shared
    exact held_in_both_set here there address held

/-- A covered context has the same scanner in both sessions. -/
theorem Agree.scanner?_eq (agree : Agree share session other) {step : Step}
    (covers : share.Covers session step) {context : Nat} (used : context ∈ step.contexts)
    : other.scanner? context = session.scanner? context := by
  simp only [scanner?, agree.contexts]
  cases bound : session.contexts[context]? with
  | none => rfl
  | some address =>
      have member : address ∈ step.scannerCells session.contexts :=
        List.mem_filterMap.mpr ⟨context, used, bound⟩
      obtain ⟨scanner, here, there⟩ := agree.scannerCells address (covers.scanners address member)
      simp only [Option.bind_eq_bind, Option.bind_some, here, there]

/-- A covered record holds the same in both sessions. -/
theorem Agree.record?_eq (agree : Agree share session other) {step : Step}
    (covers : share.Covers session step) {record : Nat} (used : record ∈ step.records)
    : other.record? record = session.record? record := by
  simp only [record?, agree.records]
  cases bound : session.records[record]? with
  | none => rfl
  | some address =>
      have member : address ∈ step.recordCells session.records :=
        List.mem_filterMap.mpr ⟨record, used, bound⟩
      obtain ⟨held, here, there⟩ := agree.recordCells address (covers.records address member)
      simp only [Option.bind_eq_bind, Option.bind_some, here, there]

/-- A covered parse answers the same in both sessions and leaves the same behind.
Witness: in both stores it runs as its grammar does, from the same scanner and the same record.
-/
theorem Agree.parsed (agree : Agree share session other) (sound : session.IsSound) {parser : Text}
    {context record : Nat} (covers : share.Covers session (.parse parser context record))
    : (other.parse parser context record).1 = (session.parse parser context record).1
      ∧ Agree share (session.parse parser context record).2 (other.parse parser context record).2 := by
  simp only [Session.parse, agree.parsers, agree.contexts, agree.records]
  split
  · next address scanner place named found recorded =>
    obtain ⟨grammar, stands⟩ := sound.stands_of_lookup named
    obtain ⟨cursor, fresh⟩ := sound.scanners scanner (List.mem_of_getElem? found)
    obtain ⟨cell, here, there⟩ := agree.scannerCells scanner
      (covers.scanners scanner (List.mem_filterMap.mpr ⟨context, List.mem_cons_self, found⟩))
    obtain ⟨held, recordHere, recordThere⟩ := agree.recordCells place
      (covers.records place (List.mem_filterMap.mpr ⟨record, List.mem_cons_self, recorded⟩))
    cases here.symm.trans fresh
    obtain ⟨after, ran, left, leftRecord, spares⟩ := run_parseAt stands here recordHere
    obtain ⟨later, ranThere, leftThere, leftRecordThere, sparesThere⟩ :=
      run_parseAt (agree.storeParsers ▸ stands) there recordThere
    rw [atStore, atStore, ran, ranThere]
    refine ⟨rfl, agree.contexts, agree.records, agree.parsers,
      (sparesThere.parsers.trans agree.storeParsers).trans spares.parsers.symm,
      fun address shared => ?_, fun address shared => ?_⟩
    · by_cases same : address = scanner
      · exact ⟨_, same ▸ left, same ▸ leftThere⟩
      · obtain ⟨cell, before, beforeThere⟩ := agree.scannerCells address shared
        exact ⟨cell, spares.scanners.held same before, sparesThere.scanners.held same beforeThere⟩
    · by_cases same : address = place
      · exact ⟨_, same ▸ leftRecord, same ▸ leftRecordThere⟩
      · obtain ⟨cell, before, beforeThere⟩ := agree.recordCells address shared
        exact ⟨cell, spares.records.held same before, sparesThere.records.held same beforeThere⟩
  · exact ⟨rfl, agree⟩

/-- A step with its mark found by another number. -/
def Step.withMarks (place : Nat → Nat) : Step → Step
  | .restore context number => .restore context (place number)
  | step => step

/-- A covered step answers the same in both sessions, which then still agree, if the mark that it
restores is the same in both. By the kinds of steps.
-/
theorem Agree.covered (agree : Agree share session other) (sound : session.IsSound) {step : Step}
    (covers : share.Covers session step) (unstaging : step.isStaging = false)
    (settled : step.changesSettings = false) {place : Nat → Nat}
    (marked
      : ∀ context number,
          step = .restore context number → other.marks[place number]? = session.marks[number]?)
    : ((step.withMarks place).run other).1 = (step.run session).1
      ∧ Agree share (step.run session).2 ((step.withMarks place).run other).2 := by
  cases step with
  | parse parser context record => exact agree.parsed sound covers
  | advance context count =>
      have found := agree.scanner?_eq covers List.mem_cons_self
      simp only [Step.withMarks, Step.run, found]
      split
      · exact ⟨rfl, agree.setScanner _ _⟩
      · exact ⟨rfl, agree⟩
  | mark context =>
      have found := agree.scanner?_eq covers List.mem_cons_self
      simp only [Step.withMarks, Step.run, found]
      split
      · exact ⟨rfl, { agree with }⟩
      · exact ⟨rfl, agree⟩
  | restore context number =>
      have found := agree.scanner?_eq covers List.mem_cons_self
      simp only [Step.withMarks, Step.run, found, marked context number rfl]
      split
      · split
        · exact ⟨rfl, agree.setScanner _ _⟩
        · exact ⟨rfl, agree⟩
      · exact ⟨rfl, agree⟩
  | read record =>
      have recorded := agree.record?_eq covers List.mem_cons_self
      simp only [Step.withMarks, Step.run, recorded]
      split
      · split <;> exact ⟨rfl, agree⟩
      · exact ⟨rfl, agree⟩
  | resetRecord record =>
      simp only [Step.withMarks, Step.run, agree.records]
      split
      · exact ⟨rfl, agree.setRecord _ none⟩
      · exact ⟨rfl, agree⟩
  | stage newName name => cases unstaging
  | set values => cases settled
  | resetSettings => cases settled

end Agree

-----------------------------------------------------------------------------------------
-- Marks of several groups
-----------------------------------------------------------------------------------------

/-- The marks of a group among the marks of a session, given who made each of them. -/
inductive MarksOf (group : Nat) : List (Option Nat) → List Position → List Position → Prop
  | none : MarksOf group [] [] []
  | own {makers : List (Option Nat)} {marks mine : List Position}
    (before : MarksOf group makers marks mine) (mark : Position)
    : MarksOf group (makers ++ [some group]) (marks ++ [mark]) (mine ++ [mark])
  | other {makers : List (Option Nat)} {marks mine : List Position}
    (before : MarksOf group makers marks mine) {maker : Option Nat} (different : maker ≠ some group)
    (mark : Position)
    : MarksOf group (makers ++ [maker]) (marks ++ [mark]) mine

/-- There is a maker for each mark, and the group made as many as it has, by induction on the
marks made. -/
theorem MarksOf.lengths {group : Nat} {makers : List (Option Nat)} {marks mine : List Position}
    (marksOf : MarksOf group makers marks mine)
    : makers.length = marks.length ∧ makers.count (some group) = mine.length := by
  induction marksOf with
  | none => exact ⟨rfl, rfl⟩
  | own before mark ih => simp [ih.1, ih.2]
  | other before different mark ih => simp [ih.1, ih.2, different]

/-- A mark of the group stands among the group's marks after those that the group made before it, by
induction on the marks made. -/
theorem MarksOf.found {group : Nat} {makers : List (Option Nat)} {marks mine : List Position}
    (marksOf : MarksOf group makers marks mine) {number : Nat}
    (made : makers[number]? = some (some group))
    : ∃ mark,
        mine[(makers.take number).count (some group)]? = some mark ∧ marks[number]? = some mark := by
  induction marksOf with
  | none => cases made
  | @own makers marks mine before mark ih =>
      obtain ⟨length, count⟩ := before.lengths
      rcases Nat.lt_or_ge number makers.length with earlier | later
      · rw [List.getElem?_append_left earlier] at made
        obtain ⟨found, inMine, inMarks⟩ := ih made
        rw [List.take_append_of_le_length (Nat.le_of_lt earlier)]
        exact ⟨found, by grind, by grind⟩
      · obtain rfl : number = makers.length := by
          have inside := (List.getElem?_eq_some_iff.mp made).1
          simp only [List.length_append, List.length_singleton] at inside
          omega
        refine ⟨mark, ?_, ?_⟩
        · rw [List.take_left, count, List.getElem?_concat_length]
        · rw [length, List.getElem?_concat_length]
  | @other makers marks mine before maker different mark ih =>
      rcases Nat.lt_or_ge number makers.length with earlier | later
      · rw [List.getElem?_append_left earlier] at made
        obtain ⟨found, inMine, inMarks⟩ := ih made
        rw [List.take_append_of_le_length (Nat.le_of_lt earlier)]
        exact ⟨found, inMine, by grind⟩
      · rw [List.getElem?_append_right later] at made
        have last := List.mem_singleton.mp (List.mem_of_getElem? made)
        exact absurd last.symm different

-----------------------------------------------------------------------------------------
-- Groups of steps
-----------------------------------------------------------------------------------------

/-- A step of a schedule, with the number of the group that it belongs to. A change of the settings
belongs to none. -/
structure Turn where
  group : Option Nat
  step : Step

/-- Who makes the marks of a turn. -/
def Turn.makers (turn : Turn) : List (Option Nat) :=
  if turn.step.isMark then [turn.group] else []

/-- Each restoring step goes back to a mark of its own group. The list says who made the marks
before the first turn. -/
def RestoresOwn (makers : List (Option Nat)) : List Turn → Prop
  | [] => True
  | turn :: rest =>
    (∀ context number,
      turn.step = .restore context number → makers[number]? = some turn.group)
    ∧ RestoresOwn (makers ++ turn.makers) rest

/-- The steps of one group of a schedule, with its marks counted without those of the others. -/
def stepsOf (group : Nat) (makers : List (Option Nat)) : List Turn → List Step
  | [] => []
  | turn :: rest =>
    let others := stepsOf group (makers ++ turn.makers) rest
    if turn.group = some group then
      turn.step.withMarks (fun number => (makers.take number).count (some group)) :: others
    else
      others

/-- The replies to one group of a schedule, among the replies to all its steps. -/
def repliesTo (group : Nat) : List Turn → List Reply → List Reply
  | turn :: rest, reply :: replies =>
    if turn.group = some group then
      reply :: repliesTo group rest replies
    else
      repliesTo group rest replies
  | _, _ => []

/-- A schedule for a session in which no parser is staged and the settings are changed outside of the
groups only. Different groups share neither scanners nor records, and each restores only marks of its
own. -/
structure Orderly (session : Session H) (turns : List Turn) : Prop where
  contexts : ∀ turn ∈ turns, ∀ context ∈ turn.step.contexts, context < session.contexts.length
  unstaging : ∀ turn ∈ turns, turn.step.isStaging = false
  settings : ∀ turn ∈ turns, turn.step.changesSettings = true ↔ turn.group = none
  scanners
    : ∀ turn ∈ turns, ∀ other ∈ turns,
        turn.group ≠ other.group
        → ∀ address ∈ turn.step.scannerCells session.contexts,
            address ∉ other.step.scannerCells session.contexts
  records
    : ∀ turn ∈ turns, ∀ other ∈ turns,
        turn.group ≠ other.group → ∀ number ∈ turn.step.records, number ∉ other.step.records
  marks : RestoresOwn [] turns

/-- A schedule of which one group keeps to a share of the session and all others avoid it. -/
structure Separates (group : Nat) (share : Share) (session : Session H) (turns : List Turn)
    : Prop where
  contexts : ∀ turn ∈ turns, ∀ context ∈ turn.step.contexts, context < session.contexts.length
  unstaging : ∀ turn ∈ turns, turn.step.isStaging = false
  own
    : ∀ turn ∈ turns,
        turn.group = some group
        → share.Covers session turn.step ∧ turn.step.changesSettings = false
  others
    : ∀ turn ∈ turns, turn.group ≠ some group → share.Avoids session turn.step

/-- What is left of a schedule separates the session after its first turn.
Witness: the turn keeps the addresses of contexts and records.
-/
theorem Separates.tail {group : Nat} {share : Share} {session : Session H} {turn : Turn}
    {rest : List Turn} (separates : Separates group share session (turn :: rest))
    (sound : session.IsSound)
    : Separates group share (turn.step.run session).2 rest := by
  obtain ⟨contexts, records, -, -⟩ :=
    (turn.step.does_run sound).spares (separates.unstaging turn List.mem_cons_self)
  have inside {other : Turn} (member : other ∈ rest) : other ∈ turn :: rest :=
    List.mem_cons_of_mem turn member
  refine ⟨fun other member => ?_, fun other member => ?_, fun other member mine => ?_,
    fun other member foreign => ?_⟩
  · rw [contexts]
    exact separates.contexts other (inside member)
  · exact separates.unstaging other (inside member)
  · obtain ⟨covers, settled⟩ := separates.own other (inside member) mine
    refine ⟨⟨?_, ?_⟩, settled⟩
    · rw [contexts]
      exact covers.scanners
    · rw [records]
      exact covers.records
  · have avoids := separates.others other (inside member) foreign
    constructor
    · rw [contexts]
      exact avoids.scanners
    · rw [records]
      exact avoids.records

/-- The share of a group: what its steps work on. -/
def shareOf (group : Nat) (session : Session H) (turns : List Turn) : Share where
  scanners address :=
    ∃ turn ∈ turns, turn.group = some group ∧ address ∈ turn.step.scannerCells session.contexts
  records address :=
    ∃ turn ∈ turns, turn.group = some group ∧ address ∈ turn.step.recordCells session.records

/-- Steps that work on different records of a session work on different cells of its store. -/
theorem IsSeated.recordCells_apart {session : Session H} (seated : session.IsSeated) {step other : Step}
    (differ : ∀ number ∈ step.records, number ∉ other.records) {address : Address}
    (used : address ∈ step.recordCells session.records)
    : address ∉ other.recordCells session.records := by
  intro shared
  obtain ⟨number, member, found⟩ := List.mem_filterMap.mp used
  obtain ⟨twin, memberTwin, foundTwin⟩ := List.mem_filterMap.mp shared
  obtain ⟨inside, _⟩ := List.getElem?_eq_some_iff.mp found
  obtain rfl := (List.getElem?_inj inside seated.apart).mp (found.trans foundTwin.symm)
  exact differ number member memberTwin

/-- In an orderly schedule each group keeps to its share, and the others avoid it. -/
theorem Orderly.separates {session : Session H} {turns : List Turn} (orderly : session.Orderly turns)
    (sound : session.IsSound) (group : Nat)
    : Separates group (shareOf group session turns) session turns where
  contexts := orderly.contexts
  unstaging := orderly.unstaging
  own turn member mine := by
    refine ⟨⟨fun _ used => ⟨turn, member, mine, used⟩, fun _ used => ⟨turn, member, mine, used⟩⟩, ?_⟩
    cases settled : turn.step.changesSettings with
    | false => rfl
    | true =>
        rw [(orderly.settings turn member).mp settled] at mine
        cases mine
  others turn member foreign := by
    constructor
    · rintro address used ⟨owner, inside, mine, shared⟩
      have different : turn.group ≠ owner.group := fun same => foreign (same.trans mine)
      exact orderly.scanners turn member owner inside different address used shared
    · rintro address used ⟨owner, inside, mine, shared⟩
      have different : turn.group ≠ owner.group := fun same => foreign (same.trans mine)
      exact sound.recordCells_apart (orderly.records turn member owner inside different) used shared

/-- A group's share is part of what the addresses of the session lead to. -/
theorem agree_shareOf {session : Session H} (sound : session.IsSound) (group : Nat) (turns : List Turn)
    : Agree (shareOf group session turns) session session := by
  refine sound.agree_self (fun address shared => ?_) (fun address shared => ?_)
  · obtain ⟨turn, _, _, used⟩ := shared
    obtain ⟨context, _, found⟩ := List.mem_filterMap.mp used
    exact List.mem_of_getElem? found
  · obtain ⟨turn, _, _, used⟩ := shared
    obtain ⟨record, _, found⟩ := List.mem_filterMap.mp used
    exact List.mem_of_getElem? found

/-- Only a marking step makes a mark. -/
theorem Step.isMark_iff {step : Step} : step.isMark = true ↔ ∃ context, step = .mark context := by
  cases step <;> simp [isMark]

/-- Another number for a mark makes no step a marking one. -/
theorem Step.isMark_withMarks (place : Nat → Nat) (step : Step)
    : (step.withMarks place).isMark = step.isMark := by
  cases step <;> rfl

/-- Where there is a scanner, marking it adds its position to the marks. -/
theorem Step.run_mark {session : Session H} {context : Nat} {address : Address} {scanner : Scanner}
    (found : session.scanner? context = some (address, scanner))
    : (Step.mark context).run session
      = (.position scanner.position,
          { session with marks := session.marks ++ [scanner.position] }) := by
  simp only [run, found]

section Turns

variable {group : Nat} {share : Share} {session alone : Session H} {makers : List (Option Nat)}
  {turn : Turn}

/-- A turn of the group makes the same mark in both sessions, or none in either. -/
theorem MarksOf.own_turn (marksOf : MarksOf group makers session.marks alone.marks)
    (mine : turn.group = some group) (agree : Agree share session alone) (sound : session.IsSound)
    (soundAlone : alone.IsSound) (covers : share.Covers session turn.step)
    (there : ∀ context ∈ turn.step.contexts, context < session.contexts.length) (place : Nat → Nat)
    : MarksOf group (makers ++ turn.makers) (turn.step.run session).2.marks
        ((turn.step.withMarks place).run alone).2.marks := by
  cases marked : turn.step.isMark with
  | false =>
      have unmarked := (Step.isMark_withMarks place turn.step).trans marked
      rw [(turn.step.does_run sound).marks_of_unmarked marked,
        ((turn.step.withMarks place).does_run soundAlone).marks_of_unmarked unmarked, Turn.makers,
        marked]
      simpa using marksOf
  | true =>
      obtain ⟨context, step⟩ := Step.isMark_iff.mp marked
      have used : context ∈ turn.step.contexts := by simp [step, Step.contexts]
      -- The context is there, so the mark is made, and with the same scanner in both sessions.
      obtain ⟨cursor, found⟩ := sound.found (List.getElem?_eq_getElem (there context used))
      have same := (agree.scanner?_eq covers used).trans found
      have unchanged : (Step.mark context).withMarks place = .mark context := rfl
      rw [Turn.makers, marked, mine, step, unchanged, Step.run_mark found, Step.run_mark same]
      exact marksOf.own _

/-- A turn of another group makes its mark in the common session only. -/
theorem MarksOf.other_turn (marksOf : MarksOf group makers session.marks alone.marks)
    (foreign : turn.group ≠ some group) (sound : session.IsSound)
    (there : ∀ context ∈ turn.step.contexts, context < session.contexts.length)
    : MarksOf group (makers ++ turn.makers) (turn.step.run session).2.marks alone.marks := by
  cases marked : turn.step.isMark with
  | false =>
      rw [(turn.step.does_run sound).marks_of_unmarked marked, Turn.makers, marked]
      simpa using marksOf
  | true =>
      obtain ⟨context, step⟩ := Step.isMark_iff.mp marked
      have used : context ∈ turn.step.contexts := by simp [step, Step.contexts]
      obtain ⟨cursor, found⟩ := sound.found (List.getElem?_eq_getElem (there context used))
      rw [Turn.makers, marked, step, Step.run_mark found]
      exact marksOf.other foreign _

/-- The replies to a group in a common session are those to the group alone, by induction on the
schedule. -/
theorem replies_eq_alone {turns : List Turn} (separates : Separates group share session turns)
    (sound : session.IsSound) (soundAlone : alone.IsSound) (agree : Agree share session alone)
    (marksOf : MarksOf group makers session.marks alone.marks) (restores : RestoresOwn makers turns)
    : repliesTo group turns (session.runSteps (turns.map Turn.step))
      = alone.runSteps (stepsOf group makers turns) := by
  induction turns generalizing session alone makers with
  | nil => rfl
  | cons turn rest ih =>
      obtain ⟨own, restores⟩ := restores
      have first : turn ∈ turn :: rest := List.mem_cons_self
      have there := separates.contexts turn first
      have unstaging := separates.unstaging turn first
      by_cases mine : turn.group = some group
      · -- Both sessions run the step; a mark that it restores has another number in each.
        obtain ⟨covers, settled⟩ := separates.own turn first mine
        have marked context number (step : turn.step = .restore context number)
            : alone.marks[(makers.take number).count (some group)]? = session.marks[number]? := by
          obtain ⟨mark, inMine, inAll⟩ := marksOf.found (mine ▸ own context number step)
          rw [inMine, inAll]
        obtain ⟨answer, agreeNext⟩ := agree.covered sound covers unstaging settled marked
        have continued := ih (separates.tail sound) (sound.run _) (soundAlone.run _) agreeNext
          (marksOf.own_turn mine agree sound soundAlone covers there _) restores
        simp only [List.map_cons, runSteps, repliesTo, stepsOf, mine, if_true]
        rw [answer, continued]
      · -- Only the common session runs the step, and the share of the group is none of its business.
        have continued := ih (separates.tail sound) (sound.run _) soundAlone
          (agree.avoided sound (separates.others turn first mine) unstaging)
          (marksOf.other_turn mine sound there) restores
        simp only [List.map_cons, runSteps, repliesTo, stepsOf, mine, if_false]
        exact continued

end Turns

-----------------------------------------------------------------------------------------
-- Sessions with shared parsers
-----------------------------------------------------------------------------------------

/-- A parse touches nothing of the session but the scanner of its context and its own record.
Witness: what it can reach of the store are just these two cells, and different records of the session
are different cells.
-/
theorem IsSound.parse_touches {session : Session H} (sound : session.IsSound) (parser : Text)
    (context record : Nat)
    : let after := (session.parse parser context record).2
      (∀ other, session.contexts[other]? ≠ session.contexts[context]?
        → after.scanner? other = session.scanner? other)
      ∧ (∀ other, other ≠ record → after.record? other = session.record? other)
      ∧ Store.Spares (Step.reach session (.parse parser context record)) session.store after.store
      ∧ after = { session with store := after.store } := by
  intro after
  have does : (Step.parse parser context record).Does session after :=
    (Step.parse parser context record).does_run sound
  obtain ⟨contexts, records, -, spares⟩ := does.spares rfl
  refine ⟨fun other apart => ?_, fun other apart => ?_, spares, does.eq_withStore rfl rfl rfl⟩
  · rw [scanner?, scanner?, contexts]
    cases bound : session.contexts[other]? with
    | none => rfl
    | some address =>
        obtain ⟨cursor, held⟩ := sound.scanners address (List.mem_of_getElem? bound)
        have outside : ¬ (Step.reach session (.parse parser context record)).scanners address := by
          intro member
          obtain ⟨used, inside, found⟩ := List.mem_filterMap.mp member
          obtain rfl := List.mem_singleton.mp inside
          exact apart (bound.trans found.symm)
        simp only [Option.bind_eq_bind, Option.bind_some, held, spares.scanners.held outside held]
  · rw [record?, record?, records]
    cases bound : session.records[other]? with
    | none => rfl
    | some address =>
        have there := sound.inside address (List.mem_of_getElem? bound)
        have outside : ¬ (Step.reach session (.parse parser context record)).records address := by
          intro member
          obtain ⟨used, inside, found⟩ := List.mem_filterMap.mp member
          obtain rfl := List.mem_singleton.mp inside
          obtain ⟨below, _⟩ := List.getElem?_eq_some_iff.mp bound
          exact apart ((List.getElem?_inj below sound.apart).mp (bound.trans found.symm))
        simp only [Option.bind_eq_bind, Option.bind_some, spares.records.same address there outside]

/-- A parse answers what the grammar of its parser answers, from the scanner of its context and its own
record. -/
theorem IsSound.parse_answers {session : Session H} (sound : session.IsSound) {parser : Text}
    {context record : Nat} {grammar : Grammar H} {scanner : Address × Scanner}
    {held : Address × MatchRecord} (named : session.forge.named.lookup parser = some grammar)
    (found : session.scanner? context = some scanner) (recorded : session.record? record = some held)
    : (session.parse parser context record).1
      = .ofEnding (grammar.parse Hook.silent ⟨scanner.2.cursor, held.2, ()⟩) := by
  have related := sound.lookup parser
  rw [named] at related
  obtain ⟨boundScanner, scanned⟩ := scanner?_eq_some.mp found
  obtain ⟨boundRecord, holding⟩ := record?_eq_some.mp recorded
  obtain ⟨cursor, fresh⟩ := sound.scanners _ (List.mem_of_getElem? boundScanner)
  have same : scanner.2 = .refreshed cursor := Option.some.inj (scanned.symm.trans fresh)
  rw [same] at scanned ⊢
  rw [Session.parse, boundScanner, boundRecord]
  generalize session.parsers.lookup parser = address at related ⊢
  cases related with
  | some stands =>
      obtain ⟨after, ran, -⟩ := run_parseAt stands scanned holding
      dsimp only
      rw [atStore, ran]
      rfl

/-- A probe that parses again with the same parser leaves the parse that it interrupts as it is, and
observes what is observed without it.
Witness: the parser of a sound session is one at whose address a grammar stands.
-/
theorem IsSound.observes_reparse {session : Session H} (sound : session.IsSound) {parser : Text}
    {grammar : Grammar H} {address : Address} (named : session.forge.named.lookup parser = some grammar)
    (found : session.parsers.lookup parser = some address) (buffer other : Buffer)
    (count number : Number)
    : let seen := Observation.ofGrammar grammar buffer count
      let inner := Observation.ofGrammar grammar other 0
      Probe.Observes none address buffer count session.store seen []
      ∧ Probe.Observes none address other 0 session.store inner []
      ∧ Probe.Observes (some ⟨number, .reparse other⟩) address buffer count session.store seen
          (Probe.reparses inner number seen.entered.length) := by
  have related := sound.lookup parser
  rw [named, found] at related
  cases related with
  | some stands =>
      exact ⟨Probe.observes_none stands buffer count, Probe.observes_none stands other 0,
        Probe.observes_reparse stands buffer other count number⟩

/-- In every session that can be reached:
a parse changes no scanner but that of its context, no record but its own, and nothing else that was
there, and answers what its grammar answers from these two;
in an orderly schedule every group gets the replies that it gets alone;
and a parse under a hook that runs the same parser on another buffer, at some announcement, is observed
as without that, and so is the parse inside.
-/
theorem shared_parsers_keep_steps_apart
    : (∀ (session : Session H),
        session.IsReached
        → ∀ parser context record,
            let after := (session.parse parser context record).2
            (∀ other, session.contexts[other]? ≠ session.contexts[context]?
              → after.scanner? other = session.scanner? other)
            ∧ (∀ other, other ≠ record → after.record? other = session.record? other)
            ∧ Store.Spares (Step.reach session (.parse parser context record)) session.store
                after.store
            ∧ after = { session with store := after.store }
            ∧ ∀ grammar scanner held,
                session.forge.named.lookup parser = some grammar
                → session.scanner? context = some scanner
                → session.record? record = some held
                → (session.parse parser context record).1
                  = .ofEnding (grammar.parse Hook.silent ⟨scanner.2.cursor, held.2, ()⟩))
      ∧ (∀ (session : Session H) turns,
          session.IsReached
          → session.marks = []
          → session.Orderly turns
          → ∀ group,
              repliesTo group turns (session.runSteps (turns.map Turn.step))
              = session.runSteps (stepsOf group [] turns))
      ∧ ∀ (session : Session H) parser grammar address,
          session.IsReached
          → session.forge.named.lookup parser = some grammar
          → session.parsers.lookup parser = some address
          → ∀ buffer other count number,
              let seen := Observation.ofGrammar grammar buffer count
              let inner := Observation.ofGrammar grammar other 0
              Probe.Observes none address buffer count session.store seen []
              ∧ Probe.Observes none address other 0 session.store inner []
              ∧ Probe.Observes (some ⟨number, .reparse other⟩) address buffer count session.store seen
                  (Probe.reparses inner number seen.entered.length) := by
  refine ⟨?_, ?_, ?_⟩
  · intro session reached parser context record after
    obtain ⟨scanners, records, spares, rest⟩ :=
      reached.isSound.parse_touches parser context record
    exact ⟨scanners, records, spares, rest, fun grammar scanner held named found recorded =>
      reached.isSound.parse_answers named found recorded⟩
  · intro session turns reached unmarked orderly group
    have sound := reached.isSound
    refine replies_eq_alone (orderly.separates sound group) sound sound (agree_shareOf sound group turns)
      ?_ orderly.marks
    rw [unmarked]
    exact .none
  · intro session parser grammar address reached named found buffer other count number
    exact reached.isSound.observes_reparse named found buffer other count number

end Session

namespace Stock

def words : Grammar host :=
  .oneOf 0 [.literal 1 (Text.ofString "ab") false, .literal 2 (Text.ofString "cd") false]

def abcd : Buffer :=
  Buffer.ofText (Text.ofString "abcd") (by decide)

def cdab : Buffer :=
  Buffer.ofText (Text.ofString "cdab") (by decide)

/-- A session with a staged parser, three contexts, the last of which shares the scanner of the
first, and two records. -/
def commonSession : Session host :=
  .start { named := [(Text.ofString "words", .staged 3 words true)] }
    [.buffer abcd, .buffer cdab, .shares 0] 2

/-- Two groups of steps, interleaved, with a change of the settings in between. -/
def commonSchedule : List Session.Turn :=
  [ ⟨some 0, .mark 0⟩, ⟨some 1, .parse (Text.ofString "words") 1 1⟩, ⟨some 1, .mark 1⟩,
    ⟨none, .resetSettings⟩, ⟨some 0, .parse (Text.ofString "words") 2 0⟩, ⟨some 1, .restore 1 1⟩,
    ⟨some 0, .restore 0 0⟩, ⟨some 1, .read 1⟩, ⟨some 0, .read 0⟩ ]

/-- The common session is one that can be started. -/
theorem commonSession_reached : commonSession.IsReached :=
  .start _ _ _

/-- The common schedule is orderly there. Witness: the contexts have the scanners 0, 1 and 0; the
rest is decided. -/
theorem commonSchedule_orderly : commonSession.Orderly commonSchedule where
  contexts := by
    have contexts : commonSession.contexts = [0, 1, 0] := rfl
    rw [contexts]
    decide
  unstaging := by decide
  settings := by decide
  scanners := by
    have contexts : commonSession.contexts = [0, 1, 0] := rfl
    rw [contexts]
    decide
  records := by decide
  marks := by simp [commonSchedule, Session.RestoresOwn, Session.Turn.makers, Session.Step.isMark]

/-- On the second buffer the staged parser announces three parsers: the choice and both literals. -/
theorem entered_words : (Observation.ofGrammar (.staged 3 words true) cdab 0).entered.length = 3 := by
  decide +kernel

end Stock

/-- A parse of the common session; the second group of the common schedule, whose mark is the second one
of the session and the first one when the group runs alone; and a parse of the second buffer in which
the third announcement sets off a parse of the first buffer with the same parser.
-/
theorem Session.shared_parsers_keep_steps_apart_sample
    : let words := Text.ofString "words"
      let grammar := Grammar.staged 3 Stock.words true
      let seen := Observation.ofGrammar grammar Stock.cdab 0
      let inner := Observation.ofGrammar grammar Stock.abcd 0
      Stock.commonSession.IsReached
      ∧ Stock.commonSession.marks = []
      ∧ Stock.commonSession.Orderly Stock.commonSchedule
      ∧ (Stock.commonSession.parse words 2 0).1
        = .ofEnding (grammar.parse Hook.silent ⟨.start Stock.abcd, none, ()⟩)
      ∧ repliesTo 1 Stock.commonSchedule
          (Stock.commonSession.runSteps (Stock.commonSchedule.map Turn.step))
        = Stock.commonSession.runSteps [.parse words 1 1, .mark 1, .restore 1 0, .read 1]
      ∧ Probe.Observes none 0 Stock.cdab 0 Stock.commonSession.store seen []
      ∧ Probe.Observes none 0 Stock.abcd 0 Stock.commonSession.store inner []
      ∧ Probe.Observes (some ⟨2, .reparse Stock.abcd⟩) 0 Stock.cdab 0 Stock.commonSession.store seen
          [inner] := by
  intro words grammar seen inner
  obtain ⟨parses, interleaved, nested⟩ := shared_parsers_keep_steps_apart (H := Stock.host)
  have reached := Stock.commonSession_reached
  obtain ⟨-, -, -, -, answers⟩ := parses Stock.commonSession reached words 2 0
  obtain ⟨alone, aloneInner, both⟩ := nested Stock.commonSession words grammar 0 reached rfl rfl
    Stock.cdab Stock.abcd 0 2
  refine ⟨reached, rfl, Stock.commonSchedule_orderly, ?_, ?_, alone, aloneInner, ?_⟩
  · exact answers grammar (0, .start Stock.abcd) (0, none) rfl rfl rfl
  · exact interleaved Stock.commonSession Stock.commonSchedule reached rfl
      Stock.commonSchedule_orderly 1
  · have once : Probe.reparses inner 2 3 = [inner] := rfl
    rw [← once, ← Stock.entered_words]
    exact both

end StagedParser
