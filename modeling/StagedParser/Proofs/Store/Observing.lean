import StagedParser.Probe
import StagedParser.Proofs.Store.Parsing

/-! Observing parses on a store.
What is observed of a parse does not depend on the store that it is run on, and nothing that was in the
store is touched. So a parse that is run inside of an entry hook is observed as if it were run alone,
and the one that waits for it as if it had not been run.
-/

namespace StagedParser

variable {H : Host}

namespace Store

-----------------------------------------------------------------------------------------
-- Observations
-----------------------------------------------------------------------------------------

/-- What is observed of a parse that ends as given, with its announcements recorded. -/
def Observation.ofEnding : Ending (List Entry) Bool → Observation
  | .ok matched scene => ⟨.ok matched, .refreshed scene.cursor, scene.record, scene.notes⟩
  | .error fault scene => ⟨.error fault, .refreshed scene.cursor, scene.record, scene.notes⟩

/-- What is observed of parsing a buffer with a grammar, after advancing by `count` units. -/
def Observation.ofGrammar (grammar : Grammar H) (buffer : Buffer) (count : Number) : Observation :=
  .ofEnding (grammar.parse Hook.recorder ⟨(Cursor.start buffer).advance count, none, []⟩)

/-- Nothing is in reach. -/
def Reach.nothing : Reach :=
  ⟨fun _ => False, fun _ => False, fun _ => False, fun _ => False⟩

/-- One journal is in reach. -/
def Reach.journal (journal : Address) : Reach :=
  ⟨fun _ => False, fun _ => False, fun _ => False, (· = journal)⟩

/-- What cannot be reached at all is within any reach. -/
theorem Reach.nothing_withinOld (store : Store H) (reach : Reach) : nothing.WithinOld store reach :=
  ⟨fun _ _ => False.elim, fun _ _ => False.elim, fun _ _ => False.elim, fun _ _ => False.elim⟩

/-- What can be reached by parsing at a new site is not old. -/
theorem Reach.withinOld_new {store : Store H} {reach : Reach}
    (scanners : ∀ address, reach.scanners address → store.scanners.length ≤ address)
    (records : ∀ address, reach.records address → store.records.length ≤ address)
    (frames : ∀ address, reach.frames address → store.frames.length ≤ address)
    (journals : ∀ address, reach.journals address → store.journals.length ≤ address)
    : reach.WithinOld store .nothing :=
  ⟨fun address old new => absurd old (Nat.not_lt.mpr (scanners address new)),
    fun address old new => absurd old (Nat.not_lt.mpr (records address new)),
    fun address old new => absurd old (Nat.not_lt.mpr (frames address new)),
    fun address old new => absurd old (Nat.not_lt.mpr (journals address new))⟩

/-- The site of a parse whose announcements are written into a journal. With `count` of them written
there, the journal also holds the observations `inner count`.
-/
def Site.noting (parsers : List (Parser H)) (scanner record journal : Address)
    (inner : Nat → List Observation)
    : Site H (List Entry) where
  parsers := parsers
  scanner := scanner
  record := record
  journal := some journal
  noted journals entered := journals[journal]? = some ⟨entered, inner entered.length⟩

section Watching

variable {parsers : List (Parser H)} {scanner record journal : Address} {inner : Nat → List Observation}
  {watch : Entry → Work H Unit}

/-- Work that writes an announcement down, and whatever observations come with it, mirrors recording
the announcement.
Witness: it touches nothing old but the journal, so the site's scanner and record are as they were.
-/
theorem mirrors_recorder (entry : Entry)
    (notes
      : ∀ store entered,
          store.parsers = parsers
          → store.journals[journal]? = some ⟨entered, inner entered.length⟩
          → ∃ after,
              watch entry store = .ok () after
              ∧ after.journals[journal]? = some ⟨entered ++ [entry], inner (entered.length + 1)⟩
              ∧ Spares (.journal journal) store after)
    : Mirrors (Site.noting parsers scanner record journal inner) (watch entry)
        (Parsing.enter Hook.recorder entry) := by
  intro store scene shows
  obtain ⟨after, ran, written, spares⟩ := notes store scene.notes shows.parsers shows.notes
  rw [ran]
  have shown : (Site.noting parsers scanner record journal inner).Shows after
      { scene with notes := scene.notes ++ [entry] } := by
    refine ⟨spares.parsers.trans shows.parsers, spares.scanners.held not_false shows.scanner,
      spares.records.held not_false shows.record, ?_⟩
    simpa [Site.noting] using written
  have within : (Reach.journal journal).WithinOld store
      (Site.noting parsers scanner record journal inner).reach :=
    ⟨fun _ _ => False.elim, fun _ _ => False.elim, fun _ _ => False.elim,
      fun _ _ same => congrArg some same.symm⟩
  exact .ok () shown ((Spares.refl _ store).trans spares within)

end Watching

-----------------------------------------------------------------------------------------
-- A new site
-----------------------------------------------------------------------------------------

/-- Once a parse has ended, its scanner, record and journal tell what the site shows. -/
theorem run_observed {parsers : List (Parser H)} {scanner record journal : Address}
    {inner : Nat → List Observation} {store : Store H} {scene : Scene (List Entry)}
    (shows : (Site.noting parsers scanner record journal inner).Shows store scene)
    (verdict : Except Fault Bool)
    : observed scanner record journal verdict store
      = .ok (⟨verdict, .refreshed scene.cursor, scene.record, scene.notes⟩,
          inner scene.notes.length) store := by
  have written : journalRegion.read journal store = .ok ⟨scene.notes, inner scene.notes.length⟩ store :=
    journalRegion.read_eq shows.notes
  have scanned : scannerRegion.read scanner store = .ok (.refreshed scene.cursor) store :=
    scannerRegion.read_eq shows.scanner
  have recorded : recordRegion.read record store = .ok scene.record store :=
    recordRegion.read_eq shows.record
  rw [observed, run_bind_ok written, run_bind_ok scanned, run_bind_ok recorded]
  rfl

/-- A parse at a new site, whose announcements are written into a new journal, is observed as its
grammar is, and touches nothing old.
Witness: the parse mirrors that of the grammar; all that it can reach was added for it.
-/
theorem observe_eq {grammar : Grammar H} {parser : Address} {store : Store H}
    (stands : Stands store.parsers grammar parser) (buffer : Buffer) (count : Number)
    (inner : Nat → List Observation) (starts : inner 0 = [])
    {watch : (scanner journal : Address) → Entry → Work H Unit}
    (watches
      : ∀ record entry,
          Mirrors
            (Site.noting store.parsers store.scanners.length record store.journals.length inner)
            (watch store.scanners.length store.journals.length entry)
            (Parsing.enter Hook.recorder entry))
    : let seen := Observation.ofGrammar grammar buffer count
      ∃ after,
        observe watch parser buffer count store = .ok (seen, inner seen.entered.length) after
        ∧ Spares .nothing store after := by
  intro seen
  let site := Site.noting store.parsers store.scanners.length store.records.length
    store.journals.length inner
  let begun : Scene (List Entry) := ⟨(Cursor.start buffer).advance count, none, []⟩
  let added : Store H :=
    { store with
      scanners := store.scanners ++ [.refreshed begun.cursor]
      records := store.records ++ [none]
      journals := store.journals ++ [{}] }
  have shows : site.Shows added begun := by
    refine ⟨rfl, List.getElem?_concat_length, List.getElem?_concat_length, ?_⟩
    simp [site, Site.noting, added, begun, starts]
  have grown : Spares .nothing store added :=
    ⟨rfl, .add _ _ _, .add _ _ _, .refl _ _, .add _ _ _⟩
  have within : site.reach.WithinOld store .nothing := by
    refine Reach.withinOld_new (fun _ same => ?_) (fun _ same => ?_) (fun _ => False.elim)
      (fun _ same => ?_)
    · exact Nat.le_of_eq same.symm
    · exact Nat.le_of_eq same.symm
    · exact Nat.le_of_eq (Option.some.inj same)
  let journal := store.journals.length
  let work : Work H Bool := parse ⟨site.scanner, watch site.scanner journal⟩ parser site.record
  have began : observe watch parser buffer count store
      = (attempt work >>= observed site.scanner site.record journal) added :=
    rfl
  have ended : Mirrored site added (work added) (grammar.parse Hook.recorder begun) :=
    @Stands.mirrors_parse H _ site _ _ watches _ _ stands site.record added begun shows
  have tried (verdict : Except Fault Bool) {after : Store H} {later : Scene (List Entry)}
      (ran : attempt work added = .ok verdict after) (showsLater : site.Shows after later)
      (spares : Spares site.reach added after)
      : ∃ after,
          observe watch parser buffer count store
            = .ok (⟨verdict, .refreshed later.cursor, later.record, later.notes⟩,
                inner later.notes.length) after
          ∧ Spares .nothing store after := by
    rw [began, run_bind_ok ran]
    exact ⟨after, run_observed showsLater verdict, grown.trans spares within⟩
  simp only [seen, Observation.ofGrammar]
  generalize left : work added = ending at ended
  generalize grammar.parse Hook.recorder begun = otherEnding at ended
  cases ended with
  | ok matched showsLater spares =>
      exact tried (.ok matched) (by rw [attempt, left]) showsLater spares
  | error fault showsLater spares =>
      exact tried (.error fault) (by rw [attempt, left]) showsLater spares

-----------------------------------------------------------------------------------------
-- Journals
-----------------------------------------------------------------------------------------

section Journals

variable {store : Store H} {journal : Address} {entered : List Entry} {inner : List Observation}

/-- Writing to a journal spares everything else. -/
theorem spares_journal (store : Store H) (journal : Address) (held : Journal)
    : Spares (.journal journal) store
        { store with journals := store.journals.set journal held } :=
  ⟨rfl, .refl _ _, .refl _ _, .refl _ _, .set _ (show (Reach.journal journal).journals journal from rfl) _⟩

/-- An announcement is written after those before it and has their number. -/
theorem run_note (held : store.journals[journal]? = some ⟨entered, inner⟩) (entry : Entry)
    : ∃ after,
        note journal entry store = .ok entered.length after
        ∧ after.journals[journal]? = some ⟨entered ++ [entry], inner⟩
        ∧ Spares (.journal journal) store after := by
  obtain ⟨inside, _⟩ := List.getElem?_eq_some_iff.mp held
  have read : journalRegion.read journal store = .ok ⟨entered, inner⟩ store :=
    journalRegion.read_eq held
  refine ⟨_, ?_, List.getElem?_set_self inside, spares_journal store journal _⟩
  rw [note, run_bind_ok read]
  rfl

/-- So is an observation written after those before it. -/
theorem run_noteInner (held : store.journals[journal]? = some ⟨entered, inner⟩) (seen : Observation)
    : ∃ after,
        noteInner journal seen store = .ok () after
        ∧ after.journals[journal]? = some ⟨entered, inner ++ [seen]⟩
        ∧ Spares (.journal journal) store after := by
  obtain ⟨inside, _⟩ := List.getElem?_eq_some_iff.mp held
  have read : journalRegion.read journal store = .ok ⟨entered, inner⟩ store :=
    journalRegion.read_eq held
  refine ⟨_, ?_, List.getElem?_set_self inside, spares_journal store journal _⟩
  rw [noteInner, run_bind_ok read]
  rfl

end Journals

end Store

-----------------------------------------------------------------------------------------
-- Probes
-----------------------------------------------------------------------------------------

open Store

namespace Probe

/-- Parsing a buffer with a probe is observed as given, with the given observations of parses inside,
and touches nothing that was in the store. -/
def Observes (probe : Option Probe) (parser : Address) (buffer : Buffer) (count : Number)
    (store : Store H) (seen : Observation) (inner : List Observation)
    : Prop :=
  ∃ after,
    observe probe parser buffer count store = .ok (seen, inner) after
    ∧ Spares .nothing store after

/-- The observations that a probe makes which parses another buffer, by the number of announcements so
far: one for each announcement that has the number of the probe. -/
def reparses (seen : Observation) (number : Number) (entries : Nat) : List Observation :=
  (List.range entries).filterMap fun index => if number = Number.ofNat index then some seen else none

/-- One more announcement makes one more observation if it has the number of the probe. -/
theorem reparses_succ (seen : Observation) (number : Number) (entries : Nat)
    : reparses seen number (entries + 1)
      = if number = Number.ofNat entries then
          reparses seen number entries ++ [seen]
        else
          reparses seen number entries := by
  rw [reparses, List.range_succ, List.filterMap_append]
  split <;> simp_all [reparses]

section Parses

variable {grammar : Grammar H} {parser : Address} {store : Store H}
  (stands : Stands store.parsers grammar parser)

include stands

/-- A parse that only writes its announcements down is observed as its grammar is. -/
theorem recorded_observes (buffer : Buffer) (count : Number)
    : ∃ after,
        Store.observe recording parser buffer count store
          = .ok (Observation.ofGrammar grammar buffer count, []) after
        ∧ Spares .nothing store after := by
  refine observe_eq stands buffer count (fun _ => []) rfl fun record entry =>
    mirrors_recorder entry fun store entered _ held => ?_
  obtain ⟨after, noted, written, spares⟩ := run_note held entry
  refine ⟨after, ?_, written, spares⟩
  rw [recording, run_bind_ok noted]
  rfl

/-- So is one with no probe. -/
theorem observes_none (buffer : Buffer) (count : Number)
    : Observes none parser buffer count store (Observation.ofGrammar grammar buffer count) [] := by
  refine observe_eq stands buffer count (fun _ => []) rfl fun record entry =>
    mirrors_recorder entry fun store entered _ held => ?_
  obtain ⟨after, noted, written, spares⟩ := run_note held entry
  refine ⟨after, ?_, written, spares⟩
  rw [probing, run_bind_ok noted]
  rfl

/-- A probe that parses another buffer with the same parser makes no difference to the parse that it
interrupts, and its own parse is observed as if it were run alone.
Witness: its parse runs at a new site, so when the interrupted one goes on, everything is as it was.
-/
theorem observes_reparse (buffer other : Buffer) (count number : Number)
    : let seen := Observation.ofGrammar grammar buffer count
      Observes (some ⟨number, .reparse other⟩) parser buffer count store seen
        (reparses (Observation.ofGrammar grammar other 0) number seen.entered.length) := by
  refine observe_eq stands buffer count (reparses _ number) rfl fun record entry =>
    mirrors_recorder entry fun now entered kept held => ?_
  obtain ⟨between, noted, written, spares⟩ := run_note held entry
  rw [probing, run_bind_ok noted, reparses_succ]
  dsimp only
  by_cases its : number = Number.ofNat entered.length
  · have standsNow : Stands between.parsers grammar parser :=
      (spares.parsers.trans kept) ▸ stands
    obtain ⟨middle, observed, untouched⟩ := recorded_observes standsNow other 0
    obtain ⟨after, notedInner, writtenInner, sparesInner⟩ :=
      run_noteInner (untouched.journals.held not_false written)
        (Observation.ofGrammar grammar other 0)
    refine ⟨after, ?_, ?_, ?_⟩
    · rw [if_pos its, Act.perform, run_bind_ok observed]
      exact notedInner
    · rw [if_pos its]
      exact writtenInner
    · exact (spares.trans untouched (Reach.nothing_withinOld _ _)).trans sparesInner (.refl _ _)
  · rw [if_neg its, if_neg its]
    exact ⟨between, rfl, written, spares⟩

end Parses

end Probe

end StagedParser
