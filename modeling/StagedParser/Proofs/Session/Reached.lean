import Mathlib.Data.List.Forall2
import StagedParser.Proofs.Parsing.Orderly
import StagedParser.Proofs.Store.Observing
import StagedParser.Session

/-! What holds of the sessions that can be reached.
In each of them the named grammars of the forge stand in the store under the same names, every context
has a scanner with its unit looked up, and the records of the session have different addresses. A step
keeps it so, whatever the step; a parse touches nothing that was there but the scanner of its context
and its own record.
-/

namespace StagedParser

open Store

variable {H : Host} {α β : Type}

namespace Session

-----------------------------------------------------------------------------------------
-- Sound sessions
-----------------------------------------------------------------------------------------

/-- A grammar with a name, and a parser in a store under the same name at whose address it stands. -/
def Holds (store : Store H) (grammar : Text × Grammar H) (parser : Text × Address) : Prop :=
  grammar.1 = parser.1 ∧ Stands store.parsers grammar.2 parser.2

/-- The contexts have scanners in the store, and the records are different cells of it. -/
structure IsSeated (session : Session H) : Prop where
  scanners
    : ∀ address ∈ session.contexts,
        ∃ cursor, session.store.scanners[address]? = some (.refreshed cursor)
  inside : ∀ address ∈ session.records, address < session.store.records.length
  apart : session.records.Nodup

/-- A seated session whose store holds the grammars of its forge. -/
structure IsSound (session : Session H) : Prop extends session.IsSeated where
  parsers : List.Forall₂ (Holds session.store) session.forge.named session.parsers

/-- A named grammar that stands in a store stands in its extensions. -/
theorem Holds.extended {before after : Store H} (extended : Extended before after)
    {grammar : Text × Grammar H} {parser : Text × Address} (holds : Holds before grammar parser)
    : Holds after grammar parser :=
  ⟨holds.1, extended.stands holds.2⟩

/-- A named grammar stands at the address that the session has for the name, by induction on the named
grammars. -/
theorem IsSound.lookup {session : Session H} (sound : session.IsSound) (name : Text)
    : Option.Rel (Stands session.store.parsers) (session.forge.named.lookup name)
        (session.parsers.lookup name) := by
  have parsers := sound.parsers
  generalize session.forge.named = grammars at parsers ⊢
  generalize session.parsers = addresses at parsers
  induction parsers with
  | nil => exact .none
  | @cons first parser rest more holds others ih =>
      obtain ⟨key, grammar⟩ := first
      obtain ⟨same, place⟩ := parser
      obtain ⟨rfl, stands⟩ := holds
      by_cases here : name = key
      · rw [here, List.lookup_cons_self, List.lookup_cons_self]
        exact .some stands
      · have other : (name == key) = false := beq_false_of_ne here
        rw [List.lookup_cons, List.lookup_cons, other]
        exact ih

/-- At the address that the session has for a name, a grammar stands. -/
theorem IsSound.stands_of_lookup {session : Session H} (sound : session.IsSound) {name : Text}
    {address : Address} (found : session.parsers.lookup name = some address)
    : ∃ grammar, Stands session.store.parsers grammar address := by
  have related := sound.lookup name
  rw [found] at related
  generalize session.forge.named.lookup name = named at related
  cases related with
  | some stands => exact ⟨_, stands⟩

/-- A context's scanner is found through its address. -/
theorem scanner?_eq_some {session : Session H} {context : Nat} {address : Address} {scanner : Scanner}
    : session.scanner? context = some (address, scanner)
      ↔ session.contexts[context]? = some address
        ∧ session.store.scanners[address]? = some scanner := by
  simp [scanner?, Option.bind_eq_some_iff]

/-- A record of the session is found through its address. -/
theorem record?_eq_some {session : Session H} {record : Nat} {address : Address} {held : MatchRecord}
    : session.record? record = some (address, held)
      ↔ session.records[record]? = some address
        ∧ session.store.records[address]? = some held := by
  simp [record?, Option.bind_eq_some_iff]

/-- A context of a seated session has a scanner, whose unit is the one under its cursor. -/
theorem IsSeated.found {session : Session H} (seated : session.IsSeated) {context : Nat}
    {address : Address} (bound : session.contexts[context]? = some address)
    : ∃ cursor, session.scanner? context = some (address, .refreshed cursor) := by
  obtain ⟨cursor, found⟩ := seated.scanners address (List.mem_of_getElem? bound)
  exact ⟨cursor, scanner?_eq_some.mpr ⟨bound, found⟩⟩

-----------------------------------------------------------------------------------------
-- The start
-----------------------------------------------------------------------------------------

/-- A new record has an address that no other record has, and is there. -/
theorem isSeated_addRecord {session : Session H} (seated : session.IsSeated)
    : session.addRecord.IsSeated where
  scanners := seated.scanners
  inside address member := by
    simp only [addRecord, List.mem_append, List.mem_singleton, List.length_append,
      List.length_singleton] at member ⊢
    rcases member with old | rfl
    · exact Nat.lt_succ_of_lt (seated.inside address old)
    · exact Nat.lt_succ_self _
  apart := by
    refine List.nodup_append.mpr ⟨seated.apart, by simp, fun old member new same => ?_⟩
    obtain rfl := List.mem_singleton.mp same
    exact Nat.ne_of_lt (seated.inside old member)

/-- A new context has a new scanner, or that of a context that is there. -/
theorem isSeated_addContext {session : Session H} (seated : session.IsSeated) (source : Source)
    : (session.addContext source).IsSeated := by
  cases source with
  | buffer value =>
      refine ⟨fun address member => ?_, seated.inside, seated.apart⟩
      rcases List.mem_append.mp member with old | new
      · obtain ⟨cursor, found⟩ := seated.scanners address old
        obtain ⟨inside, _⟩ := List.getElem?_eq_some_iff.mp found
        exact ⟨cursor, (List.getElem?_append_left inside).trans found⟩
      · obtain rfl := List.mem_singleton.mp new
        exact ⟨.start value, List.getElem?_concat_length⟩
  | shares context =>
      rw [addContext]
      split
      · next scanner found =>
        refine ⟨fun address member => ?_, seated.inside, seated.apart⟩
        rcases List.mem_append.mp member with old | new
        · exact seated.scanners address old
        · obtain rfl := List.mem_singleton.mp new
          exact seated.scanners _ (List.mem_of_getElem? found)
      · exact seated

/-- Putting a grammar into the store of a session, which nothing else of the session is affected by. -/
theorem addParser_eq (session : Session H) (name : Text) (grammar : Grammar H)
    : ∃ address store,
        session.addParser name grammar
          = { session with store, parsers := (name, address) :: session.parsers }
        ∧ Extended session.store store
        ∧ Stands store.parsers grammar address := by
  obtain ⟨address, store, placed, extended, stands⟩ := run_place grammar session.store
  exact ⟨address, store, by rw [addParser, placed], extended, stands⟩

/-- New parsers leave scanners and records as they are. -/
theorem IsSeated.extended {session after : Session H} (seated : session.IsSeated)
    (contexts : after.contexts = session.contexts) (records : after.records = session.records)
    (extended : Extended session.store after.store)
    : after.IsSeated := by
  obtain ⟨more, same⟩ := extended
  constructor
  · rw [contexts, same]
    exact seated.scanners
  · rw [records, same]
    exact seated.inside
  · rw [records]
    exact seated.apart

/-- Grammars that are put into the store of a seated session one by one, the last one first, stand
there under their names, by induction on them. -/
theorem foldr_addParser {session : Session H} (seated : session.IsSeated) (none : session.parsers = [])
    (grammars : List (Text × Grammar H))
    : let last := grammars.foldr (fun (name, grammar) session => session.addParser name grammar) session
      last.IsSeated
      ∧ last.forge = session.forge
      ∧ List.Forall₂ (Holds last.store) grammars last.parsers := by
  induction grammars with
  | nil => exact ⟨seated, rfl, none ▸ .nil⟩
  | cons first rest ih =>
      obtain ⟨name, grammar⟩ := first
      intro last
      obtain ⟨seatedRest, forge, parsers⟩ := ih
      obtain ⟨address, store, added, extended, stands⟩ := addParser_eq
        (rest.foldr (fun (name, grammar) session => session.addParser name grammar) session) name
        grammar
      have same : last = _ := added
      rw [same]
      refine ⟨seatedRest.extended rfl rfl extended, forge, .cons ⟨rfl, stands⟩ ?_⟩
      exact parsers.imp fun _ _ holds => holds.extended extended

/-- The session at a forge is sound, whatever its contexts and records.
Witness: contexts and records are added one by one, and then the grammars, the oldest first.
-/
theorem isSound_start (forge : Forge H) (sources : List Source) (records : Nat)
    : (start forge sources records).IsSound := by
  let begun (session : Session H) : Prop :=
    session.IsSeated ∧ session.parsers = [] ∧ session.forge = forge
  have withRecords : begun (Nat.repeat addRecord records ({ forge } : Session H)) := by
    induction records with
    | zero => exact ⟨⟨nofun, nofun, List.nodup_nil⟩, rfl, rfl⟩
    | succ fewer ih => exact ⟨isSeated_addRecord ih.1, ih.2⟩
  have withContext (session : Session H) (source : Source) (holds : begun session)
      : begun (session.addContext source) := by
    refine ⟨isSeated_addContext holds.1 source, ?_⟩
    cases source with
    | buffer value => exact holds.2
    | shares context =>
        rw [addContext]
        split <;> exact holds.2
  have withContexts : begun (sources.foldl addContext (Nat.repeat addRecord records { forge })) :=
    List.foldlRecOn sources addContext withRecords fun session holds source _ =>
      withContext session source holds
  obtain ⟨seated, none, forged⟩ := withContexts
  obtain ⟨seatedLast, same, parsers⟩ := foldr_addParser seated none forge.named
  refine ⟨seatedLast, ?_⟩
  rw [start, same, forged]
  exact parsers

-----------------------------------------------------------------------------------------
-- Parsing in a session
-----------------------------------------------------------------------------------------

/-- The reply to a parse that ends as given. -/
def Reply.ofEnding : Ending Unit Bool → Reply
  | .ok matched scene => .parsed (.ok matched) (.refreshed scene.cursor) scene.record
  | .error stopped scene => .parsed (.error stopped) (.refreshed scene.cursor) scene.record

/-- What a parse of a session can touch: its scanner and its record. -/
def parseReach (scanner record : Address) : Reach :=
  ⟨(· = scanner), (· = record), fun _ => False, fun _ => False⟩

/-- Watching nothing mirrors the hook that does nothing. -/
theorem mirrors_silent {site : Site H Unit} (entry : Entry)
    : Mirrors site (return ()) (Parsing.enter Hook.silent entry) :=
  fun store _ shows => .ok () shows (.refl _ store)

/-- A parse on a store, in a context that watches nothing, answers as its grammar does, and leaves the
scanner and the record that the grammar leaves; it touches nothing else that was there.
Witness: the parse mirrors that of the grammar, and reading scanner and record touches nothing.
-/
theorem run_parseAt {store : Store H} {grammar : Grammar H} {parser scanner record : Address}
    {cursor : Cursor} {held : MatchRecord} (stands : Stands store.parsers grammar parser)
    (scanned : store.scanners[scanner]? = some (.refreshed cursor))
    (recorded : store.records[record]? = some held)
    : let ending := grammar.parse Hook.silent ⟨cursor, held, ()⟩
      let last := Ending.scene ending
      ∃ after,
        parseAt parser scanner record store = .ok (.ofEnding ending) after
        ∧ after.scanners[scanner]? = some (.refreshed last.cursor)
        ∧ after.records[record]? = some last.record
        ∧ Spares (parseReach scanner record) store after := by
  let site : Site H Unit := ⟨store.parsers, scanner, record, none, fun _ _ => True⟩
  let work : Work H Bool := Store.parse ⟨scanner, fun _ => return ()⟩ parser record
  have shows : site.Shows store ⟨cursor, held, ()⟩ := ⟨rfl, scanned, recorded, trivial⟩
  have ended : Mirrored site store (work store) (grammar.parse Hook.silent ⟨cursor, held, ()⟩) :=
    @Stands.mirrors_parse H Unit site _ _ (fun _ => mirrors_silent) _ _ stands record store _ shows
  have within : site.reach.WithinOld store (parseReach scanner record) :=
    ⟨fun _ _ => id, fun _ _ => id, fun _ _ => id, fun _ _ => nofun⟩
  have told (verdict : Except Fault Bool) {after : Store H} {later : Scene Unit}
      (ran : attempt work store = .ok verdict after) (showsLater : site.Shows after later)
      : parseAt parser scanner record store
        = .ok (.parsed verdict (.refreshed later.cursor) later.record) after := by
    have read : scannerRegion.read scanner after = .ok (.refreshed later.cursor) after :=
      scannerRegion.read_eq showsLater.scanner
    have readRecord : recordRegion.read record after = .ok later.record after :=
      recordRegion.read_eq showsLater.record
    rw [parseAt, run_bind_ok ran, run_bind_ok read, run_bind_ok readRecord]
    rfl
  intro ending last
  simp only [ending, last]
  generalize left : work store = result at ended
  generalize grammar.parse Hook.silent ⟨cursor, held, ()⟩ = otherEnding at ended
  cases ended with
  | ok matched showsLater spares =>
      exact ⟨_, told (.ok matched) (by rw [attempt, left]) showsLater, showsLater.scanner,
        showsLater.record, (Spares.refl _ store).trans spares within⟩
  | error fault showsLater spares =>
      exact ⟨_, told (.error fault) (by rw [attempt, left]) showsLater, showsLater.scanner,
        showsLater.record, (Spares.refl _ store).trans spares within⟩

-----------------------------------------------------------------------------------------
-- What a step does
-----------------------------------------------------------------------------------------

namespace Step

/-- The contexts that a step works in. -/
def contexts : Step → List Nat
  | .parse _ context _ | .advance context _ | .mark context | .restore context _ => [context]
  | .read _ | .resetRecord _ | .stage .. | .set _ | .resetSettings => []

/-- The records that a step works on. -/
def records : Step → List Nat
  | .parse _ _ record | .read record | .resetRecord record => [record]
  | .advance .. | .mark _ | .restore .. | .stage .. | .set _ | .resetSettings => []

/-- The scanners that a step works on, given the scanner of each context. -/
def scannerCells (scannerOf : List Address) (step : Step) : List Address :=
  step.contexts.filterMap (scannerOf[·]?)

/-- The cells of the records that a step works on, given the cell of each record. -/
def recordCells (recordOf : List Address) (step : Step) : List Address :=
  step.records.filterMap (recordOf[·]?)

def isMark : Step → Bool
  | .mark _ => true
  | _ => false

def isStaging : Step → Bool
  | .stage .. => true
  | _ => false

def changesSettings : Step → Bool
  | .set _ | .resetSettings => true
  | _ => false

/-- All that a step can do to a session. -/
inductive Does (session : Session H) : Step → Session H → Prop
  | nothing {step : Step} : Does session step session
  | moves {step : Step} {context : Nat} {address : Address} (used : context ∈ step.contexts)
    (unmarked : step.isMark = false) (found : session.contexts[context]? = some address)
    (cursor : Cursor)
    : Does session step (session.setScanner address (.refreshed cursor))
  | parses {parser : Text} {context record : Nat} {scanner place : Address} {store : Store H}
    {cursor : Cursor} (found : session.contexts[context]? = some scanner)
    (recorded : session.records[record]? = some place)
    (left : store.scanners[scanner]? = some (.refreshed cursor))
    (spares : Store.Spares (parseReach scanner place) session.store store)
    : Does session (.parse parser context record) { session with store }
  | marks {context : Nat} (position : Position)
    : Does session (.mark context) { session with marks := session.marks ++ [position] }
  | resets {record : Nat} {address : Address} (found : session.records[record]? = some address)
    : Does session (.resetRecord record) (session.setRecord address none)
  | stages {newName name : Text} {grammar : Grammar H} {forge : Forge H} {address : Address}
    {store : Store H} (named : forge.named = (newName, grammar) :: session.forge.named)
    (extended : Extended session.store store) (stands : Stands store.parsers grammar address)
    : Does session (.stage newName name)
        { session with forge, store, parsers := (newName, address) :: session.parsers }
  | forges {step : Step} (there : step.isStaging = true ∨ step.changesSettings = true)
    {forge : Forge H} (named : forge.named = session.forge.named)
    : Does session step { session with forge }

end Step

end Session

-----------------------------------------------------------------------------------------
-- Work at the forge that keeps the names
-----------------------------------------------------------------------------------------

/-- Work at a forge after which the same grammars are there under the same names. -/
def Forge.KeepsNamed (work : Forge.Work H α) : Prop :=
  ∀ forge,
    match work forge with
    | .ok _ after | .error _ after => after.named = forge.named

/-- Returning a value names nothing. -/
theorem Forge.keepsNamed_pure (value : α) : KeepsNamed (pure value : Forge.Work H α) :=
  fun _ => rfl

/-- Work that names nothing can be followed by such work, by the way the first part ends. -/
theorem Forge.KeepsNamed.bind {work : Forge.Work H α} {next : α → Forge.Work H β}
    (keeps : KeepsNamed work) (each : ∀ value, KeepsNamed (next value))
    : KeepsNamed (work >>= next) := by
  intro forge
  have kept := keeps forge
  cases ended : work forge with
  | error fault after =>
      rw [ended] at kept
      rw [run_bind_error ended]
      exact kept
  | ok value after =>
      rw [ended] at kept
      have continued := each value after
      rw [run_bind_ok ended]
      cases last : next value after with
      | error fault later =>
          rw [last] at continued
          exact continued.trans kept
      | ok result later =>
          rw [last] at continued
          exact continued.trans kept

/-- Work at the desk is kept apart from the names of grammars. -/
theorem Forge.keepsNamed_atDesk (work : Desk.Work α) : KeepsNamed (atDesk work : Work H α) := by
  intro forge
  simp only [atDesk]
  cases work forge.desk <;> rfl

/-- Looking up a grammar names nothing, found or not. -/
theorem Forge.keepsNamed_find (name : Text) : KeepsNamed (find name : Work H (Grammar H)) := by
  intro forge
  have looked : (MonadState.get : Forge.Work H (Forge H)) forge = .ok forge forge := rfl
  rw [find, run_bind_ok looked]
  cases forge.named.lookup name <;> rfl

/-- Nor does staging one: it takes an identity and works at the desk. -/
theorem Forge.keepsNamed_stage (grammar : Grammar H) : KeepsNamed (stage grammar : Work H (Grammar H)) :=
  KeepsNamed.bind (fun _ => rfl) fun id => keepsNamed_atDesk (grammar.stage id)

namespace Session

-----------------------------------------------------------------------------------------
-- Steps of sound sessions
-----------------------------------------------------------------------------------------

/-- Work at the forge that names nothing is a change of the settings, whether it ends or stops. -/
theorem does_atForge {step : Step} (changes : step.changesSettings = true)
    {work : Forge.Work H Reply} (keeps : Forge.KeepsNamed work) (session : Session H)
    : step.Does session (session.atForge work).2 := by
  have kept := keeps session.forge
  rw [atForge]
  cases ended : work session.forge with
  | ok reply after =>
      rw [ended] at kept
      exact .forges (.inr changes) kept
  | error fault after =>
      rw [ended] at kept
      exact .forges (.inr changes) kept

/-- Staging names one more grammar, or none when it fails. -/
theorem run_stageNamed (newName name : Text) (forge : Forge H)
    : match stageNamed newName name forge with
      | .ok staged after => after.named = (newName, staged) :: forge.named
      | .error _ after => after.named = forge.named := by
  have keptFind := Forge.keepsNamed_find (H := H) name forge
  rw [stageNamed]
  cases found : Forge.find name forge with
  | error fault after =>
      rw [found] at keptFind
      rw [run_bind_error found]
      exact keptFind
  | ok grammar between =>
      rw [found] at keptFind
      have keptStage := Forge.keepsNamed_stage grammar between
      rw [run_bind_ok found]
      cases built : Forge.stage grammar between with
      | error fault after =>
          rw [built] at keptStage
          rw [run_bind_error built]
          exact keptStage.trans keptFind
      | ok staged after =>
          rw [built] at keptStage
          rw [run_bind_ok built]
          exact congrArg ((newName, staged) :: ·) (keptStage.trans keptFind)

/-- Staging under a new name puts what was staged into the store, or does nothing there when it
fails. -/
theorem does_stage (session : Session H) (newName name : Text)
    : (Step.stage newName name).Does session (session.stage newName name).2 := by
  have named := run_stageNamed newName name session.forge
  rw [Session.stage]
  cases ended : stageNamed newName name session.forge with
  | error fault after =>
      rw [ended] at named
      exact .forges (.inl rfl) named
  | ok staged after =>
      rw [ended] at named
      obtain ⟨address, store, added, extended, stands⟩ :=
        addParser_eq { session with forge := after } newName staged
      dsimp only
      rw [added]
      exact .stages named extended stands

/-- Every step of a sound session does what a step can do, by the kinds of steps; a parse runs as
the grammar does that stands at the address of its parser. -/
theorem Step.does_run {session : Session H} (sound : session.IsSound) (step : Step)
    : step.Does session (step.run session).2 := by
  cases step with
  | parse parser context record =>
      rw [run, Session.parse]
      split
      · next address scanner place named found recorded =>
        obtain ⟨grammar, stands⟩ := sound.stands_of_lookup named
        obtain ⟨cursor, scanned⟩ := sound.scanners scanner (List.mem_of_getElem? found)
        obtain ⟨held, holding⟩ : ∃ held, session.store.records[place]? = some held :=
          ⟨_, List.getElem?_eq_getElem (sound.inside place (List.mem_of_getElem? recorded))⟩
        obtain ⟨after, ran, left, -, spares⟩ := run_parseAt stands scanned holding
        rw [atStore, ran]
        exact .parses found recorded left spares
      · exact .nothing
  | advance context count =>
      simp only [run]
      split
      · next found => exact .moves List.mem_cons_self rfl (scanner?_eq_some.mp found).1 _
      · exact .nothing
  | mark context =>
      simp only [run]
      split
      · exact .marks _
      · exact .nothing
  | restore context number =>
      simp only [run]
      split
      · next address scanner position found _ =>
        rw [Scanner.moveTo]
        cases scanner.cursor.moveTo position with
        | ok moved => exact .moves List.mem_cons_self rfl (scanner?_eq_some.mp found).1 _
        | error fault => exact .nothing
      · exact .nothing
  | read record =>
      simp only [run]
      split
      · split <;> exact .nothing
      · exact .nothing
  | resetRecord record =>
      simp only [run]
      split
      · next found => exact .resets found
      · exact .nothing
  | stage newName name => exact does_stage session newName name
  | set values =>
      refine does_atForge rfl ((Forge.keepsNamed_atDesk _).bind fun _ => ?_) session
      exact (Forge.keepsNamed_atDesk _).bind fun options => Forge.keepsNamed_pure _
  | resetSettings =>
      refine does_atForge rfl ((Forge.keepsNamed_atDesk _).bind fun _ => ?_) session
      exact (Forge.keepsNamed_atDesk _).bind fun options => Forge.keepsNamed_pure _

section Does

variable {session after : Session H} {step : Step}

/-- The part of the store that a step can touch: the scanners and records that it works on. -/
def Step.reach (session : Session H) (step : Step) : Reach :=
  ⟨(· ∈ step.scannerCells session.contexts), (· ∈ step.recordCells session.records), fun _ => False,
    fun _ => False⟩

/-- A step that stages nothing keeps the addresses of a session, and touches nothing of the store but
what it works on. -/
theorem Step.Does.spares (does : step.Does session after) (unstaging : step.isStaging = false)
    : after.contexts = session.contexts
      ∧ after.records = session.records
      ∧ after.parsers = session.parsers
      ∧ Store.Spares (step.reach session) session.store after.store := by
  cases does with
  | nothing => exact ⟨rfl, rfl, rfl, .refl _ _⟩
  | @moves _ context address used unmarked found cursor =>
      have member : address ∈ step.scannerCells session.contexts :=
        List.mem_filterMap.mpr ⟨context, used, found⟩
      exact ⟨rfl, rfl, rfl, rfl, .set _ member _, .refl _ _, .refl _ _, .refl _ _⟩
  | @parses parser context record scanner place store cursor found recorded left spares =>
      have within : (parseReach scanner place).WithinOld session.store
          (Step.reach session (.parse parser context record)) := by
        refine ⟨fun address _ same => ?_, fun address _ same => ?_, fun _ _ => id, fun _ _ => id⟩
        · exact List.mem_filterMap.mpr ⟨context, List.mem_cons_self, same ▸ found⟩
        · exact List.mem_filterMap.mpr ⟨record, List.mem_cons_self, same ▸ recorded⟩
      exact ⟨rfl, rfl, rfl, (Store.Spares.refl _ _).trans spares within⟩
  | marks position => exact ⟨rfl, rfl, rfl, .refl _ _⟩
  | @resets record address found =>
      have member : address ∈ (Step.resetRecord record).recordCells session.records :=
        List.mem_filterMap.mpr ⟨record, List.mem_cons_self, found⟩
      exact ⟨rfl, rfl, rfl, rfl, .refl _ _, .set _ member _, .refl _ _, .refl _ _⟩
  | stages => cases unstaging
  | forges there named => exact ⟨rfl, rfl, rfl, .refl _ _⟩

/-- A session stays seated if it keeps its addresses and the scanners there stay in step. -/
theorem IsSeated.later (seated : session.IsSeated) (contexts : after.contexts = session.contexts)
    (records : after.records = session.records)
    (longer : session.store.records.length ≤ after.store.records.length)
    (fresh
      : ∀ address ∈ session.contexts,
          ∃ cursor, after.store.scanners[address]? = some (.refreshed cursor))
    : after.IsSeated where
  scanners := contexts ▸ fresh
  inside address member := Nat.lt_of_lt_of_le (seated.inside address (records ▸ member)) longer
  apart := records ▸ seated.apart

/-- Sound sessions stay sound, by what a step can do. -/
theorem Step.Does.isSound (does : step.Does session after) (sound : session.IsSound)
    : after.IsSound := by
  have seated := sound.toIsSeated
  cases does with
  | nothing => exact sound
  | @moves _ context address used unmarked found cursor =>
      refine ⟨seated.later rfl rfl (Nat.le_refl _) fun other member => ?_, sound.parsers⟩
      obtain ⟨before, held⟩ := sound.scanners other member
      by_cases same : address = other
      · obtain ⟨inside, _⟩ := List.getElem?_eq_some_iff.mp held
        exact ⟨cursor, same ▸ List.getElem?_set_self (same ▸ inside)⟩
      · exact ⟨before, (List.getElem?_set_ne same).trans held⟩
  | @parses parser context record scanner place store cursor found recorded left spares =>
      refine ⟨seated.later rfl rfl spares.records.length fun other member => ?_, ?_⟩
      · obtain ⟨before, held⟩ := sound.scanners other member
        by_cases same : other = scanner
        · exact ⟨cursor, same ▸ left⟩
        · exact ⟨before, spares.scanners.held same held⟩
      · exact sound.parsers.imp fun _ _ holds => ⟨holds.1, spares.parsers ▸ holds.2⟩
  | marks position => exact ⟨seated.later rfl rfl (Nat.le_refl _) sound.scanners, sound.parsers⟩
  | resets found =>
      exact ⟨seated.later rfl rfl (Nat.le_of_eq List.length_set.symm) sound.scanners, sound.parsers⟩
  | stages named extended stands =>
      refine ⟨seated.extended rfl rfl extended, ?_⟩
      rw [named]
      exact .cons ⟨rfl, stands⟩ (sound.parsers.imp fun _ _ holds => holds.extended extended)
  | forges there named =>
      refine ⟨seated.later rfl rfl (Nat.le_refl _) sound.scanners, ?_⟩
      rw [named]
      exact sound.parsers

/-- Only marking steps change the marks. -/
theorem Step.Does.marks_of_unmarked (does : step.Does session after) (unmarked : step.isMark = false)
    : after.marks = session.marks := by
  cases does with
  | marks position => cases unmarked
  | _ => rfl

/-- A step that makes no mark, stages nothing and changes no settings leaves all but the store as it
is. -/
theorem Step.Does.eq_withStore (does : step.Does session after) (unmarked : step.isMark = false)
    (unstaging : step.isStaging = false) (settled : step.changesSettings = false)
    : after = { session with store := after.store } := by
  cases does with
  | marks position => cases unmarked
  | stages => cases unstaging
  | forges there named => simp [unstaging, settled] at there
  | _ => rfl

end Does

/-- Every step keeps a session sound. -/
theorem IsSound.run {session : Session H} (sound : session.IsSound) (step : Step)
    : (step.run session).2.IsSound :=
  (step.does_run sound).isSound sound

-----------------------------------------------------------------------------------------
-- Sessions that can be reached
-----------------------------------------------------------------------------------------

/-- The sessions that steps lead to, from any start. -/
inductive IsReached : Session H → Prop
  | start (forge : Forge H) (sources : List Source) (records : Nat)
    : IsReached (start forge sources records)
  | step {session : Session H} (reached : session.IsReached) (step : Step)
    : IsReached (step.run session).2

/-- Every session that can be reached is sound, by induction on the steps. -/
theorem IsReached.isSound {session : Session H} (reached : session.IsReached) : session.IsSound := by
  induction reached with
  | start forge sources records => exact isSound_start forge sources records
  | step reached step ih => exact ih.run step

end Session

end StagedParser
