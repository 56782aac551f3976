import StagedParser.Proofs.Cursor.Scanning
import StagedParser.Proofs.Parsing.Records
import StagedParser.Store.Parse

/-! Work on a store and parsing in a scene.
A parse stands at a site of the store: at a scanner, a record, and the notes of its hook. Work mirrors
parsing if it ends alike whenever the site shows the scene, and touches nothing of the store but what
is at the site; what it adds is new.
-/

namespace StagedParser

namespace Store

variable {H : Host} {σ α β : Type}

-----------------------------------------------------------------------------------------
-- What is spared
-----------------------------------------------------------------------------------------

/-- Later cells of a region: none is gone, and those that are not `touched` are as they were. -/
structure Grown (touched : Address → Prop) (before after : List α) : Prop where
  length : before.length ≤ after.length
  same : ∀ address < before.length, ¬ touched address → after[address]? = before[address]?

namespace Grown

variable {touched more : Address → Prop} {before between after : List α}

/-- Nothing grows without work. -/
theorem refl (touched : Address → Prop) (cells : List α) : Grown touched cells cells :=
  ⟨Nat.le_refl _, fun _ _ _ => rfl⟩

/-- Growth composes, provided that the later one touches of the old cells only what the earlier one
may touch. -/
theorem trans (first : Grown touched before between) (second : Grown more between after)
    (old : ∀ address < before.length, more address → touched address)
    : Grown touched before after where
  length := Nat.le_trans first.length second.length
  same address inside spared := by
    have still : ¬ more address := fun touches => spared (old address inside touches)
    rw [second.same address (Nat.lt_of_lt_of_le inside first.length) still,
      first.same address inside spared]

/-- Setting a cell that may be touched grows nothing and leaves the others as they are. -/
theorem set (cells : List α) {address : Address} (member : touched address) (cell : α)
    : Grown touched cells (cells.set address cell) where
  length := Nat.le_of_eq List.length_set.symm
  same other inside spared := by
    have different : address ≠ other := fun same => spared (same ▸ member)
    exact List.getElem?_set_ne different

/-- A new cell leaves the old ones as they are. -/
theorem add (touched : Address → Prop) (cells : List α) (cell : α)
    : Grown touched cells (cells ++ [cell]) where
  length := by simp
  same address inside spared := List.getElem?_append_left inside

/-- What a cell holds that is not touched, it still holds later. -/
theorem held (grown : Grown touched before after) {address : Address} {cell : α}
    (spared : ¬ touched address) (found : before[address]? = some cell)
    : after[address]? = some cell := by
  obtain ⟨inside, _⟩ := List.getElem?_eq_some_iff.mp found
  rw [grown.same address inside spared, found]

end Grown

/-- Cells that may be touched. -/
structure Reach where
  scanners : Address → Prop
  records : Address → Prop
  frames : Address → Prop
  journals : Address → Prop

/-- A later store: parsers are as they were, and so is everything out of reach. -/
structure Spares (reach : Reach) (before after : Store H) : Prop where
  parsers : after.parsers = before.parsers
  scanners : Grown reach.scanners before.scanners after.scanners
  records : Grown reach.records before.records after.records
  frames : Grown reach.frames before.frames after.frames
  journals : Grown reach.journals before.journals after.journals

/-- Nothing old is in one reach that is not in another. -/
structure Reach.WithinOld (store : Store H) (inner outer : Reach) : Prop where
  scanners : ∀ address < store.scanners.length, inner.scanners address → outer.scanners address
  records : ∀ address < store.records.length, inner.records address → outer.records address
  frames : ∀ address < store.frames.length, inner.frames address → outer.frames address
  journals : ∀ address < store.journals.length, inner.journals address → outer.journals address

/-- A store spares everything of itself. -/
theorem Spares.refl (reach : Reach) (store : Store H) : Spares reach store store :=
  ⟨rfl, .refl _ _, .refl _ _, .refl _ _, .refl _ _⟩

/-- What is spared twice is spared, if the second time nothing old was touched but what was in reach
already. -/
theorem Spares.trans {reach inner : Reach} {before between after : Store H}
    (first : Spares reach before between) (second : Spares inner between after)
    (within : inner.WithinOld before reach)
    : Spares reach before after where
  parsers := second.parsers.trans first.parsers
  scanners := first.scanners.trans second.scanners within.scanners
  records := first.records.trans second.records within.records
  frames := first.frames.trans second.frames within.frames
  journals := first.journals.trans second.journals within.journals

/-- What is in reach is in reach. -/
theorem Reach.WithinOld.refl (store : Store H) (reach : Reach) : reach.WithinOld store reach :=
  ⟨fun _ _ => id, fun _ _ => id, fun _ _ => id, fun _ _ => id⟩

-----------------------------------------------------------------------------------------
-- Sites
-----------------------------------------------------------------------------------------

/-- Where a parse stands in a store with the given parsers: its scanner, its record, the journal of its
hook, if it keeps one, and how journals show the notes of the hook. -/
structure Site (H : Host) (σ : Type) where
  parsers : List (Parser H)
  scanner : Address
  record : Address
  journal : Option Address
  noted : List Journal → σ → Prop

namespace Site

/-- The same site with another record. -/
def on (site : Site H σ) (record : Address) : Site H σ :=
  { site with record }

/-- What a parse may touch: its own scanner, record and journal. -/
def reach (site : Site H σ) : Reach where
  scanners address := address = site.scanner
  records address := address = site.record
  frames _ := False
  journals address := site.journal = some address

/-- The site of the store shows the scene. -/
structure Shows (site : Site H σ) (store : Store H) (scene : Scene σ) : Prop where
  parsers : store.parsers = site.parsers
  scanner : store.scanners[site.scanner]? = some (.refreshed scene.cursor)
  record : store.records[site.record]? = some scene.record
  notes : site.noted store.journals scene.notes

variable {site : Site H σ} {store : Store H} {scene : Scene σ}

/-- Putting a scanner at the site shows in the cursor of the scene. -/
theorem Shows.setScanner (shows : site.Shows store scene) (cursor : Cursor)
    : site.Shows { store with scanners := store.scanners.set site.scanner (.refreshed cursor) }
        { scene with cursor } where
  parsers := shows.parsers
  scanner := by
    obtain ⟨inside, _⟩ := List.getElem?_eq_some_iff.mp shows.scanner
    exact List.getElem?_set_self inside
  record := shows.record
  notes := shows.notes

/-- Putting a record at the site shows in the record of the scene. -/
theorem Shows.setRecord (shows : site.Shows store scene) (held : MatchRecord)
    : site.Shows { store with records := store.records.set site.record held }
        { scene with record := held } where
  parsers := shows.parsers
  scanner := shows.scanner
  record := by
    obtain ⟨inside, _⟩ := List.getElem?_eq_some_iff.mp shows.record
    exact List.getElem?_set_self inside
  notes := shows.notes

/-- Putting a scanner at the site touches nothing else. -/
theorem spares_setScanner (site : Site H σ) (store : Store H) (scanner : Scanner)
    : Spares site.reach store
        { store with scanners := store.scanners.set site.scanner scanner } :=
  ⟨rfl, .set _ (show site.reach.scanners site.scanner from rfl) _, .refl _ _, .refl _ _, .refl _ _⟩

/-- Putting a record there touches nothing else. -/
theorem spares_setRecord (site : Site H σ) (store : Store H) (held : MatchRecord)
    : Spares site.reach store { store with records := store.records.set site.record held } :=
  ⟨rfl, .refl _ _, .set _ (show site.reach.records site.record from rfl) _, .refl _ _, .refl _ _⟩

end Site

/-- Reading a cell gives what it holds and leaves the store as it is. -/
theorem Region.read_eq (region : Region H α) {store : Store H} {address : Address} {cell : α}
    (found : (region.cells store)[address]? = some cell)
    : region.read address store = .ok cell store := by
  rw [read, found]

-----------------------------------------------------------------------------------------
-- Mirroring
-----------------------------------------------------------------------------------------

/-- How work on a store ends, started in the given one, when parsing ends as it does: with the same
result or the same fault, with the site showing the scene that is left, and with everything else
spared. -/
inductive Mirrored (site : Site H σ) (store : Store H)
    : EStateM.Result Fault (Store H) α → Ending σ α → Prop
  | ok (value : α) {after : Store H} {later : Scene σ} (shows : site.Shows after later)
    (spares : Spares site.reach store after)
    : Mirrored site store (.ok value after) (.ok value later)
  | error (fault : Fault) {after : Store H} {later : Scene σ} (shows : site.Shows after later)
    (spares : Spares site.reach store after)
    : Mirrored site store (.error fault after) (.error fault later)

/-- Work that ends as parsing does whenever the site shows the scene. -/
def Mirrors (site : Site H σ) (work : Work H α) (parsing : Parsing σ α) : Prop :=
  ∀ store scene, site.Shows store scene → Mirrored site store (work store) (parsing scene)

section Sequences

variable {site : Site H σ}

/-- Returning a value touches nothing, on either side. -/
theorem mirrors_pure (value : α) : Mirrors site (pure value) (pure value) :=
  fun store _ shows => .ok value shows (.refl _ store)

/-- A fault ends both sides alike. -/
theorem mirrors_throw (fault : Fault)
    : Mirrors site (throw fault : Work H α) (Parsing.ofResult (.error fault)) :=
  fun store _ shows => .error fault shows (.refl _ store)

/-- So does a result that is already there, by whether it is a fault. -/
theorem mirrors_give (result : Except Fault α)
    : Mirrors site (give result) (Parsing.ofResult result) := by
  cases result with
  | ok value => exact mirrors_pure value
  | error fault => exact mirrors_throw fault

/-- What was spared before stays spared. -/
theorem Mirrored.after {store between : Store H} {ending : EStateM.Result Fault (Store H) α}
    {other : Ending σ α} (spares : Spares site.reach store between)
    (mirrored : Mirrored site between ending other)
    : Mirrored site store ending other := by
  cases mirrored with
  | ok value shows more => exact .ok value shows (spares.trans more (.refl _ _))
  | error fault shows more => exact .error fault shows (spares.trans more (.refl _ _))

/-- Pieces that mirror each other make work that does, by the way the first of them ends. -/
theorem Mirrors.bind {work : Work H α} {parsing : Parsing σ α} {next : α → Work H β}
    {otherNext : α → Parsing σ β} (first : Mirrors site work parsing)
    (each : ∀ value, Mirrors site (next value) (otherNext value))
    : Mirrors site (work >>= next) (parsing >>= otherNext) := by
  intro store scene shows
  have ended := first store scene shows
  generalize left : work store = ending at ended
  generalize right : parsing scene = otherEnding at ended
  cases ended with
  | ok value shows spares =>
      rw [run_bind_ok left, run_bind_ok right]
      exact (each value _ _ shows).after spares
  | error fault shows spares =>
      rw [run_bind_error left, run_bind_error right]
      exact .error fault shows spares

/-- Catching a fault mirrors catching it, by the way the work ends. -/
theorem Mirrors.attempt {work : Work H α} {parsing : Parsing σ α}
    (mirrors : Mirrors site work parsing)
    : Mirrors site (attempt work) (Parsing.attempt parsing) := by
  intro store scene shows
  have ended := mirrors store scene shows
  simp only [Store.attempt, Parsing.attempt]
  generalize work store = ending at ended
  generalize parsing scene = otherEnding at ended
  cases ended with
  | ok value shows spares => exact .ok _ shows spares
  | error fault shows spares => exact .ok _ shows spares

end Sequences

-----------------------------------------------------------------------------------------
-- What parsing is made of
-----------------------------------------------------------------------------------------

section Parts

variable {site : Site H σ} {watch : Entry → Work H Unit} {hook : Hook σ}

/-- Work that starts by looking at the scanner. -/
theorem mirrors_readScanner {next : Scanner → Work H α} {parsing : Parsing σ α}
    (each
      : ∀ store scene,
          site.Shows store scene
          → Mirrored site store (next (.refreshed scene.cursor) store) (parsing scene))
    : Mirrors site (scannerRegion.read site.scanner >>= next) parsing := by
  intro store scene shows
  rw [run_bind_ok (scannerRegion.read_eq shows.scanner)]
  exact each store scene shows

/-- Looking at the cursor of the scanner mirrors looking at that of the scene. -/
theorem mirrors_cursor : Mirrors site (Context.cursor ⟨site.scanner, watch⟩) Parsing.cursor :=
  mirrors_readScanner fun store _ shows => .ok _ shows (.refl _ store)

/-- So does looking at its position. -/
theorem mirrors_position
    : Mirrors site (Context.position ⟨site.scanner, watch⟩) Parsing.position :=
  mirrors_readScanner fun store _ shows => .ok _ shows (.refl _ store)

/-- Reading the record of the site mirrors looking at that of the scene. -/
theorem mirrors_record : Mirrors site (recordRegion.read site.record) Parsing.record := by
  intro store scene shows
  rw [recordRegion.read_eq shows.record]
  exact .ok _ shows (.refl _ store)

/-- Setting the record of the site mirrors setting that of the scene. -/
theorem mirrors_write (held : MatchRecord)
    : Mirrors site (recordRegion.write site.record held) (Parsing.write held) :=
  fun store _ shows => .ok () (shows.setRecord held) (site.spares_setRecord store held)

/-- What uses the scanner mirrors what uses the cursor, if a scanner in step with its cursor does what
the cursor does. -/
theorem mirrors_use {action : Scanner → Except Fault α × Scanner} {parsing : Parsing σ α}
    (step : Cursor → Except Fault α × Cursor)
    (follows : ∀ cursor, action (.refreshed cursor) = ((step cursor).1, .refreshed (step cursor).2))
    (does
      : ∀ scene,
          parsing scene = Parsing.ofResult (step scene.cursor).1
            { scene with cursor := (step scene.cursor).2 })
    : Mirrors site (use site.scanner action) parsing := by
  refine mirrors_readScanner fun store scene shows => ?_
  have put := shows.setScanner (step scene.cursor).2
  have spares := site.spares_setScanner store (.refreshed (step scene.cursor).2)
  rw [does, follows]
  exact (mirrors_give (step scene.cursor).1 _ _ put).after spares

/-- Moving the scanner mirrors moving the cursor, by whether the move can be made. -/
theorem mirrors_move (step : Move)
    : Mirrors site (Context.move ⟨site.scanner, watch⟩ step) (Parsing.move step) := by
  refine mirrors_use (·.attempt step) (fun cursor => Scanner.apply_refreshed cursor step)
    (fun scene => ?_)
  simp only [Parsing.move, Cursor.attempt]
  cases scene.cursor.apply step <;> rfl

/-- Taking a text with the scanner mirrors taking it with the cursor. -/
theorem mirrors_takeText (text : Text) (ignoreCase : Bool)
    : Mirrors site (Context.takeText ⟨site.scanner, watch⟩ text ignoreCase)
        (Parsing.takeText text ignoreCase) := by
  refine mirrors_use
    (fun cursor => (.ok (cursor.takeText text ignoreCase).1, (cursor.takeText text ignoreCase).2))
    (fun cursor => ?_) (fun scene => rfl)
  simp only [Scanner.takeText_refreshed]

/-- So does taking a run of units, by whether a fault stops it. -/
theorem mirrors_takeWhile (test : CodeUnit → Except Fault Bool) (min max : Int)
    : Mirrors site (Context.takeWhile ⟨site.scanner, watch⟩ test min max)
        (Parsing.takeWhile test min max) := by
  refine mirrors_use (·.takeWhile test min max)
    (fun cursor => Scanner.takeWhile_refreshed cursor test min max)
    (fun scene => ?_)
  simp only [Parsing.takeWhile]
  rcases scene.cursor.takeWhile test min max with ⟨fault | taken, cursor⟩ <;> rfl

/-- Setting the record to what was taken mirrors doing so in the scene, by whether anything was. -/
theorem mirrors_settle (start : Position) (taken : Option Text)
    : Mirrors site (settle ⟨site.scanner, watch⟩ site.record start taken)
        (Parsing.settle start taken) := by
  cases taken with
  | none => exact mirrors_pure false
  | some taken =>
      exact mirrors_position.bind fun stop => (mirrors_write _).bind fun _ => mirrors_pure true

/-- Work on a record that is added for it mirrors parsing on an unset record: the record is new, so
nothing of the site is touched by it. -/
theorem mirrors_onNewRecord {work : Address → Work H α} {parsing : Parsing σ α}
    (each : ∀ own, Mirrors (site.on own) (work own) parsing)
    : Mirrors site (onNewRecord work) (Parsing.onRecord none parsing) := by
  intro store scene shows
  let own := store.records.length
  let added : Store H := { store with records := store.records ++ [none] }
  obtain ⟨inside, _⟩ := List.getElem?_eq_some_iff.mp shows.record
  have begun : (site.on own).Shows added { scene with record := none } :=
    ⟨shows.parsers, shows.scanner, List.getElem?_concat_length, shows.notes⟩
  have grown : Spares site.reach store added :=
    ⟨rfl, .refl _ _, .add _ _ _, .refl _ _, .refl _ _⟩
  have within : (site.on own).reach.WithinOld store site.reach :=
    ⟨fun _ _ => id, fun address old same => absurd (same ▸ old) (Nat.lt_irrefl _), fun _ _ => id,
      fun _ _ => id⟩
  have apart : ¬ (site.on own).reach.records site.record :=
    fun same => absurd (same ▸ inside) (Nat.lt_irrefl _)
  -- Afterwards the record of the site is what it was before, and the new one holds what was left.
  have back {after : Store H} {later : Scene σ} (showsOwn : (site.on own).Shows after later)
      (spares : Spares (site.on own).reach added after)
      : site.Shows after { later with record := scene.record }
        ∧ Spares site.reach store after := by
    refine ⟨⟨showsOwn.parsers, showsOwn.scanner, ?_, showsOwn.notes⟩, grown.trans spares within⟩
    refine spares.records.held apart ?_
    rw [List.getElem?_append_left inside, shows.record]
  change Mirrored site store ((work own >>= fun value => do
    return (value, ← recordRegion.read own)) added) _
  have ended := each own added _ begun
  simp only [Parsing.onRecord]
  generalize left : work own added = ending at ended
  generalize parsing { scene with record := none } = otherEnding at ended
  cases ended with
  | @ok value after later showsOwn spares =>
      obtain ⟨showsBack, sparesBack⟩ := back showsOwn spares
      have found : recordRegion.read own after = .ok later.record after :=
        recordRegion.read_eq showsOwn.record
      rw [run_bind_ok left, run_bind_ok found]
      exact .ok _ showsBack sparesBack
  | error fault showsOwn spares =>
      obtain ⟨showsBack, sparesBack⟩ := back showsOwn spares
      rw [run_bind_error left]
      exact .error fault showsBack sparesBack

/-- Converting the value of a parser mirrors doing so in the scene, if the parser mirrors parsing
on every record. -/
theorem mirrors_converting (conversion : Conversion H) {work : Address → Work H Bool}
    {parsing : Parsing σ Bool} (each : ∀ own, Mirrors (site.on own) (work own) parsing)
    : Mirrors site (converting conversion site.record work)
        (Parsing.converting conversion parsing) := by
  refine (mirrors_onNewRecord each).bind fun (matched, inner) => ?_
  cases matched with
  | false => exact mirrors_pure false
  | true =>
      refine (mirrors_give inner.read).bind fun found => ?_
      refine (mirrors_give (conversion.apply found.value)).bind fun value => ?_
      exact (mirrors_write _).bind fun _ => mirrors_pure true

/-- What a parser from outside does on the store mirrors what it does in the scene, by induction on its
conduct. -/
theorem mirrors_conduct
    (watches : ∀ entry, Mirrors site (watch entry) (Parsing.enter hook entry)) (conduct : Conduct)
    : Mirrors site (conduct.runOn ⟨site.scanner, watch⟩ site.record) (conduct.run hook) := by
  induction conduct with
  | finish matched => exact mirrors_pure matched
  | raise fault => exact mirrors_throw fault
  | observe next ih =>
      exact mirrors_cursor.bind fun cursor => mirrors_record.bind fun record => ih cursor record
  | move step next ih => exact (mirrors_move step).bind fun _ => ih
  | write record next ih => exact (mirrors_write record).bind fun _ => ih
  | enter entry next ih =>
      rw [Conduct.runOn, Conduct.run]
      refine (watches entry).attempt.bind fun result => ?_
      cases result with
      | ok _ => exact ih none
      | error fault => exact ih (some fault)

end Parts

end Store

end StagedParser
