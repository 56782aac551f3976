import StagedParser.Proofs.Code.Tidy
import StagedParser.Proofs.Store.Mirroring

/-! Running generated code on a store.
A call runs as the same code does in the scene: its frame holds what the locals hold, and the records
that it makes, each held by one local, are new. Nothing of it can be reached from the site afterwards.
-/

namespace StagedParser

open Code

namespace Store

variable {H : Host} {σ α β : Type}

-----------------------------------------------------------------------------------------
-- Frames and locals
-----------------------------------------------------------------------------------------

/-- What a local of a frame holds is what a local of the scene holds; a record is held by an address
from `first` on. -/
inductive Datum.Stands (first : Nat) (records : List MatchRecord) : Datum → Code.Datum → Prop
  | value (held : Value) : Stands first records (.value held) (.value held)
  | position (held : Position) : Stands first records (.position held) (.position held)
  | record {address : Address} {held : MatchRecord} (new : first ≤ address)
    (found : records[address]? = some held)
    : Stands first records (.record address) (.record held)

/-- The locals of a frame hold what the locals of the scene hold. Records are held by locals for
records, and no two of them hold the same one. -/
structure Frame.Stands (first : Nat) (records : List MatchRecord) (frame : Frame) (locals : Locals)
    : Prop where
  data
    : ∀ name, Option.Rel (Datum.Stands first records) (List.lookup name frame) (locals.get? name)
  named : ∀ {name held}, locals.get? name = some (.record held) → name.base = recordBase
  apart
    : ∀ {name other address},
        List.lookup name frame = some (.record address)
        → List.lookup other frame = some (.record address)
        → name = other

/-- A datum that can be given to a local: a record only if it is new and the local is for records. -/
inductive Datum.Offered (first : Nat) (records : List MatchRecord) (frame : Frame) (target : Name)
    : Datum → Code.Datum → Prop
  | value (held : Value) : Offered first records frame target (.value held) (.value held)
  | position (held : Position) : Offered first records frame target (.position held) (.position held)
  | record {address : Address} {held : MatchRecord} (new : first ≤ address)
    (found : records[address]? = some held) (named : target.base = recordBase)
    (apart : ∀ name, List.lookup name frame ≠ some (.record address))
    : Offered first records frame target (.record address) (.record held)

section Frames

variable {first : Nat} {records more : List MatchRecord} {frame : Frame} {locals : Locals}

/-- What a local is offered on both sides is the same on both sides. -/
theorem Datum.Offered.stands {target : Name} {datum : Datum} {other : Code.Datum}
    (offered : datum.Offered first records frame target other)
    : datum.Stands first records other := by
  cases offered with
  | value held => exact .value held
  | position held => exact .position held
  | record new found => exact .record new found

/-- What is held by new records stays so as long as they are kept. -/
theorem Datum.Stands.later {datum : Datum} {other : Code.Datum}
    (stands : datum.Stands first records other)
    (kept
      : ∀ address held,
          first ≤ address → records[address]? = some held → more[address]? = some held)
    : datum.Stands first more other := by
  cases stands with
  | value held => exact .value held
  | position held => exact .position held
  | record new found => exact .record new (kept _ _ new found)

/-- So do the locals of a frame, one by one. -/
theorem Frame.Stands.later (stands : frame.Stands first records locals)
    (kept
      : ∀ address held,
          first ≤ address → records[address]? = some held → more[address]? = some held)
    : frame.Stands first more locals where
  data name := by
    have here := stands.data name
    generalize List.lookup name frame = held at here
    generalize locals.get? name = other at here
    cases here with
    | none => exact .none
    | some datum => exact .some (datum.later kept)
  named := stands.named
  apart := stands.apart

/-- Giving a local of a frame something leaves the other locals alone. -/
theorem Frame.lookup_of_ne (frame : Frame) (datum : Datum) {name target : Name} (differ : name ≠ target)
    : List.lookup name ((target, datum) :: frame) = List.lookup name frame := by
  have other : (name == target) = false := by simpa using differ
  rw [List.lookup_cons, other]

/-- What is offered to a local is held by no other. -/
theorem Datum.Offered.apart {target : Name} {datum : Datum} {other : Code.Datum} {address : Address}
    (offered : datum.Offered first records frame target other) (same : datum = .record address)
    (name : Name)
    : List.lookup name frame ≠ some (.record address) := by
  cases offered with
  | value | position => cases same
  | record new found named apart =>
      cases same
      exact apart name

/-- A local can be given what it is offered. -/
theorem Frame.Stands.set (stands : frame.Stands first records locals) {target : Name} {datum : Datum}
    {other : Code.Datum} (offered : datum.Offered first records frame target other)
    : Frame.Stands first records ((target, datum) :: frame) (locals.set target other) where
  data name := by
    by_cases same : name = target
    · rw [same, Locals.get?_set_self, List.lookup_cons_self]
      exact .some offered.stands
    · rw [Locals.get?_set_of_ne locals other same, lookup_of_ne frame datum same]
      exact stands.data name
  named {name held} found := by
    by_cases same : name = target
    · rw [same, Locals.get?_set_self] at found
      cases found
      cases offered with
      | record new found named apart => exact same ▸ named
    · rw [Locals.get?_set_of_ne locals other same] at found
      exact stands.named found
  apart {name twin address} found foundTwin := by
    by_cases same : name = target
    · by_cases sameTwin : twin = target
      · rw [same, sameTwin]
      · rw [same, List.lookup_cons_self] at found
        rw [lookup_of_ne frame datum sameTwin] at foundTwin
        exact absurd foundTwin (offered.apart (Option.some.inj found) twin)
    · rw [lookup_of_ne frame datum same] at found
      by_cases sameTwin : twin = target
      · rw [sameTwin, List.lookup_cons_self] at foundTwin
        exact absurd found (offered.apart (Option.some.inj foundTwin) name)
      · rw [lookup_of_ne frame datum sameTwin] at foundTwin
        exact stands.apart found foundTwin

end Frames

-----------------------------------------------------------------------------------------
-- Running calls
-----------------------------------------------------------------------------------------

/-- A call that runs, since the store was `origin`: the site shows the scene, nothing else of the old
store was touched, and the frame of the call, which is new, holds what the locals hold. -/
structure Running (site : Site H σ) (origin : Store H) (frame : Address) (store : Store H)
    (scene : Scene σ) (locals : Locals) : Prop where
  shows : site.Shows store scene
  spares : Spares site.reach origin store
  caller : site.record < origin.records.length
  new : origin.frames.length ≤ frame
  held
    : ∃ cells,
        store.frames[frame]? = some cells
        ∧ Frame.Stands origin.records.length store.records cells locals

section Running

variable {site : Site H σ} {origin store after : Store H} {frame : Address} {scene reached : Scene σ}
  {locals : Locals}

/-- What mirrors parsing at the site does not reach the frame, nor the records that it holds. -/
theorem Running.later (runs : Running site origin frame store scene locals)
    (shows : site.Shows after reached) (spares : Spares site.reach store after)
    : Running site origin frame after reached locals where
  shows := shows
  spares := runs.spares.trans spares (.refl _ _)
  caller := runs.caller
  new := runs.new
  held := by
    obtain ⟨cells, found, stands⟩ := runs.held
    refine ⟨cells, spares.frames.held not_false found, stands.later fun address held new inside => ?_⟩
    refine spares.records.held (fun same => ?_) inside
    exact absurd runs.caller (Nat.not_lt.mpr (same ▸ new))

/-- Giving a local of the frame something that it is offered. -/
theorem Running.set {call : Call H} (runs : Running site origin call.frame store scene locals)
    {target : Name} {datum : Datum} {other : Code.Datum}
    (offered
      : ∀ cells,
          store.frames[call.frame]? = some cells
          → datum.Offered origin.records.length store.records cells target other)
    : ∃ after,
        call.set target datum store = .ok () after
        ∧ Running site origin call.frame after scene (locals.set target other) := by
  obtain ⟨cells, found, stands⟩ := runs.held
  obtain ⟨inside, _⟩ := List.getElem?_eq_some_iff.mp found
  let next := store.frames.set call.frame ((target, datum) :: cells)
  have put : call.set target datum store = .ok () { store with frames := next } := by
    rw [Call.set, run_bind_ok (frameRegion.read_eq found)]
    rfl
  refine ⟨_, put, ⟨runs.shows.parsers, runs.shows.scanner, runs.shows.record, runs.shows.notes⟩, ?_,
    runs.caller, runs.new, _, List.getElem?_set_self inside, stands.set (offered cells found)⟩
  have touched : Grown (fun address => address = call.frame) store.frames next := .set _ (by rfl) _
  have old (address : Address) (below : address < origin.frames.length) (same : address = call.frame)
      : site.reach.frames address :=
    absurd runs.new (Nat.not_le.mpr (same ▸ below))
  exact { runs.spares with frames := runs.spares.frames.trans touched old }

/-- Declaring locals, by induction on their names. -/
theorem Running.declare {call : Call H} (runs : Running site origin call.frame store scene locals)
    (names : List Name)
    : ∃ after,
        call.declare names store = .ok () after
        ∧ Running site origin call.frame after scene (locals.declare names) := by
  induction names generalizing store locals with
  | nil => exact ⟨store, rfl, runs⟩
  | cons name rest ih =>
      obtain ⟨between, put, running⟩ := runs.set fun _ _ => .value .absent
      obtain ⟨after, declared, last⟩ := ih running
      refine ⟨after, ?_, last⟩
      rw [Call.declare, run_bind_ok put]
      exact declared

/-- Making a record, which no local holds yet. -/
theorem Running.add (runs : Running site origin frame store scene locals) {target : Name}
    (named : target.base = recordBase)
    : let address := store.records.length
      let added : Store H := { store with records := store.records ++ [none] }
      Running site origin frame added scene locals
      ∧ ∀ cells,
          store.frames[frame]? = some cells
          → Datum.Offered origin.records.length added.records cells target (.record address)
              (.record none) := by
  intro address added
  have grown : Grown (· = site.record) store.records added.records := .add _ _ _
  have kept (old : Address) (held : MatchRecord) (inside : store.records[old]? = some held)
      : added.records[old]? = some held := by
    obtain ⟨bound, _⟩ := List.getElem?_eq_some_iff.mp inside
    rw [List.getElem?_append_left bound, inside]
  obtain ⟨cells, found, stands⟩ := runs.held
  refine ⟨⟨⟨runs.shows.parsers, runs.shows.scanner, kept _ _ runs.shows.record, runs.shows.notes⟩,
    { runs.spares with records := runs.spares.records.trans grown fun _ _ => id }, runs.caller,
    runs.new, cells, found, stands.later fun old held _ => kept old held⟩, ?_⟩
  intro others same
  cases found.symm.trans same
  refine .record runs.spares.records.length List.getElem?_concat_length named fun name holds => ?_
  have data := stands.data name
  rw [holds] at data
  generalize locals.get? name = other at data
  -- A local that holds this address would hold a record that is already there.
  cases data with
  | some datum =>
      cases datum with
      | record new inside =>
          obtain ⟨bound, _⟩ := List.getElem?_eq_some_iff.mp inside
          exact absurd bound (Nat.lt_irrefl _)

end Running

-----------------------------------------------------------------------------------------
-- Looking
-----------------------------------------------------------------------------------------

/-- Endings that leave store and scene as they are, with results that agree or with the same fault. -/
inductive Looked (store : Store H) (scene : Scene σ) (agree : α → β → Prop)
    : EStateM.Result Fault (Store H) α → Ending σ β → Prop
  | ok {value : α} {other : β} (agrees : agree value other)
    : Looked store scene agree (.ok value store) (.ok other scene)
  | error (fault : Fault) : Looked store scene agree (.error fault store) (.error fault scene)

/-- Looks can follow each other, by the way the first of them ends. -/
theorem Looked.bind {γ δ : Type} {store : Store H} {scene : Scene σ} {agree : α → β → Prop}
    {agreeNext : γ → δ → Prop} {work : Work H α} {parsing : Parsing σ β} {next : α → Work H γ}
    {otherNext : β → Parsing σ δ} (looked : Looked store scene agree (work store) (parsing scene))
    (each
      : ∀ value other,
          agree value other → Looked store scene agreeNext (next value store) (otherNext other scene))
    : Looked store scene agreeNext ((work >>= next) store) ((parsing >>= otherNext) scene) := by
  generalize left : work store = ending at looked
  generalize right : parsing scene = otherEnding at looked
  cases looked with
  | ok agrees =>
      rw [run_bind_ok left, run_bind_ok right]
      exact each _ _ agrees
  | error fault =>
      rw [run_bind_error left, run_bind_error right]
      exact .error fault

/-- A call at a site: it has the context and the record of the site, and its parser runs a program with
the given table. -/
structure Call.At (call : Call H) (site : Site H σ) (watch : Entry → Work H Unit)
    (table : List (Constant H)) : Prop where
  context : call.context = ⟨site.scanner, watch⟩
  record : call.record = site.record
  holds
    : ∃ entry name program,
        site.parsers[call.parser]? = some ⟨entry, .generated name (.ok program)⟩
        ∧ program.table = table

section Operands

variable {site : Site H σ} {watch : Entry → Work H Unit} {call : Call H} {table : List (Constant H)}
  {origin store : Store H} {scene : Scene σ} {locals : Locals}

/-- A constant is read from the parser as it is found in the table, or is missing from both. -/
theorem Call.At.constant_cases (own : call.At site watch table) (shows : site.Shows store scene)
    (slot : Nat)
    : (table[slot]? = none ∧ call.constant slot store = .error .stuck store)
      ∨ ∃ constant, table[slot]? = some constant ∧ call.constant slot store = .ok constant store := by
  obtain ⟨entry, name, program, found, rfl⟩ := own.holds
  rw [← shows.parsers] at found
  rw [Call.constant, run_bind_ok (parserRegion.read_eq found)]
  dsimp only
  cases program.table[slot]? with
  | none => exact .inl ⟨rfl, rfl⟩
  | some constant => exact .inr ⟨constant, rfl, rfl⟩

/-- A local is read from the frame as from the locals, or is missing from both. -/
theorem Running.get_cases (runs : Running site origin call.frame store scene locals) (name : Name)
    : (locals.get? name = none ∧ call.get name store = .error .stuck store)
      ∨ ∃ datum other,
          locals.get? name = some other
          ∧ call.get name store = .ok datum store
          ∧ datum.Stands origin.records.length store.records other := by
  obtain ⟨cells, found, stands⟩ := runs.held
  have data := stands.data name
  rw [Call.get, run_bind_ok (frameRegion.read_eq found)]
  generalize List.lookup name cells = held at data
  generalize locals.get? name = other at data
  cases data with
  | some stands => exact .inr ⟨_, _, rfl, rfl, stands⟩
  | none => exact .inl ⟨rfl, rfl⟩

/-- A result that is already there can be looked at, by whether it is a fault. -/
theorem looked_give (result : Except Fault α)
    : Looked store scene Eq (give result store) (Parsing.ofResult result scene) := by
  cases result with
  | ok value => exact .ok rfl
  | error fault => exact .error fault

variable (own : call.At site watch table) (runs : Running site origin call.frame store scene locals)

include own runs

/-- Operands evaluate alike, by their kinds. Only a local for records evaluates to a record. -/
theorem atom_looked (atom : Atom)
    : Looked store scene
        (fun datum other =>
          datum.Stands origin.records.length store.records other
          ∧ (atom.IsPlain → ∀ address, datum ≠ .record address))
        (call.atom atom store) ((atom.eval table locals : Parsing σ Code.Datum) scene) := by
  cases atom with
  | name local? =>
      simp only [Call.atom, Atom.eval]
      rcases runs.get_cases local? with ⟨missing, got⟩ | ⟨datum, other, held, got, stands⟩
      · rw [missing, got]
        exact .error .stuck
      · rw [held, got]
        refine .ok ⟨stands, fun plain address same => ?_⟩
        obtain ⟨cells, _, standing⟩ := runs.held
        cases stands with
        | record new found => exact plain (standing.named held)
        | value | position => cases same
  | text | number | count | flag | null | absent =>
      refine .ok ⟨.value _, fun _ _ same => ?_⟩
      cases same
  | slot index =>
      simp only [Call.atom, Atom.eval]
      rcases own.constant_cases runs.shows index with ⟨missing, read⟩ | ⟨constant, bound, read⟩
      · rw [missing, run_bind_error read]
        exact .error .stuck
      · rw [bound, run_bind_ok read]
        cases constant with
        | plain constant =>
            refine .ok ⟨.value _, fun _ _ same => ?_⟩
            cases same
        | _ => exact .error .stuck
  | cursor => exact .error .stuck
  | position =>
      have found : call.context.position store = .ok scene.cursor.position store := by
        rw [own.context, Context.position, run_bind_ok (scannerRegion.read_eq runs.shows.scanner)]
        rfl
      rw [Call.atom, run_bind_ok found]
      refine .ok ⟨.position _, fun _ _ same => ?_⟩
      cases same
  | valueOf record =>
      simp only [Call.atom, Atom.eval]
      rcases runs.get_cases record with ⟨missing, got⟩ | ⟨datum, other, held, got, stands⟩
      · rw [missing, run_bind_error got]
        exact .error .stuck
      · rw [held, run_bind_ok got]
        cases stands with
        | value | position => exact .error .stuck
        | @record address content new found =>
            have read : recordRegion.read address store = .ok content store :=
              recordRegion.read_eq found
            dsimp only
            rw [run_bind_ok read]
            refine (looked_give content.read).bind fun found other same => ?_
            cases same
            refine .ok ⟨.value _, fun _ _ same => ?_⟩
            cases same

/-- Operands that must be values evaluate alike, by what they evaluate to. -/
theorem atomValue_looked (atom : Atom)
    : Looked store scene Eq (call.atomValue atom store)
        ((atom.evalValue table locals : Parsing σ Value) scene) := by
  refine (atom_looked own runs atom).bind fun datum other agrees => ?_
  cases agrees.1 with
  | value held => exact .ok rfl
  | position | record => exact .error .stuck

/-- So do operands that must be positions. -/
theorem atomPosition_looked (atom : Atom)
    : Looked store scene Eq (call.atomPosition atom store)
        ((atom.evalPosition table locals : Parsing σ Position) scene) := by
  refine (atom_looked own runs atom).bind fun datum other agrees => ?_
  cases agrees.1 with
  | position held => exact .ok rfl
  | value | record => exact .error .stuck

end Operands

-----------------------------------------------------------------------------------------
-- Acting
-----------------------------------------------------------------------------------------

/-- How a call goes on when the code in the scene does: with results that agree and the call running,
or with the same fault and everything spared. -/
inductive Ran (site : Site H σ) (origin : Store H) (frame : Address) (agree : Store H → α → β → Prop)
    : EStateM.Result Fault (Store H) α → Ending σ (β × Locals) → Prop
  | ok {value : α} {other : β} {after : Store H} {scene : Scene σ} {locals : Locals}
    (agrees : agree after value other) (runs : Running site origin frame after scene locals)
    : Ran site origin frame agree (.ok value after) (.ok (other, locals) scene)
  | error (fault : Fault) {after : Store H} {scene : Scene σ} (shows : site.Shows after scene)
    (spares : Spares site.reach origin after)
    : Ran site origin frame agree (.error fault after) (.error fault scene)

section Sequences

variable {γ δ : Type} {site : Site H σ} {origin store : Store H} {frame : Address} {scene : Scene σ}
  {locals : Locals} {agree : Store H → γ → δ → Prop}

/-- A call gets stuck on both sides alike. -/
theorem ran_stuck (runs : Running site origin frame store scene locals)
    : Ran site origin frame agree ((stuck : Work H γ) store)
        ((Code.stuck : Parsing σ (δ × Locals)) scene) :=
  .error .stuck runs.shows runs.spares

/-- Going on after a look. -/
theorem Looked.ran {look : α → β → Prop} {work : Work H α} {parsing : Parsing σ β}
    {next : α → Work H γ} {otherNext : β → Parsing σ (δ × Locals)}
    (looked : Looked store scene look (work store) (parsing scene))
    (runs : Running site origin frame store scene locals)
    (each
      : ∀ value other,
          look value other
          → Ran site origin frame agree (next value store) (otherNext other scene))
    : Ran site origin frame agree ((work >>= next) store) ((parsing >>= otherNext) scene) := by
  generalize left : work store = ending at looked
  generalize right : parsing scene = otherEnding at looked
  cases looked with
  | ok agrees =>
      rw [run_bind_ok left, run_bind_ok right]
      exact each _ _ agrees
  | error fault =>
      rw [run_bind_error left, run_bind_error right]
      exact .error fault runs.shows runs.spares

/-- Going on after work that mirrors parsing at the site. -/
theorem Mirrors.ran {work : Work H α} {parsing : Parsing σ α} {next : α → Work H γ}
    {otherNext : α → Parsing σ (δ × Locals)} (mirrors : Mirrors site work parsing)
    (runs : Running site origin frame store scene locals)
    (each
      : ∀ value after reached,
          Running site origin frame after reached locals
          → Ran site origin frame agree (next value after) (otherNext value reached))
    : Ran site origin frame agree ((work >>= next) store) ((parsing >>= otherNext) scene) := by
  have ended := mirrors store scene runs.shows
  generalize left : work store = ending at ended
  generalize right : parsing scene = otherEnding at ended
  cases ended with
  | ok value shows spares =>
      rw [run_bind_ok left, run_bind_ok right]
      exact each _ _ _ (runs.later shows spares)
  | error fault shows spares =>
      rw [run_bind_error left, run_bind_error right]
      exact .error fault shows (runs.spares.trans spares (.refl _ _))

/-- Going on after a part of the call. -/
theorem Ran.bind {before : Store H → α → β → Prop} {work : Work H α}
    {parsing : Parsing σ (β × Locals)} {next : α → Work H γ}
    {otherNext : β × Locals → Parsing σ (δ × Locals)}
    (ran : Ran site origin frame before (work store) (parsing scene))
    (each
      : ∀ value other after reached locals,
          before after value other
          → Running site origin frame after reached locals
          → Ran site origin frame agree (next value after) (otherNext (other, locals) reached))
    : Ran site origin frame agree ((work >>= next) store) ((parsing >>= otherNext) scene) := by
  generalize left : work store = ending at ran
  generalize right : parsing scene = otherEnding at ran
  cases ran with
  | ok agrees runs =>
      rw [run_bind_ok left, run_bind_ok right]
      exact each _ _ _ _ _ agrees runs
  | error fault shows spares =>
      rw [run_bind_error left, run_bind_error right]
      exact .error fault shows spares

end Sequences

section Expressions

variable {site : Site H σ} {watch : Entry → Work H Unit} {hook : Hook σ} {call : Call H}
  {table : List (Constant H)} {origin store : Store H} {scene : Scene σ} {locals : Locals}

/-- What a local can be given: the datum of the frame that the store has by then. -/
def Offers (origin : Store H) (frame : Address) (target : Name) (store : Store H) (datum : Datum)
    (other : Code.Datum) : Prop :=
  ∀ cells,
    store.frames[frame]? = some cells
    → datum.Offered origin.records.length store.records cells target other

/-- A local can be given what is the same on both sides, unless it is a record. -/
theorem Datum.Stands.offers {frame : Address} {target : Name} {datum : Datum} {other : Code.Datum}
    (stands : datum.Stands origin.records.length store.records other)
    (plain : ∀ address, datum ≠ .record address)
    : Offers origin frame target store datum other := by
  intro cells found
  cases stands with
  | value held => exact .value held
  | position held => exact .position held
  | record new found => exact absurd rfl (plain _)

/-- A local can be given any value. -/
theorem offers_value {frame : Address} {target : Name} (held : Value)
    : Offers origin frame target store (.value held) (.value held) :=
  fun _ _ => .value held

variable (own : call.At site watch table)
  (runs : Running site origin call.frame store scene locals) (target : Name)

include own runs

/-- Calls of methods of the cursor: the two that read it, and any other, which gets stuck. -/
theorem method_ran (method : Method) (arguments : List Atom)
    : Ran site origin call.frame (Offers origin call.frame target)
        (call.method method arguments store)
        ((do return (← method.call table arguments, locals) : Parsing σ (Code.Datum × Locals))
          scene) := by
  have gives (taken : Option Text) (after : Store H) (reached : Scene σ)
      (runs : Running site origin call.frame after reached locals)
      : Ran site origin call.frame (Offers origin call.frame target)
          ((pure (Call.taken taken) : Work H Datum) after)
          ((pure (Code.taken taken, locals) : Parsing σ (Code.Datum × Locals)) reached) := by
    cases taken with
    | some text => exact .ok (offers_value _) runs
    | none => exact .ok (offers_value _) runs
  unfold Call.method
  split
  · next text ignoreCase =>
    rw [own.context]
    exact (mirrors_takeText text ignoreCase).ran runs gives
  · next index min max =>
    simp only [Method.call]
    rcases own.constant_cases runs.shows index with ⟨missing, read⟩ | ⟨constant, bound, read⟩
    · rw [missing, run_bind_error read]
      exact .error .stuck runs.shows runs.spares
    · rw [bound, run_bind_ok read]
      cases constant with
      | conversion conversion =>
          cases conversion with
          | given test =>
              dsimp only
              rw [own.context, bind_assoc]
              exact (mirrors_takeWhile _ _ _).ran runs gives
          | identity => exact .error .stuck runs.shows runs.spares
      | _ => exact .error .stuck runs.shows runs.spares
  · next noText noWhile =>
    rw [Method.call]
    · exact ran_stuck runs
    · exact noText
    · exact noWhile

omit own in
/-- What was done at the site but on a record that the frame holds: that record is none of the site's,
and no other local holds it. -/
theorem Running.called {name : Name} {address : Address} {held : MatchRecord}
    (holds : locals.get? name = some (.record held))
    (got : call.get name store = .ok (.record address) store) (new : origin.records.length ≤ address)
    {after : Store H} {reached : Scene σ} (shows : (site.on address).Shows after reached)
    (spares : Spares (site.on address).reach store after)
    : Running site origin call.frame after { reached with record := scene.record }
        (locals.set name (.record reached.record)) := by
  have apart : site.record ≠ address := Nat.ne_of_lt (Nat.lt_of_lt_of_le runs.caller new)
  obtain ⟨cells, found, stands⟩ := runs.held
  have holding : List.lookup name cells = some (.record address) := by
    rw [Call.get, run_bind_ok (frameRegion.read_eq found)] at got
    cases looked : List.lookup name cells with
    | none =>
        rw [looked] at got
        cases got
    | some datum =>
        rw [looked] at got
        cases got
        rfl
  refine ⟨⟨shows.parsers, shows.scanner, spares.records.held apart runs.shows.record, shows.notes⟩,
    runs.spares.trans spares ⟨fun _ _ => id, fun old below same => ?_, fun _ _ => id, fun _ _ => id⟩,
    runs.caller, runs.new, cells, spares.frames.held not_false found, ?_⟩
  · exact absurd below (Nat.not_lt.mpr (same ▸ new))
  · constructor
    · intro local?
      by_cases same : local? = name
      · rw [same, Locals.get?_set_self, holding]
        exact .some (.record new shows.record)
      · rw [Locals.get?_set_of_ne locals _ same]
        have data := stands.data local?
        -- Another local holds another record, which was not touched.
        have other (twin : Address) (here : List.lookup local? cells = some (.record twin))
            : twin ≠ address := fun equal => same (stands.apart here (equal ▸ holding))
        generalize List.lookup local? cells = datum at data other
        generalize locals.get? local? = content at data
        cases data with
        | none => exact .none
        | some data =>
            cases data with
            | value held => exact .some (.value held)
            | position held => exact .some (.position held)
            | record fresh inside =>
                exact .some (.record fresh (spares.records.held (other _ rfl) inside))
    · intro local? content here
      by_cases same : local? = name
      · exact same ▸ stands.named holds
      · rw [Locals.get?_set_of_ne locals _ same] at here
        exact stands.named here
    · exact stands.apart

/-- A call of a parser from outside on a record that the frame holds. -/
theorem conduct_ran
    (watches : ∀ record entry, Mirrors (site.on record) (watch entry) (Parsing.enter hook entry))
    (conduct : Conduct) {name : Name} {address : Address} {held : MatchRecord}
    (holds : locals.get? name = some (.record held))
    (got : call.get name store = .ok (.record address) store) (new : origin.records.length ≤ address)
    (found : store.records[address]? = some held)
    : Ran site origin call.frame (Offers origin call.frame target)
        ((do return .value (.flag (← conduct.runOn call.context address)) : Work H Datum) store)
        ((do
          let (matched, after) ← Parsing.onRecord held (conduct.run hook)
          return (.value (.flag matched), locals.set name (.record after))
          : Parsing σ (Code.Datum × Locals)) scene) := by
  have begun : (site.on address).Shows store { scene with record := held } :=
    ⟨runs.shows.parsers, runs.shows.scanner, found, runs.shows.notes⟩
  have ended : Mirrored (site.on address) store (conduct.runOn ⟨site.scanner, watch⟩ address store)
      (conduct.run hook { scene with record := held }) :=
    mirrors_conduct (watches address) conduct store _ begun
  rw [own.context]
  generalize left : conduct.runOn ⟨site.scanner, watch⟩ address store = ending at ended
  generalize right : conduct.run hook { scene with record := held } = otherEnding at ended
  cases ended with
  | @ok matched after reached shows spares =>
      have yielded : Parsing.onRecord held (conduct.run hook) scene
          = .ok (matched, reached.record) { reached with record := scene.record } := by
        simp only [Parsing.onRecord, right]
      rw [run_bind_ok left, run_bind_ok yielded]
      exact .ok (offers_value _) (runs.called holds got new shows spares)
  | @error fault after reached shows spares =>
      have yielded : Parsing.onRecord held (conduct.run hook) scene
          = .error fault { reached with record := scene.record } := by
        simp only [Parsing.onRecord, right]
      have running := runs.called holds got new shows spares
      rw [run_bind_error left, run_bind_error yielded]
      exact .error fault running.shows running.spares

/-- Expressions evaluate alike to something that the target can be given, by their kinds. -/
theorem expression_ran
    (watches : ∀ record entry, Mirrors (site.on record) (watch entry) (Parsing.enter hook entry))
    (expression : Expr) (tidy : (Stmt.assign target expression).IsTidy)
    : Ran site origin call.frame (Offers origin call.frame target)
        (call.expression expression store) (expression.eval hook table locals scene) := by
  cases expression with
  | atom value =>
      rw [Expr.eval, Call.expression, ← bind_pure (call.atom value)]
      exact (atom_looked own runs value).ran runs fun datum other agrees =>
        .ok (agrees.1.offers (agrees.2 tidy)) runs
  | newRecord slot =>
      simp only [Call.expression, Expr.eval]
      rcases own.constant_cases runs.shows slot with ⟨missing, read⟩ | ⟨constant, bound, read⟩
      · rw [missing, run_bind_error read]
        exact ran_stuck runs
      · rw [bound, run_bind_ok read]
        cases constant with
        | recordMaker =>
            obtain ⟨running, offered⟩ := runs.add tidy
            exact .ok offered running
        | _ => exact ran_stuck runs
  | parse slot record =>
      simp only [Call.expression, Expr.eval]
      rcases own.constant_cases runs.shows slot with ⟨missing, read⟩ | ⟨constant, bound, read⟩
      · rw [missing, run_bind_error read]
        exact ran_stuck runs
      · rw [bound, run_bind_ok read]
        rcases runs.get_cases record with ⟨missing, got⟩ | ⟨datum, other, held, got, stands⟩
        · rw [missing, run_bind_error got]
          cases constant <;> exact ran_stuck runs
        · rw [held, run_bind_ok got]
          cases constant with
          | foreign entry parser =>
              cases stands with
              | record new found =>
                  exact conduct_ran own runs target watches _ held got new found
              | value | position => exact ran_stuck runs
          | _ => exact ran_stuck runs
  | onCursor method arguments => exact method_ran own runs target method arguments
  | call slot argument =>
      simp only [Call.expression, Expr.eval]
      rcases own.constant_cases runs.shows slot with ⟨missing, read⟩ | ⟨constant, bound, read⟩
      · rw [missing, run_bind_error read]
        exact ran_stuck runs
      · rw [bound, run_bind_ok read]
        cases constant with
        | conversion function =>
            refine (atomValue_looked own runs argument).ran runs fun value other same => ?_
            cases same
            refine (looked_give (function.apply value)).ran runs fun result again equal => ?_
            cases equal
            exact .ok (offers_value result) runs
        | _ => exact ran_stuck runs
  | notNull value =>
      refine (atom_looked own runs value).ran runs fun datum other agrees => ?_
      cases agrees.1 with
      | value held => cases held <;> exact .ok (offers_value _) runs
      | position | record => exact .ok (offers_value _) runs

end Expressions

end Store

end StagedParser
