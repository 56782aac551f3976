import StagedParser.Proofs.Code.Simulation

/-! What interpretation does to the record at hand.
An interpreted grammar hands its record down through its choices, so a failed alternative may leave
something there. The record is ignored all the same if the parsers from outside ignore theirs, and
the grammar then yields its meaning. If they keep the contract and the entry hook leaves the cursor
alone, the whole grammar keeps the contract.
-/

namespace StagedParser

variable {H : Host} {σ : Type}

namespace Parsing

-----------------------------------------------------------------------------------------
-- Attempts on one record
-----------------------------------------------------------------------------------------

/-- Parses with the first parser; if it fails, returns to the start and goes on with the second, on
the record as the first one left it. -/
def orElse (start : Position) (first second : Parsing σ Bool) : Parsing σ Bool := do
  if ← first then
    return true
  returnTo start
  second

variable {start : Position} {first second : Parsing σ Bool}

section Endings

variable {scene after : Scene σ}

/-- If the first parser matches, the second is not tried. -/
theorem orElse_of_matched (ended : first scene = .ok true after)
    : orElse start first second scene = .ok true after := by
  rw [orElse, run_bind_ok ended]
  rfl

/-- If it fails, the second is tried from the start. -/
theorem orElse_of_failed (ended : first scene = .ok false after)
    : orElse start first second scene = (returnTo start >>= fun _ => second) after := by
  rw [orElse, run_bind_ok ended]
  rfl

/-- A fault of the first is passed on. -/
theorem orElse_of_faulted {fault : Fault} (ended : first scene = .error fault after)
    : orElse start first second scene = .error fault after :=
  run_bind_error ended

end Endings

/-- Attempts ignore the record if each of them does: the second may find there what the first one
left. -/
theorem ignoresRecord_orElse (ignoresFirst : IgnoresRecord first)
    (ignoresSecond : IgnoresRecord second)
    : IgnoresRecord (orElse start first second) := by
  have continued : IgnoresRecord (returnTo start >>= fun _ => second) :=
    IgnoresRecord.bind (recordFree_returnTo start) fun _ => ignoresSecond
  intro scene record
  have alike := ignoresFirst scene record
  generalize left : first scene = leftEnding at alike
  generalize right : first { scene with record } = rightEnding at alike
  cases alike with
  | matched cursor found notes =>
      rw [orElse_of_matched left, orElse_of_matched right]
      exact .matched cursor found notes
  | failed cursor leftRecord rightRecord notes =>
      rw [orElse_of_failed left, orElse_of_failed right]
      exact continued ⟨cursor, leftRecord, notes⟩ rightRecord
  | faulted fault cursor leftRecord rightRecord notes =>
      rw [orElse_of_faulted left, orElse_of_faulted right]
      exact .faulted fault cursor leftRecord rightRecord notes

/-- Parsers that end alike on unset records yield the same. -/
theorem yield_eq_of_alike {parser other : Parsing σ Bool} {scene later : Scene σ}
    (records : later.record = scene.record)
    (alike : Ending.Alike (parser { scene with record := none }) (other { later with record := none }))
    : yield parser scene = yield other later := by
  generalize left : parser { scene with record := none } = leftEnding at alike
  generalize right : other { later with record := none } = rightEnding at alike
  cases alike with
  | matched cursor found notes =>
      rw [yield_of_matched scene left, yield_of_matched later right, records]
  | failed cursor leftRecord rightRecord notes =>
      rw [yield_of_failed scene left, yield_of_failed later right, records]
  | faulted fault cursor leftRecord rightRecord notes =>
      rw [yield_of_faulted scene left, yield_of_faulted later right, records]

/-- Attempts on one record yield what attempts on records of their own yield, if the second ignores
what the first one left. -/
theorem yield_orElse (ignores : IgnoresRecord second)
    : yield (orElse start first second) = orReturn start (yield first) (yield second) := by
  have continued : IgnoresRecord (returnTo start >>= fun _ => second) :=
    IgnoresRecord.bind (recordFree_returnTo start) fun _ => ignores
  funext scene
  cases ended : first { scene with record := none } with
  | error fault after =>
      rw [yield_of_faulted scene (orElse_of_faulted ended),
        orReturn_of_faulted _ (yield_of_faulted scene ended)]
  | ok matched after =>
      obtain ⟨cursor, left, notes⟩ := after
      cases matched with
      | true =>
          have whole : orElse start first second { scene with record := none } = _ :=
            orElse_of_matched ended
          cases left with
          | none =>
              rw [yield_of_unset scene whole, orReturn_of_faulted _ (yield_of_unset scene ended)]
          | some found =>
              rw [yield_of_matched scene whole, orReturn_of_matched _ (yield_of_matched scene ended)]
      | false =>
          rw [orReturn_of_failed _ (yield_of_failed scene ended),
            ← yield_bind (recordFree_returnTo start) fun _ => second]
          refine yield_eq_of_alike rfl ?_
          rw [orElse_of_failed ended]
          exact continued ⟨cursor, left, notes⟩ none

/-- Converting the match of a parser yields the conversion of what the parser yields. -/
theorem yield_converting (conversion : Conversion H) (parser : Parsing σ Bool)
    : yield (converting conversion parser) = converted conversion (yield parser) := by
  rw [converting, yield_bind (recordFree_onRecord none parser), converted, yield, bind_assoc]
  refine congrArg _ (funext fun result => ?_)
  obtain ⟨matched, own⟩ := result
  cases matched with
  | false => rfl
  | true =>
      simp only [if_true, bind_assoc, pure_bind]
      rw [yield_bind (recordFree_ofResult own.read)]
      refine congrArg _ (funext fun found => ?_)
      rw [yield_bind (recordFree_ofResult (conversion.apply found.value))]
      rfl

-----------------------------------------------------------------------------------------
-- Attempts that keep the contract
-----------------------------------------------------------------------------------------

/-- Work that settles the record whenever the cursor stands at the start. -/
def SettlesFrom (start : Position) (parser : Parsing σ Bool) : Prop :=
  ∀ scene, scene.cursor.position = start → Ending.Settles start scene.record (parser scene)

/-- Returning to a position moves the cursor there. -/
theorem position_of_returnTo {scene after : Scene σ} (returned : returnTo start scene = .ok () after)
    : after.cursor.position = start := by
  simp only [returnTo, move, Cursor.apply, Cursor.moveTo] at returned
  split at returned
  · next moved => 
    split at moved
    · cases moved
      cases returned
      rfl
    · cases moved
  · cases returned

/-- Attempts from one start settle the record if each of them does. -/
theorem settlesFrom_orElse (settlesFirst : SettlesFrom start first)
    (settlesSecond : SettlesFrom start second)
    : SettlesFrom start (orElse start first second) := by
  intro scene stands
  have settled := settlesFirst scene stands
  cases ended : first scene with
  | error fault after =>
      rw [ended] at settled
      rw [orElse_of_faulted ended]
      exact settled
  | ok matched after =>
      rw [ended] at settled
      cases matched with
      | true =>
          rw [orElse_of_matched ended]
          exact settled
      | false =>
          change after.record = scene.record at settled
          rw [orElse_of_failed ended, ← settled]
          refine settles_bind (recordFree_returnTo start) fun _ returned back kept => ?_
          rw [← kept]
          exact settlesSecond returned (position_of_returnTo back)

/-- Converting the match of a parser that keeps the contract keeps it. -/
theorem settlesFrom_converting (conversion : Conversion H) {parser : Parsing σ Bool}
    (keeps : KeepsContract parser)
    : SettlesFrom start (converting conversion parser) := by
  intro scene stands
  have settled := keeps.settles { scene with record := none }
  refine settles_bind (recordFree_onRecord none parser) fun (matched, own) after ended kept => ?_
  simp only [onRecord] at ended
  cases inner : parser { scene with record := none } with
  | error fault left =>
      rw [inner] at ended
      cases ended
  | ok verdict left =>
      rw [inner] at ended settled
      cases ended
      cases matched with
      | false => exact kept
      | true =>
          obtain ⟨value, held⟩ := settled
          rw [held]
          change Ending.Settles start scene.record
            ((ofResult (conversion.apply value) >>= fun result => do
                write (some ⟨scene.cursor.position, left.cursor.position, result⟩)
                return true) { left with record := scene.record })
          cases conversion.apply value with
          | error fault => rfl
          | ok result => exact ⟨result, by rw [← stands]⟩

end Parsing

open Parsing

-----------------------------------------------------------------------------------------
-- Interpreted grammars yield their meaning
-----------------------------------------------------------------------------------------

/-- All parsers from outside in a grammar have a property when they run under a hook. -/
def Grammar.ForeignsSatisfy (hook : Hook σ) (property : Parsing σ Bool → Prop) (grammar : Grammar H)
    : Prop :=
  ∀ id name parser,
    Grammar.foreign id name parser ∈ grammar.nodes
    → property ((H.conduct parser ⟨id, name⟩).run hook)

/-- What holds of the parsers from outside in a grammar holds of those in a child. -/
theorem Grammar.ForeignsSatisfy.child {hook : Hook σ} {property : Parsing σ Bool → Prop}
    {child grammar : Grammar H} (foreigns : grammar.ForeignsSatisfy hook property)
    (member : child ∈ grammar.children)
    : child.ForeignsSatisfy hook property :=
  fun id name parser inside =>
    foreigns id name parser (nodes_subset_of_mem_children member inside)

/-- They satisfy what follows from what they satisfy. -/
theorem Grammar.ForeignsSatisfy.mono {hook : Hook σ} {property weaker : Parsing σ Bool → Prop}
    {grammar : Grammar H} (foreigns : grammar.ForeignsSatisfy hook property)
    (implies : ∀ parser, property parser → weaker parser)
    : grammar.ForeignsSatisfy hook weaker :=
  fun id name parser inside => implies _ (foreigns id name parser inside)

/-- Interpreting a grammar does not depend on the record at hand, and yields the grammar's
meaning. -/
structure Grammar.Interpreted (hook : Hook σ) (grammar : Grammar H) : Prop where
  ignoresRecord : IgnoresRecord (grammar.parse hook)
  yields : yield (grammar.parse hook) = grammar.meaning hook

/-- Parsing the first match tries the first alternative, or else the rest. -/
theorem parseFirst_cons (hook : Hook σ) (start : Position) (first : Grammar H)
    (rest : List (Grammar H))
    : parseFirst hook start (first :: rest)
      = orElse start (first.parse hook) (parseFirst hook start rest) := by
  rw [parseFirst, orElse]

/-- A choice of two announces itself, and tries its sides with their conversions. -/
theorem Grammar.parse_either (hook : Hook σ) (id : Nat) (left right : Grammar H)
    (ofLeft ofRight : Conversion H)
    : (Grammar.either id left right ofLeft ofRight).parse hook
      = (do
          enter hook (Grammar.either id left right ofLeft ofRight).entry
          let start ← position
          orElse start (converting ofLeft (left.parse hook)) <|
            orElse start (converting ofRight (right.parse hook)) (return false)) := by
  rw [parse]
  rfl

/-- Settling yields what was taken. -/
theorem yield_settle (start : Position) (taken : Option Text)
    : yield (settle start taken : Parsing σ Bool) = pure (taken.map .text) := by
  cases taken <;> rfl

/-- Reading the cursor after an announcement settles the record and yields what was read. -/
theorem ignores_and_yields_reading (hook : Hook σ) (entry : Entry) {read : Parsing σ (Option Text)}
    (free : RecordFree read)
    : IgnoresRecord (do enter hook entry; let start ← position; settle start (← read))
      ∧ yield (do enter hook entry; let start ← position; settle start (← read))
        = (do enter hook entry; return (← read).map .text) := by
  constructor
  · exact IgnoresRecord.bind (recordFree_enter hook entry) fun _ =>
      IgnoresRecord.bind recordFree_position fun start =>
        IgnoresRecord.bind free fun taken => ignoresRecord_settle start taken
  · rw [yield_bind (recordFree_enter hook entry)]
    refine congrArg _ (funext fun _ => ?_)
    rw [yield_bind recordFree_position]
    funext scene
    rw [run_position_bind, yield_bind free]
    simp only [yield_settle]

/-- Trying alternatives on one record ignores the record and yields the first match, by induction on
the alternatives. -/
theorem ignores_and_yields_parseFirst (hook : Hook σ) (start : Position)
    (alternatives : List (Grammar H))
    (each : ∀ alternative ∈ alternatives, alternative.Interpreted hook)
    : IgnoresRecord (parseFirst hook start alternatives)
      ∧ yield (parseFirst hook start alternatives) = firstMeaning hook start alternatives := by
  induction alternatives with
  | nil =>
      rw [parseFirst, firstMeaning]
      exact ⟨ignoresRecord_failure, rfl⟩
  | cons first rest ih =>
      have interpreted := each first (by simp)
      obtain ⟨ignores, yields⟩ := ih fun alternative member =>
        each alternative (List.mem_cons_of_mem first member)
      rw [parseFirst_cons, firstMeaning, yield_orElse ignores, interpreted.yields, yields]
      exact ⟨ignoresRecord_orElse interpreted.ignoresRecord ignores, rfl⟩

/-- An unscripted grammar whose parsers from outside ignore their records is interpreted as it means.
Witness: induction on the grammar; where it runs generated code, that code reports the meaning. -/
theorem Grammar.interpreted_of_unscripted (hook : Hook σ) (grammar : Grammar H)
    (unscripted : grammar.Unscripted) (foreigns : grammar.ForeignsSatisfy hook IgnoresRecord)
    : grammar.Interpreted hook := by
  induction grammar with
  | literal id text ignoreCase =>
      obtain ⟨ignores, yields⟩ := ignores_and_yields_reading hook
        (Grammar.literal id text ignoreCase : Grammar H).entry (recordFree_takeText text ignoreCase)
      exact ⟨by rw [parse]; exact ignores, by rw [parse, meaning]; exact yields⟩
  | pattern id test min max =>
      obtain ⟨ignores, yields⟩ := ignores_and_yields_reading hook
        (Grammar.pattern id test min max).entry (recordFree_takeWhile (H.accepts test) min max)
      exact ⟨by rw [parse]; exact ignores, by rw [parse, meaning]; exact yields⟩
  | map id source transform ih =>
      have inner := ih (unscripted.child mem_children_map) (foreigns.child mem_children_map)
      constructor
      · rw [parse]
        exact IgnoresRecord.bind (recordFree_enter hook _) fun _ => ignoresRecord_converting _ _
      · rw [parse, meaning, yield_bind (recordFree_enter hook _)]
        simp only [yield_converting, inner.yields]
  | oneOf id alternatives ih =>
      have inner (start : Position) := ignores_and_yields_parseFirst hook start alternatives
        fun alternative member =>
          ih alternative member (unscripted.child member) (foreigns.child member)
      constructor
      · rw [parse]
        exact IgnoresRecord.bind (recordFree_enter hook _) fun _ =>
          IgnoresRecord.bind recordFree_position fun start => (inner start).1
      · rw [parse, meaning, yield_bind (recordFree_enter hook _), yield_bind recordFree_position]
        simp only [(inner _).2]
  | either id left right ofLeft ofRight ihLeft ihRight =>
      have innerLeft := ihLeft (unscripted.child left_mem_children_either)
        (foreigns.child left_mem_children_either)
      have innerRight := ihRight (unscripted.child right_mem_children_either)
        (foreigns.child right_mem_children_either)
      have second (start : Position)
          : IgnoresRecord (orElse start (converting ofRight (right.parse hook)) (pure false)) :=
        ignoresRecord_orElse (ignoresRecord_converting _ _) ignoresRecord_failure
      constructor
      · rw [parse_either]
        exact IgnoresRecord.bind (recordFree_enter hook _) fun _ =>
          IgnoresRecord.bind recordFree_position fun start =>
            ignoresRecord_orElse (ignoresRecord_converting _ _) (second start)
      · rw [parse_either, meaning, yield_bind (recordFree_enter hook _),
          yield_bind recordFree_position]
        simp only [yield_orElse (second _), yield_orElse ignoresRecord_failure, yield_converting,
          innerLeft.yields, innerRight.yields]
        rfl
  | staged id source generated ih =>
      cases generated with
      | false =>
          have inner := ih (unscripted.child mem_children_staged) (foreigns.child mem_children_staged)
          exact ⟨by rw [parse]; exact inner.ignoresRecord, by rw [parse, meaning]; exact inner.yields⟩
      | true =>
          have free := source.recordFree_meaning hook
          have reports := parse_staged id (unscripted.child mem_children_staged) hook
          exact ⟨reports ▸ ignoresRecord_report free, by rw [reports, yield_report free, meaning]⟩
  | foreign id name parser =>
      exact ⟨by rw [parse]; exact foreigns id name parser (self_mem_nodes _), by rw [parse, meaning]⟩
  | scripted id name emission =>
      exact absurd rfl (unscripted _ (self_mem_nodes _) id name emission)

-----------------------------------------------------------------------------------------
-- Interpreted grammars keep the contract
-----------------------------------------------------------------------------------------

/-- A hook that leaves the cursor alone: whenever it lets parsing go on, the cursor stands where it
stood. -/
def Hook.Still (hook : Hook σ) : Prop :=
  ∀ entry scene after, enter hook entry scene = .ok () after → after.cursor = scene.cursor

/-- A hook without moves is still. -/
theorem Hook.still_of_moves_eq_nil {hook : Hook σ}
    (unmoved : ∀ entry cursor notes, (hook.react entry cursor notes).moves = [])
    : hook.Still := by
  intro entry scene after entered
  cases raised : (hook.react entry scene.cursor scene.notes).fault with
  | some fault =>
      simp only [enter, unmoved, raised] at entered
      cases entered
  | none =>
      simp only [enter, unmoved, raised] at entered
      cases entered
      rfl

/-- An announcement to a still hook leaves the start of a match where it is. -/
theorem settlesFrom_announced {hook : Hook σ} (still : hook.Still) (entry : Entry)
    {start : Position} {next : Parsing σ Bool} (settles : SettlesFrom start next)
    : SettlesFrom start (enter hook entry >>= fun _ => next) := by
  intro scene stands
  refine settles_bind (recordFree_enter hook entry) fun _ after entered kept => ?_
  rw [← kept]
  exact settles after (by rw [still entry scene after entered, stands])

/-- Asking for the position that is known settles what follows. -/
theorem settlesFrom_position {start : Position} {next : Position → Parsing σ Bool}
    (settles : SettlesFrom start (next start))
    : SettlesFrom start (position >>= next) := by
  intro scene stands
  rw [run_position_bind, stands]
  exact settles scene stands

/-- Reading settles the match that begins at the start. -/
theorem settlesFrom_reading (start : Position) {read : Parsing σ (Option Text)}
    (free : RecordFree read)
    : SettlesFrom start (do settle start (← read)) := by
  intro scene _
  refine settles_bind free fun taken after _ kept => ?_
  cases taken with
  | none => exact kept
  | some taken => exact ⟨.text taken, rfl⟩

/-- Failing at once settles nothing. -/
theorem settlesFrom_failure (start : Position) : SettlesFrom start (pure false : Parsing σ Bool) :=
  fun _ _ => rfl

/-- A parser that keeps the contract settles from any start it stands at. -/
theorem Parsing.KeepsContract.settlesFrom {parser : Parsing σ Bool} (keeps : KeepsContract parser)
    (start : Position)
    : SettlesFrom start parser := by
  intro scene stands
  rw [← stands]
  exact keeps.settles scene

/-- Trying alternatives that keep the contract from one start settles the record, by induction on the
alternatives. -/
theorem settlesFrom_parseFirst (hook : Hook σ) (start : Position) (alternatives : List (Grammar H))
    (each : ∀ alternative ∈ alternatives, KeepsContract (alternative.parse hook))
    : SettlesFrom start (parseFirst hook start alternatives) := by
  induction alternatives with
  | nil =>
      rw [parseFirst]
      exact settlesFrom_failure start
  | cons first rest ih =>
      rw [parseFirst_cons]
      exact settlesFrom_orElse ((each first (by simp)).settlesFrom start)
        (ih fun alternative member => each alternative (List.mem_cons_of_mem first member))

/-- A grammar that settles from every start keeps the contract. -/
theorem Grammar.keepsContract_of_settles {hook : Hook σ} {grammar : Grammar H}
    (unscripted : grammar.Unscripted) (foreigns : grammar.ForeignsSatisfy hook KeepsContract)
    (settles : ∀ start, SettlesFrom start (grammar.parse hook))
    : KeepsContract (grammar.parse hook) := by
  have ignoring := foreigns.mono fun _ keeps => keeps.ignoresRecord
  exact {
    ignoresRecord := (grammar.interpreted_of_unscripted hook unscripted ignoring).ignoresRecord
    settles := fun scene => settles scene.cursor.position scene rfl
  }

/-- An unscripted grammar keeps the contract if its parsers from outside keep it and the hook is
still. Witness: induction on the grammar. -/
theorem Grammar.keepsContract_of_unscripted {hook : Hook σ} (still : hook.Still) (grammar : Grammar H)
    (unscripted : grammar.Unscripted) (foreigns : grammar.ForeignsSatisfy hook KeepsContract)
    : KeepsContract (grammar.parse hook) := by
  induction grammar with
  | literal id text ignoreCase =>
      refine keepsContract_of_settles unscripted foreigns fun start => ?_
      rw [parse]
      exact settlesFrom_announced still _ <|
        settlesFrom_position <| settlesFrom_reading start (recordFree_takeText text ignoreCase)
  | pattern id test min max =>
      refine keepsContract_of_settles unscripted foreigns fun start => ?_
      rw [parse]
      exact settlesFrom_announced still _ <|
        settlesFrom_position <| settlesFrom_reading start (recordFree_takeWhile _ _ _)
  | map id source transform ih =>
      have inner := ih (unscripted.child mem_children_map) (foreigns.child mem_children_map)
      refine keepsContract_of_settles unscripted foreigns fun start => ?_
      rw [parse]
      exact settlesFrom_announced still _ (settlesFrom_converting transform inner)
  | oneOf id alternatives ih =>
      refine keepsContract_of_settles unscripted foreigns fun start => ?_
      rw [parse]
      exact settlesFrom_announced still _ <| settlesFrom_position <|
        settlesFrom_parseFirst hook start alternatives fun alternative member =>
          ih alternative member (unscripted.child member) (foreigns.child member)
  | either id left right ofLeft ofRight ihLeft ihRight =>
      have innerLeft := ihLeft (unscripted.child left_mem_children_either)
        (foreigns.child left_mem_children_either)
      have innerRight := ihRight (unscripted.child right_mem_children_either)
        (foreigns.child right_mem_children_either)
      refine keepsContract_of_settles unscripted foreigns fun start => ?_
      rw [parse_either]
      exact settlesFrom_announced still _ <| settlesFrom_position <|
        settlesFrom_orElse (settlesFrom_converting ofLeft innerLeft) <|
          settlesFrom_orElse (settlesFrom_converting ofRight innerRight) (settlesFrom_failure start)
  | staged id source generated ih =>
      cases generated with
      | false =>
          rw [parse]
          exact ih (unscripted.child mem_children_staged) (foreigns.child mem_children_staged)
      | true =>
          rw [parse_staged id (unscripted.child mem_children_staged)]
          exact keepsContract_report (source.recordFree_meaning hook)
  | foreign id name parser =>
      rw [parse]
      exact foreigns id name parser (self_mem_nodes _)
  | scripted id name emission =>
      exact absurd rfl (unscripted _ (self_mem_nodes _) id name emission)

/-- Where the contract is kept, interpreting a grammar reports its meaning. -/
theorem Grammar.report_meaning_eq_parse {hook : Hook σ} (still : hook.Still) (grammar : Grammar H)
    (unscripted : grammar.Unscripted) (foreigns : grammar.ForeignsSatisfy hook KeepsContract)
    : report (grammar.meaning hook) = grammar.parse hook := by
  have ignoring := foreigns.mono fun _ keeps => keeps.ignoresRecord
  have yields := (grammar.interpreted_of_unscripted hook unscripted ignoring).yields
  have keeps := grammar.keepsContract_of_unscripted still unscripted foreigns
  rw [← yields, keeps.report_yield]

end StagedParser
