import StagedParser.Proofs.Cursor.Reachable
import StagedParser.Proofs.Parsing.Related
import StagedParser.Proofs.Stock.Contract

/-! Ordered choice.
A choice tries its alternatives in order, each from the very cursor at which the choice was entered,
whatever the alternatives do to it. The two forms of choice differ in the record: `oneOf` hands its
own record down when it is interpreted, so an alternative that fails may leave something there, while
`either`, and generated code of any kind, hand down new ones.
-/

namespace StagedParser

variable {H : Host} {σ α : Type}

namespace Parsing

-----------------------------------------------------------------------------------------
-- Attempts from one cursor
-----------------------------------------------------------------------------------------

/-- How attempts end that are made one after another, each with the cursor as given. An attempt that
ends with anything but `failure`, or with a fault, is the last one, and the whole ends as it does.
After an attempt that failed only the cursor is put back: what it left in the record and in the notes
is there for the next one. -/
inductive Tried (cursor : Cursor) (failure : α) : List (Parsing σ α) → Scene σ → Ending σ α → Prop
  | exhausted {scene : Scene σ} (stands : scene.cursor = cursor)
    : Tried cursor failure [] scene (.ok failure scene)
  | matched {first : Parsing σ α} {rest : List (Parsing σ α)} {scene after : Scene σ} {value : α}
    (stands : scene.cursor = cursor) (ended : first scene = .ok value after)
    (found : value ≠ failure)
    : Tried cursor failure (first :: rest) scene (.ok value after)
  | faulted {first : Parsing σ α} {rest : List (Parsing σ α)} {scene after : Scene σ} {fault : Fault}
    (stands : scene.cursor = cursor) (ended : first scene = .error fault after)
    : Tried cursor failure (first :: rest) scene (.error fault after)
  | failed {first : Parsing σ α} {rest : List (Parsing σ α)} {scene after : Scene σ}
    {ending : Ending σ α} (stands : scene.cursor = cursor) (ended : first scene = .ok failure after)
    (next : Tried cursor failure rest { after with cursor } ending)
    : Tried cursor failure (first :: rest) scene ending

/-- How a choice with the given attempts ends: with the fault of the hook that it is announced to, or
as its attempts do, each of them made from the cursor at which the choice was entered. -/
inductive Ordered (hook : Hook σ) (entry : Entry) (failure : α) (attempts : List (Parsing σ α))
    (scene : Scene σ) : Ending σ α → Prop
  | refused {fault : Fault} {after : Scene σ} (announced : enter hook entry scene = .error fault after)
    : Ordered hook entry failure attempts scene (.error fault after)
  | tried {entered : Scene σ} {ending : Ending σ α}
    (announced : enter hook entry scene = .ok () entered)
    (tried : Tried scene.cursor failure attempts entered ending)
    : Ordered hook entry failure attempts scene ending

/-- Attempts that all failed leave the cursor where they found it, by induction on the attempts. -/
theorem Tried.cursor_of_failed {cursor : Cursor} {failure : α} {attempts : List (Parsing σ α)}
    {scene after : Scene σ} {ending : Ending σ α}
    (tried : Tried cursor failure attempts scene ending) (ended : ending = .ok failure after)
    : after.cursor = cursor := by
  induction tried with
  | exhausted stands =>
      cases ended
      exact stands
  | matched stands first found =>
      cases ended
      exact absurd rfl found
  | faulted stands first => cases ended
  | failed stands first next ih => exact ih ended

/-- A choice that fails has the cursor back where it began. -/
theorem Ordered.cursor_of_failed {hook : Hook σ} {entry : Entry} {failure : α}
    {attempts : List (Parsing σ α)} {scene after : Scene σ}
    (ordered : Ordered hook entry failure attempts scene (.ok failure after))
    : after.cursor = scene.cursor := by
  cases ordered with
  | tried announced tried => exact tried.cursor_of_failed rfl

section Attempts

variable {cursor : Cursor} (reachable : cursor.Reachable)

include reachable

/-- From any place of the buffer the start of a choice can be returned to, and nothing else changes. -/
theorem returnTo_eq {scene : Scene σ} (same : scene.cursor.buffer = cursor.buffer)
    : returnTo cursor.position scene = .ok () { scene with cursor } := by
  simp only [returnTo, move, Cursor.apply, reachable.isInside.moveTo_eq same]

/-- An attempt in front of others: what it ends with is the end, unless it failed, after which the
others are made from the start of the choice. -/
theorem tried_cons {failure : α} {first second whole : Parsing σ α} (stays : StaysInBuffer first)
    {attempts : List (Parsing σ α)}
    (rest : ∀ later, later.cursor = cursor → Tried cursor failure attempts later (second later))
    {scene : Scene σ} (stands : scene.cursor = cursor)
    (onFault : ∀ {fault after}, first scene = .error fault after → whole scene = .error fault after)
    (onMatch
      : ∀ {value after},
          first scene = .ok value after → value ≠ failure → whole scene = .ok value after)
    (onFailure
      : ∀ {after},
          first scene = .ok failure after
          → whole scene = (returnTo cursor.position >>= fun _ => second) after)
    : Tried cursor failure (first :: attempts) scene (whole scene) := by
  cases ended : first scene with
  | error fault after =>
      rw [onFault ended]
      exact .faulted stands ended
  | ok value after =>
      by_cases failed : value = failure
      · rw [failed] at ended
        -- Wherever the attempt went, it went there in the buffer of the choice.
        have same := (stays.buffer_eq ended).trans (congrArg Cursor.buffer stands)
        rw [onFailure ended, run_bind_ok (returnTo_eq reachable same)]
        exact .failed stands ended (rest _ rfl)
      · rw [onMatch ended failed]
        exact .matched stands ended failed

/-- Trying one parser and then the rest is trying all of them, by how the first one ends. -/
theorem tried_orElse {first second : Parsing σ Bool} (stays : StaysInBuffer first)
    {attempts : List (Parsing σ Bool)}
    (rest : ∀ later, later.cursor = cursor → Tried cursor false attempts later (second later))
    {scene : Scene σ} (stands : scene.cursor = cursor)
    : Tried cursor false (first :: attempts) scene
        (orElse cursor.position first second scene) := by
  refine tried_cons reachable stays rest stands orElse_of_faulted ?_ orElse_of_failed
  intro value after ended found
  cases value with
  | true => exact orElse_of_matched ended
  | false => exact absurd rfl found

/-- So it is for work that yields a value. -/
theorem tried_orReturn {first second : Parsing σ (Option Value)} (stays : StaysInBuffer first)
    {attempts : List (Parsing σ (Option Value))}
    (rest : ∀ later, later.cursor = cursor → Tried cursor none attempts later (second later))
    {scene : Scene σ} (stands : scene.cursor = cursor)
    : Tried cursor none (first :: attempts) scene
        (orReturn cursor.position first second scene) := by
  refine tried_cons reachable stays rest stands (orReturn_of_faulted _) ?_ (orReturn_of_failed _)
  intro value after ended found
  cases value with
  | some value => exact orReturn_of_matched _ ended
  | none => exact absurd rfl found

end Attempts

/-- What announces itself and then tries its attempts in order is an ordered choice, by whether
the announcement is refused. -/
theorem ordered_of_tried {hook : Hook σ} (still : hook.Still) (entry : Entry) {failure : α}
    {attempts : List (Parsing σ α)} {next : Position → Parsing σ α} (scene : Scene σ)
    (tried
      : ∀ entered,
          entered.cursor = scene.cursor
          → Tried scene.cursor failure attempts entered (next scene.cursor.position entered))
    : Ordered hook entry failure attempts scene
        ((do enter hook entry; let start ← position; next start) scene) := by
  cases announced : enter hook entry scene with
  | error fault after =>
      rw [run_bind_error announced]
      exact .refused announced
  | ok _ entered =>
      -- A still hook leaves the choice to start where it was entered.
      have stands := still entry scene entered announced
      rw [run_bind_ok announced, run_position_bind, stands]
      exact .tried announced (tried entered stands)

end Parsing

open Parsing

-----------------------------------------------------------------------------------------
-- The attempts of a choice
-----------------------------------------------------------------------------------------

/-- The alternatives of an interpreted choice are tried in order, by induction on the alternatives. -/
theorem parseFirst_tried (hook : Hook σ) {cursor : Cursor} (reachable : cursor.Reachable)
    (alternatives : List (Grammar H)) {scene : Scene σ} (stands : scene.cursor = cursor)
    : Tried cursor false (alternatives.map (·.parse hook)) scene
        (parseFirst hook cursor.position alternatives scene) := by
  induction alternatives generalizing scene with
  | nil =>
      rw [parseFirst]
      exact .exhausted stands
  | cons first rest ih =>
      rw [parseFirst_cons]
      exact tried_orElse reachable (first.staysInBuffer_parse hook) (fun _ => ih) stands

/-- What a grammar yields when its own generated code is run on an unset record. -/
def Grammar.yieldStaged (hook : Hook σ) (grammar : Grammar H) : Parsing σ (Option Value) :=
  yield ((Grammar.staged grammar.id grammar true).parse hook)

/-- A staged grammar yields what the grammar means. -/
theorem Grammar.yieldStaged_eq_meaning (hook : Hook σ) {grammar : Grammar H}
    (unscripted : grammar.Unscripted)
    : grammar.yieldStaged hook = grammar.meaning hook := by
  rw [yieldStaged, parse_staged grammar.id unscripted, yield_report (grammar.recordFree_meaning hook)]

/-- A staged alternative never leaves the buffer, since parsing on a record of its own does not. -/
theorem Grammar.staysInBuffer_converted_yieldStaged (hook : Hook σ) (grammar : Grammar H)
    (conversion : Conversion H)
    : StaysInBuffer (converted conversion (grammar.yieldStaged hook)) := by
  intro buffer
  have kept := Scene.kept_sameIn hook buffer
  have parsed := (Grammar.staged grammar.id grammar true).staysInBuffer_parse hook buffer
  have yielded : Related (Scene.SameIn buffer) (grammar.yieldStaged hook)
      (grammar.yieldStaged hook) := by
    refine Related.bind (parsed.onRecord kept none) fun (matched, own) => ?_
    cases matched with
    | false => exact related_pure none
    | true => exact Related.bind (related_ofResult own.read) fun found => related_pure _
  refine Related.bind yielded fun value => ?_
  cases value with
  | none => exact related_pure none
  | some value => exact Related.bind (related_ofResult _) fun result => related_pure _

/-- The alternatives of a choice in generated code are tried in order, by induction on the
alternatives. -/
theorem firstMatch_tried (hook : Hook σ) {cursor : Cursor} (reachable : cursor.Reachable)
    (choices : List (Grammar H × Conversion H)) (unscripted : ∀ choice ∈ choices, choice.1.Unscripted)
    {scene : Scene σ} (stands : scene.cursor = cursor)
    : Tried cursor none (choices.map fun choice => converted choice.2 (choice.1.yieldStaged hook)) scene
        (firstMatch hook cursor.position choices scene) := by
  induction choices generalizing scene with
  | nil =>
      rw [firstMatch]
      exact .exhausted stands
  | cons first rest ih =>
      have stays := first.1.staysInBuffer_converted_yieldStaged hook first.2
      rw [firstMatch, ← Grammar.yieldStaged_eq_meaning hook (unscripted first (by simp))]
      exact tried_orReturn reachable stays
        (fun _ => ih fun choice member => unscripted choice (List.mem_cons_of_mem first member)) stands

/-- The alternatives of a choice are children of it. -/
theorem Grammar.mem_children_of_choices {grammar : Grammar H}
    {choices : List (Grammar H × Conversion H)} (found : grammar.choices? = some choices)
    {choice : Grammar H × Conversion H} (member : choice ∈ choices)
    : choice.1 ∈ grammar.children := by
  rw [children_of_choices found]
  exact List.mem_map_of_mem member

/-- The ending of parsing that reports the value of work with the given ending, begun at `start`. -/
def Ending.reported (start : Position) : Ending σ (Option Value) → Ending σ Bool
  | .ok (some value) after =>
      .ok true { after with record := some ⟨start, after.cursor.position, value⟩ }
  | .ok none after => .ok false after
  | .error fault after => .error fault after

/-- A report of no match is one of work that yielded none, by how the work ends. -/
theorem Ending.eq_of_reported_failed {start : Position} {ending : Ending σ (Option Value)}
    {after : Scene σ} (failed : Ending.reported start ending = .ok false after)
    : ending = .ok none after := by
  rcases ending with ⟨value, later⟩ | ⟨fault, later⟩
  · cases value with
    | some value => cases failed
    | none =>
        cases failed
        rfl
  · cases failed

/-- Reporting turns the ending of the work into that of parsing, by how the work ends. -/
theorem Parsing.report_eq_reported (work : Parsing σ (Option Value)) (scene : Scene σ)
    : report work scene = Ending.reported scene.cursor.position (work scene) := by
  rw [report, run_position_bind]
  cases ended : work scene with
  | error fault after => exact run_bind_error ended
  | ok value after =>
      rw [run_bind_ok ended]
      cases value <;> rfl

/-- A conversion that faults stops with the scene that its parser left, apart from the record, in
both ways of running an alternative. -/
theorem Parsing.unconverted_ends (conversion : Conversion H) {parser : Parsing σ Bool}
    {before after : Scene σ} {found : Match} {fault : Fault}
    (matched : parser { before with record := none } = .ok true { after with record := some found })
    (unconverted : conversion.apply found.value = .error fault)
    : converting conversion parser before = .error fault { after with record := before.record }
      ∧ converted conversion (yield parser) before
        = .error fault { after with record := before.record } := by
  have own : onRecord none parser before
      = .ok (true, some found) { after with record := before.record } := by
    simp only [onRecord, matched]
  have yielded : yield parser before
      = .ok (some found.value) { after with record := before.record } :=
    yield_of_matched before matched
  constructor
  · rw [converting, run_bind_ok own]
    change (ofResult (conversion.apply found.value) >>= _) _ = _
    rw [unconverted]
    rfl
  · rw [converted, run_bind_ok yielded]
    change (ofResult (conversion.apply found.value) >>= _) _ = _
    rw [unconverted]
    rfl

section Choices

variable {hook : Hook σ} (still : hook.Still) {scene : Scene σ} (reachable : scene.cursor.Reachable)

include still reachable

/-- A choice between many tries its alternatives in order, each on the record at hand. -/
theorem Grammar.ordered_oneOf (id : Nat) (alternatives : List (Grammar H))
    : Ordered hook (oneOf id alternatives).entry false (alternatives.map (·.parse hook)) scene
        ((oneOf id alternatives).parse hook scene) := by
  rw [parse]
  exact ordered_of_tried still _ scene fun _ => parseFirst_tried hook reachable alternatives

/-- A choice of two tries both sides in order, each with its conversion. -/
theorem Grammar.ordered_either (id : Nat) (left right : Grammar H) (ofLeft ofRight : Conversion H)
    : Ordered hook (either id left right ofLeft ofRight).entry false
        [converting ofLeft (left.parse hook), converting ofRight (right.parse hook)] scene
        ((either id left right ofLeft ofRight).parse hook scene) := by
  have stays (side : Grammar H) (conversion : Conversion H)
      : StaysInBuffer (converting conversion (side.parse hook)) := fun buffer =>
    (side.staysInBuffer_parse hook buffer).converting (Scene.kept_sameIn hook buffer) conversion
  rw [parse_either]
  refine ordered_of_tried still _ scene fun entered stands => ?_
  refine tried_orElse reachable (stays left ofLeft) (fun later returned => ?_) stands
  exact tried_orElse reachable (stays right ofRight) (fun _ => .exhausted) returned

/-- What a choice means is an ordered choice among what the code of its alternatives yields. -/
theorem Grammar.ordered_meaning {choice : Grammar H} {choices : List (Grammar H × Conversion H)}
    (found : choice.choices? = some choices) (unscripted : choice.Unscripted)
    : Ordered hook choice.entry none
        (choices.map fun choice => converted choice.2 (choice.1.yieldStaged hook)) scene
        (choice.meaning hook scene) := by
  have each : ∀ alternative ∈ choices, alternative.1.Unscripted := fun alternative member =>
    unscripted.child (mem_children_of_choices found member)
  rw [meaning_choice hook found]
  exact ordered_of_tried still _ scene fun _ => firstMatch_tried hook reachable choices each

/-- Either choice has the cursor back when it fails. -/
theorem Grammar.cursor_of_failed_choice {choice : Grammar H}
    {choices : List (Grammar H × Conversion H)} (found : choice.choices? = some choices)
    {after : Scene σ} (failed : choice.parse hook scene = .ok false after)
    : after.cursor = scene.cursor := by
  cases choice with
  | oneOf id alternatives =>
      have ordered := ordered_oneOf still reachable id alternatives
      rw [failed] at ordered
      exact ordered.cursor_of_failed
  | either id left right ofLeft ofRight =>
      have ordered := ordered_either still reachable id left right ofLeft ofRight
      rw [failed] at ordered
      exact ordered.cursor_of_failed
  | _ => cases found

end Choices

/-- Under a still hook, a choice that is entered at a reachable cursor tries its alternatives in order,
each from that very cursor, until one matches or stops with a fault; if all fail, it fails with the
cursor where it was. So does its program, with the alternatives run by their own generated code on
unset records. A conversion that faults counts as a fault of its alternative, raised where the
alternative left the cursor. -/
theorem Grammar.choice_tries_in_order {hook : Hook σ} (still : hook.Still) {scene : Scene σ}
    (reachable : scene.cursor.Reachable)
    : (∀ id (alternatives : List (Grammar H)),
        Ordered hook (oneOf id alternatives).entry false (alternatives.map (·.parse hook)) scene
          ((oneOf id alternatives).parse hook scene))
      ∧ (∀ id (left right : Grammar H) (ofLeft ofRight : Conversion H),
          Ordered hook (either id left right ofLeft ofRight).entry false
            [converting ofLeft (left.parse hook), converting ofRight (right.parse hook)] scene
            ((either id left right ofLeft ofRight).parse hook scene))
      ∧ (∀ (choice : Grammar H) (choices : List (Grammar H × Conversion H)),
          choice.choices? = some choices
          → choice.Unscripted
          → ∃ program ending,
              choice.program = .ok program
              ∧ Ordered hook choice.entry none
                  (choices.map fun choice => converted choice.2 (choice.1.yieldStaged hook)) scene
                  ending
              ∧ program.run hook choice.name scene = ending.reported scene.cursor.position)
      ∧ (∀ (choice : Grammar H) (choices : List (Grammar H × Conversion H)) after,
          choice.choices? = some choices
          → choice.parse hook scene = .ok false after
            ∨ choice.Unscripted
              ∧ (Grammar.staged choice.id choice true).parse hook scene = .ok false after
          → after.cursor = scene.cursor)
      ∧ ∀ (conversion : Conversion H) (parser : Parsing σ Bool) (before after : Scene σ) found fault,
          parser { before with record := none } = .ok true { after with record := some found }
          → conversion.apply found.value = .error fault
          → converting conversion parser before = .error fault { after with record := before.record }
            ∧ converted conversion (yield parser) before
              = .error fault { after with record := before.record } := by
  refine ⟨ordered_oneOf still reachable, ordered_either still reachable, ?_, ?_, ?_⟩
  · intro choice choices found unscripted
    obtain ⟨program, generated, reports⟩ := program_reports unscripted
    refine ⟨program, choice.meaning hook scene, generated, ?_, ?_⟩
    · exact ordered_meaning still reachable found unscripted
    · rw [reports, report_eq_reported]
  · intro choice choices after found failed
    rcases failed with failed | ⟨unscripted, failed⟩
    · exact cursor_of_failed_choice still reachable found failed
    · have ordered := ordered_meaning still reachable found unscripted
      rw [parse_staged _ unscripted, report_eq_reported] at failed
      rw [Ending.eq_of_reported_failed failed] at ordered
      exact ordered.cursor_of_failed
  · exact fun conversion parser before after found fault => unconverted_ends conversion

/-- A choice of two fails if the second one fails on what the first one left, apart from the
cursor. -/
theorem Grammar.parse_pair_of_failed {hook : Hook σ} (still : hook.Still) {id : Nat}
    {first second : Grammar H} {scene entered between after : Scene σ}
    (reachable : scene.cursor.Reachable)
    (announced : enter hook (oneOf id [first, second]).entry scene = .ok () entered)
    (failedFirst : first.parse hook entered = .ok false between)
    (failedSecond : second.parse hook { between with cursor := scene.cursor } = .ok false after)
    : (oneOf id [first, second]).parse hook scene
      = .ok false { after with cursor := scene.cursor } := by
  have stands := still _ scene entered announced
  have sameFirst : between.cursor.buffer = scene.cursor.buffer :=
    ((first.staysInBuffer_parse hook).buffer_eq failedFirst).trans (congrArg Cursor.buffer stands)
  have sameSecond := (second.staysInBuffer_parse hook).buffer_eq failedSecond
  rw [parse, run_bind_ok announced, run_position_bind, stands, parseFirst_cons,
    orElse_of_failed failedFirst, run_bind_ok (returnTo_eq reachable sameFirst), parseFirst_cons,
    orElse_of_failed failedSecond, run_bind_ok (returnTo_eq reachable sameSecond), parseFirst]
  rfl

namespace Stock

/-- A scene after a hook has noted an entry. -/
def noted (scene : Scene (List Entry)) (entry : Entry) : Scene (List Entry) :=
  { scene with notes := scene.notes ++ [entry] }

/-- A hook that stops nowhere before the tenth parser and leaves the cursor alone. -/
def plainHook : Hook (List Entry) :=
  strictHook 9 []

/-- The plain hook never moves the cursor. -/
theorem still_plainHook : plainHook.Still :=
  Hook.still_of_moves_eq_nil fun _ _ _ => rfl

/-- The plain hook notes every parser but one. -/
theorem enter_plainHook (entry : Entry) (passes : entry.id ≠ 9) (scene : Scene (List Entry))
    : enter plainHook entry scene = .ok () (noted scene entry) := by
  simp only [enter, plainHook, strictHook, if_neg passes]
  rfl

/-- A parser of the stock is noted and then acts. -/
theorem parse_foreign {id : Nat} (passes : id ≠ 9) (name : Text) (parser : host.Foreign)
    (scene : Scene (List Entry))
    : (Grammar.foreign id name parser).parse plainHook scene
      = (Parser.act parser).run plainHook (noted scene ⟨id, name⟩) := by
  rw [Grammar.parse]
  change (Conduct.announce ⟨id, name⟩ (Parser.act parser)).run plainHook scene = _
  rw [Conduct.run_announce, run_bind_ok (enter_plainHook _ passes scene)]

/-- A parser that runs two units ahead and fails. -/
def overrunner : Grammar host :=
  .foreign 1 (Text.ofString "Overrun") (.overrun 2)

/-- A parser that runs a unit ahead, sets the record and fails. -/
def staleWriter : Grammar host :=
  .foreign 2 (Text.ofString "StaleWriter") (.stale 1)

/-- The overrunner leaves the cursor two units ahead. -/
theorem parse_overrunner (scene : Scene (List Entry))
    : overrunner.parse plainHook scene
      = .ok false { noted scene overrunner.entry with cursor := scene.cursor.advance 2 } :=
  parse_foreign (by decide) _ _ scene

/-- The stale writer leaves the cursor one unit ahead, and its match in the record. -/
theorem parse_staleWriter (scene : Scene (List Entry))
    : staleWriter.parse plainHook scene
      = .ok false
          { noted scene staleWriter.entry with
            cursor := scene.cursor.advance 1
            record := some (passed scene.cursor (scene.cursor.advance 1)) } :=
  parse_foreign (by decide) _ _ scene

/-- A choice between parsers that advance and then fail, the second of which writes the record. -/
def laggards : Grammar host :=
  .oneOf 0 [overrunner, staleWriter]

/-- The choice between both goes back, but the match stays in the record. -/
theorem parse_laggards {scene : Scene (List Entry)} (reachable : scene.cursor.Reachable)
    : laggards.parse plainHook scene
      = .ok false
          { scene with
            record := some (passed scene.cursor (scene.cursor.advance 1))
            notes := scene.notes ++ [laggards.entry] ++ [overrunner.entry] ++ [staleWriter.entry] } :=
  Grammar.parse_pair_of_failed still_plainHook reachable (enter_plainHook _ (by decide) scene)
    (parse_overrunner _) (parse_staleWriter _)

/-- A scene with the cursor before the end of a line and an unset record. -/
def lineEnd : Scene (List Entry) :=
  ⟨(Cursor.start (Buffer.ofText (Text.ofString "a\nbc") (by decide))).advance 1, none, []⟩

/-- The cursor before the end of the line is one that can be reached. -/
theorem reachable_lineEnd : lineEnd.cursor.Reachable :=
  .advance 1 (.start _)

end Stock

/-- The laggards of the stock, both of which run past the end of a line, tried from before that
end. -/
theorem Grammar.choice_tries_in_order_sample
    : Stock.plainHook.Still
      ∧ Stock.lineEnd.cursor.Reachable
      ∧ Ordered Stock.plainHook Stock.laggards.entry false
          [Stock.overrunner.parse Stock.plainHook, Stock.staleWriter.parse Stock.plainHook]
          Stock.lineEnd (Stock.laggards.parse Stock.plainHook Stock.lineEnd)
      ∧ ∃ after,
          Stock.laggards.parse Stock.plainHook Stock.lineEnd = .ok false after
          ∧ after.cursor = Stock.lineEnd.cursor
          ∧ after.notes.map Entry.id = [0, 1, 2] := by
  have failed := Stock.parse_laggards Stock.reachable_lineEnd
  obtain ⟨ordered, _, _, returned, _⟩ :=
    choice_tries_in_order (H := Stock.host) Stock.still_plainHook Stock.reachable_lineEnd
  exact ⟨Stock.still_plainHook, Stock.reachable_lineEnd, ordered 0 _, _, failed,
    returned _ _ _ rfl (.inl failed), rfl⟩

-----------------------------------------------------------------------------------------
-- What a failed choice leaves in the record
-----------------------------------------------------------------------------------------

namespace Parsing

/-- A parser that leaves the record at hand as it was whenever it fails. -/
def SparesRecord (parser : Parsing σ Bool) : Prop :=
  ∀ scene after, parser scene = .ok false after → after.record = scene.record

/-- Failing at once spares the record. -/
theorem sparesRecord_failure : SparesRecord (pure false : Parsing σ Bool) := by
  intro scene after failed
  cases failed
  rfl

/-- Record-free work in front of parsers that spare the record makes one that spares it. -/
theorem SparesRecord.bind {work : Parsing σ α} {next : α → Parsing σ Bool} (free : RecordFree work)
    (each : ∀ value, SparesRecord (next value))
    : SparesRecord (work >>= next) := by
  intro scene after failed
  obtain ⟨value, between, worked, failed⟩ := of_run_bind failed
  exact (each value between after failed).trans (free.record_eq worked)

/-- What is done after an announcement decides whether the record is spared. -/
theorem sparesRecord_fromStart (hook : Hook σ) (entry : Entry) {next : Position → Parsing σ Bool}
    (each : ∀ start, SparesRecord (next start))
    : SparesRecord (do enter hook entry; let start ← position; next start) := by
  refine SparesRecord.bind (recordFree_enter hook entry) fun _ => ?_
  exact SparesRecord.bind recordFree_position each

/-- Settling spares the record if nothing was taken. -/
theorem sparesRecord_settle (start : Position) (taken : Option Text)
    : SparesRecord (settle start taken : Parsing σ Bool) := by
  cases taken with
  | none => exact sparesRecord_failure
  | some taken =>
      intro scene after failed
      cases failed

/-- Converting the match of any parser spares the record at hand: the parser gets another one. -/
theorem sparesRecord_converting (conversion : Conversion H) (parser : Parsing σ Bool)
    : SparesRecord (converting conversion parser) := by
  refine SparesRecord.bind (recordFree_onRecord none parser) fun (matched, own) => ?_
  cases matched with
  | false => exact sparesRecord_failure
  | true =>
      refine SparesRecord.bind (recordFree_ofResult own.read) fun found => ?_
      refine SparesRecord.bind (recordFree_ofResult (conversion.apply found.value)) fun value => ?_
      intro scene after failed
      cases failed

/-- A conversion fails where its parser does, with the record as it was. -/
theorem converting_of_failed (conversion : Conversion H) {parser : Parsing σ Bool}
    {scene after : Scene σ} (ended : parser { scene with record := none } = .ok false after)
    : converting conversion parser scene = .ok false { after with record := scene.record } := by
  have own : onRecord none parser scene
      = .ok (false, after.record) { after with record := scene.record } := by
    simp only [onRecord, ended]
  rw [converting, run_bind_ok own]
  rfl

/-- A choice spares the record if both sides do, by how the first side ends. -/
theorem sparesRecord_orElse {start : Position} {first second : Parsing σ Bool}
    (sparesFirst : SparesRecord first) (sparesSecond : SparesRecord second)
    : SparesRecord (orElse start first second) := by
  intro scene after failed
  cases ended : first scene with
  | error fault between =>
      rw [orElse_of_faulted ended] at failed
      cases failed
  | ok matched between =>
      cases matched with
      | true =>
          rw [orElse_of_matched ended] at failed
          cases failed
      | false =>
          -- The way back leaves the record alone, so the second attempt finds what the first spared.
          have continued : SparesRecord (returnTo start >>= fun _ => second) :=
            .bind (recordFree_returnTo start) fun _ => sparesSecond
          rw [orElse_of_failed ended] at failed
          exact (continued between after failed).trans (sparesFirst scene between ended)

/-- Parsers that keep the contract spare the record. -/
theorem KeepsContract.sparesRecord {parser : Parsing σ Bool} (keeps : KeepsContract parser)
    : SparesRecord parser := by
  intro scene after failed
  have settled := keeps.settles scene
  rw [failed] at settled
  exact settled

end Parsing

namespace Grammar

/-- The parsers from outside that an interpreted grammar hands its own record, with the entries that
they stand as. A choice with conversions and a map hand down new records, and so does generated code. -/
inductive HandsDown : Grammar H → Entry → H.Foreign → Prop
  | foreign {id : Nat} {name : Text} {parser : H.Foreign}
    : HandsDown (foreign id name parser) ⟨id, name⟩ parser
  | oneOf {id : Nat} {alternatives : List (Grammar H)} {alternative : Grammar H} {entry : Entry}
    {parser : H.Foreign} (member : alternative ∈ alternatives)
    (handed : HandsDown alternative entry parser)
    : HandsDown (oneOf id alternatives) entry parser
  | staged {id : Nat} {source : Grammar H} {entry : Entry} {parser : H.Foreign}
    (handed : HandsDown source entry parser)
    : HandsDown (staged id source false) entry parser

/-- The parsers from outside that a grammar hands its own record leave it as it was when they fail. -/
def HandsDownSafely (hook : Hook σ) (grammar : Grammar H) : Prop :=
  ∀ entry parser, grammar.HandsDown entry parser → SparesRecord ((H.conduct parser entry).run hook)

end Grammar

/-- Trying grammars in order spares the record if each of them does, by induction on the
alternatives. -/
theorem sparesRecord_parseFirst (hook : Hook σ) (start : Position) (alternatives : List (Grammar H))
    (each : ∀ alternative ∈ alternatives, SparesRecord (alternative.parse hook))
    : SparesRecord (parseFirst hook start alternatives) := by
  induction alternatives with
  | nil =>
      rw [parseFirst]
      exact sparesRecord_failure
  | cons first rest ih =>
      rw [parseFirst_cons]
      exact sparesRecord_orElse (each first List.mem_cons_self)
        (ih fun alternative member => each alternative (List.mem_cons_of_mem first member))

/-- A choice of two spares the record, as each side works on one of its own. -/
theorem Grammar.sparesRecord_either (hook : Hook σ) (id : Nat) (left right : Grammar H)
    (ofLeft ofRight : Conversion H)
    : SparesRecord ((either id left right ofLeft ofRight).parse hook) := by
  rw [parse_either]
  refine sparesRecord_fromStart hook _ fun start => ?_
  refine sparesRecord_orElse (sparesRecord_converting ofLeft _) ?_
  exact sparesRecord_orElse (sparesRecord_converting ofRight _) sparesRecord_failure

/-- So does a staged grammar, which only sets the record when it matches. -/
theorem Grammar.sparesRecord_staged (hook : Hook σ) (id : Nat) {source : Grammar H}
    (unscripted : source.Unscripted)
    : SparesRecord ((staged id source true).parse hook) := by
  rw [parse_staged id unscripted]
  exact (keepsContract_report (source.recordFree_meaning hook)).sparesRecord

/-- An interpreted grammar spares the record if the parsers that it hands its own record do, by
induction on the grammar. -/
theorem Grammar.sparesRecord_parse {hook : Hook σ} (grammar : Grammar H)
    (unscripted : grammar.Unscripted) (safely : grammar.HandsDownSafely hook)
    : SparesRecord (grammar.parse hook) := by
  induction grammar with
  | literal id text ignoreCase =>
      rw [parse]
      refine sparesRecord_fromStart hook _ fun start => ?_
      exact SparesRecord.bind (recordFree_takeText text ignoreCase) (sparesRecord_settle start)
  | pattern id test min max =>
      rw [parse]
      refine sparesRecord_fromStart hook _ fun start => ?_
      exact SparesRecord.bind (recordFree_takeWhile _ min max) (sparesRecord_settle start)
  | map id source transform ih =>
      rw [parse]
      exact SparesRecord.bind (recordFree_enter hook _) fun _ => sparesRecord_converting transform _
  | oneOf id alternatives ih =>
      -- The only node besides staged ones that hands down its own record.
      rw [parse]
      refine sparesRecord_fromStart hook _ fun start => ?_
      refine sparesRecord_parseFirst hook start alternatives fun alternative member => ?_
      refine ih alternative member (unscripted.child member) fun entry parser handed => ?_
      exact safely entry parser (.oneOf member handed)
  | either id left right ofLeft ofRight ihLeft ihRight =>
      exact sparesRecord_either hook id left right ofLeft ofRight
  | staged id source generated ih =>
      have inside := unscripted.child mem_children_staged
      cases generated with
      | true => exact sparesRecord_staged hook id inside
      | false =>
          rw [parse]
          exact ih inside fun entry parser handed => safely entry parser (.staged handed)
  | foreign id name parser =>
      rw [parse]
      exact safely _ parser .foreign
  | scripted id name emission =>
      rw [parse]
      exact sparesRecord_failure

/-- A choice that fails leaves the record at hand as it was, whatever its alternatives do to theirs,
when it has conversions, and generated code of any kind does so as well. An interpreted choice without
conversions does so if the parsers from outside that get its own record leave that as it was when they
fail. -/
theorem Grammar.record_of_failed_choice (hook : Hook σ) (scene after : Scene σ)
    : (∀ (grammar : Grammar H) id,
        grammar.Unscripted
        → (staged id grammar true).parse hook scene = .ok false after
        → after.record = scene.record)
      ∧ (∀ id (left right : Grammar H) (ofLeft ofRight : Conversion H),
          (either id left right ofLeft ofRight).parse hook scene = .ok false after
          → after.record = scene.record)
      ∧ ∀ id (alternatives : List (Grammar H)),
          (oneOf id alternatives).Unscripted
          → (oneOf id alternatives).HandsDownSafely hook
          → (oneOf id alternatives).parse hook scene = .ok false after
          → after.record = scene.record := by
  refine ⟨?_, ?_, ?_⟩
  · intro grammar id unscripted failed
    exact sparesRecord_staged hook id unscripted scene after failed
  · intro id left right ofLeft ofRight failed
    exact sparesRecord_either hook id left right ofLeft ofRight scene after failed
  · intro id alternatives unscripted safely failed
    exact sparesRecord_parse _ unscripted safely scene after failed

namespace Stock

/-- A map between a choice and a parser that writes its record. -/
def guarded : Grammar host :=
  .map 3 staleWriter (.given .wrap)

/-- Behind a map the stale writer leaves the record alone. -/
theorem parse_guarded (scene : Scene (List Entry))
    : guarded.parse plainHook scene
      = .ok false
          { noted (noted scene guarded.entry) staleWriter.entry with
            cursor := scene.cursor.advance 1 } := by
  have announced := enter_plainHook guarded.entry (by decide) scene
  have failed := parse_staleWriter { noted scene guarded.entry with record := none }
  rw [guarded, Grammar.parse]
  exact (run_bind_ok announced).trans (converting_of_failed _ failed)

/-- The laggards, with a map before the one that writes the record. -/
def guardedLaggards : Grammar host :=
  .oneOf 0 [overrunner, guarded]

/-- So does the choice that has the map in front of it. -/
theorem parse_guardedLaggards {scene : Scene (List Entry)} (reachable : scene.cursor.Reachable)
    : guardedLaggards.parse plainHook scene
      = .ok false
          { scene with
            notes :=
              scene.notes ++ [guardedLaggards.entry] ++ [overrunner.entry] ++ [guarded.entry]
                ++ [staleWriter.entry] } :=
  Grammar.parse_pair_of_failed still_plainHook reachable (enter_plainHook _ (by decide) scene)
    (parse_overrunner _) (parse_guarded _)

/-- The guarded laggards are unscripted, by their nodes. -/
theorem guardedLaggards_unscripted : guardedLaggards.Unscripted := by
  intro node member id name emission
  simp only [guardedLaggards, overrunner, guarded, staleWriter, Grammar.nodes, nodesOfAll,
    List.mem_cons, List.mem_append, List.not_mem_nil, or_false] at member
  rcases member with rfl | rfl | rfl | rfl <;> simp

/-- The guarded laggards hand the record down to parsers that spare it, by where it is handed. -/
theorem guardedLaggards_handsDownSafely : guardedLaggards.HandsDownSafely plainHook := by
  intro entry parser handed
  cases handed with
  | oneOf member handed =>
      simp only [List.mem_cons, List.not_mem_nil, or_false] at member
      rcases member with rfl | rfl
      · cases handed
        exact (keepsContract_conduct still_plainHook _ rfl _).sparesRecord
      · cases handed

end Stock

/-- A choice among the guarded laggards, which fails with the record set before. -/
theorem Grammar.record_of_failed_choice_sample
    : let scene := { Stock.lineEnd with record := some Stock.madeUp }
      Stock.guardedLaggards.Unscripted
      ∧ Stock.guardedLaggards.HandsDownSafely Stock.plainHook
      ∧ ∃ after,
          Stock.guardedLaggards.parse Stock.plainHook scene = .ok false after
          ∧ after.record = scene.record := by
  intro scene
  have unscripted := Stock.guardedLaggards_unscripted
  have safely := Stock.guardedLaggards_handsDownSafely
  have reachable : scene.cursor.Reachable := Stock.reachable_lineEnd
  have failed := Stock.parse_guardedLaggards reachable
  obtain ⟨_, _, spared⟩ := record_of_failed_choice (H := Stock.host) Stock.plainHook scene _
  exact ⟨unscripted, safely, _, failed, spared 0 _ unscripted safely failed⟩

/-- The interpreted laggards fail and leave the match that one of them set in the record at hand,
which was unset. -/
theorem Grammar.failed_choice_leaves_trace
    : ∃ after,
        Stock.laggards.parse Stock.plainHook Stock.lineEnd = .ok false after
        ∧ after.record ≠ Stock.lineEnd.record :=
  ⟨_, Stock.parse_laggards Stock.reachable_lineEnd, by simp [Stock.lineEnd]⟩

end StagedParser
