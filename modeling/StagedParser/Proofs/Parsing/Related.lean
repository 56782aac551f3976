import StagedParser.Proofs.Cursor.Walking
import StagedParser.Proofs.Parsing.Records

/-! Parsing in two scenes at once.
A relation between scenes is kept by parsing if it is kept by what parsing is made of: moving a
cursor inside its buffer, writing a record, and what the hooks note. Related scenes show the same
cursor and the same record, so parsing in one of them ends as it does in the other.
-/

namespace StagedParser

variable {σ τ α β : Type} {H : Host}

/-- Two endings with the same result, or the same fault, in related scenes. -/
inductive Ending.Related (relation : Scene σ → Scene τ → Prop) : Ending σ α → Ending τ α → Prop
  | ok (value : α) {scene : Scene σ} {other : Scene τ} (related : relation scene other)
    : Related relation (.ok value scene) (.ok value other)
  | error (fault : Fault) {scene : Scene σ} {other : Scene τ} (related : relation scene other)
    : Related relation (.error fault scene) (.error fault other)

/-- Two pieces of parsing that end alike whenever they start in related scenes. -/
def Parsing.Related (relation : Scene σ → Scene τ → Prop) (work : Parsing σ α) (other : Parsing τ α)
    : Prop :=
  ∀ scene companion,
    relation scene companion → Ending.Related relation (work scene) (other companion)

/-- A relation between scenes that parsing under two hooks keeps. -/
structure Scene.Kept (hook : Hook σ) (otherHook : Hook τ) (relation : Scene σ → Scene τ → Prop)
    : Prop where
  cursor : ∀ {scene companion}, relation scene companion → companion.cursor = scene.cursor
  record : ∀ {scene companion}, relation scene companion → companion.record = scene.record
  write
    : ∀ {scene companion} record,
        relation scene companion → relation { scene with record } { companion with record }
  move
    : ∀ {scene companion} cursor,
        relation scene companion
        → cursor.buffer = scene.cursor.buffer
        → relation { scene with cursor } { companion with cursor }
  react
    : ∀ {scene companion} entry,
        relation scene companion
        → let reaction := hook.react entry scene.cursor scene.notes
          let other := otherHook.react entry scene.cursor companion.notes
          other.moves = reaction.moves
          ∧ other.fault = reaction.fault
          ∧ relation { scene with notes := reaction.notes } { companion with notes := other.notes }

-----------------------------------------------------------------------------------------
-- What parsing is made of
-----------------------------------------------------------------------------------------

namespace Parsing

section Sequences

variable {relation : Scene σ → Scene τ → Prop}

/-- Returning a value is related to returning it, as it leaves both scenes as they are. -/
theorem related_pure (value : α)
    : Related relation (pure value : Parsing σ α) (pure value : Parsing τ α) :=
  fun _ _ related => .ok value related

/-- A result that is already there is related to itself, by whether it is a fault. -/
theorem related_ofResult (result : Except Fault α)
    : Related relation (ofResult result : Parsing σ α) (ofResult result : Parsing τ α) := by
  intro scene companion related
  cases result with
  | ok value => exact .ok value related
  | error fault => exact .error fault related

/-- Related pieces make related work, by the way the first of them ends. -/
theorem Related.bind {work : Parsing σ α} {other : Parsing τ α} {next : α → Parsing σ β}
    {otherNext : α → Parsing τ β} (first : Related relation work other)
    (each : ∀ value, Related relation (next value) (otherNext value))
    : Related relation (work >>= next) (other >>= otherNext) := by
  intro scene companion related
  have ended := first scene companion related
  generalize left : work scene = ending at ended
  generalize right : other companion = otherEnding at ended
  cases ended with
  | ok value later =>
      rw [run_bind_ok left, run_bind_ok right]
      exact each value _ _ later
  | error fault later =>
      rw [run_bind_error left, run_bind_error right]
      exact .error fault later

/-- Catching a fault keeps the relation, by the way the work ends. -/
theorem Related.attempt {work : Parsing σ α} {other : Parsing τ α}
    (related : Related relation work other)
    : Related relation (attempt work) (attempt other) := by
  intro scene companion start
  have ended := related scene companion start
  simp only [Parsing.attempt]
  generalize work scene = ending at ended
  generalize other companion = otherEnding at ended
  cases ended with
  | ok value later => exact .ok _ later
  | error fault later => exact .ok _ later

end Sequences

variable {hook : Hook σ} {otherHook : Hook τ} {relation : Scene σ → Scene τ → Prop}
  (kept : Scene.Kept hook otherHook relation)

include kept

/-- Looking at the cursor gives the same on both sides, since related scenes have one cursor. -/
theorem related_cursor
    : Related relation (cursor : Parsing σ Cursor) (cursor : Parsing τ Cursor) := by
  intro scene companion related
  rw [cursor, cursor, kept.cursor related]
  exact .ok _ related

/-- So does looking at the position. -/
theorem related_position
    : Related relation (position : Parsing σ Position) (position : Parsing τ Position) := by
  intro scene companion related
  rw [position, position, kept.cursor related]
  exact .ok _ related

/-- Looking at the record gives the same on both sides, since related scenes have one record. -/
theorem related_record
    : Related relation (record : Parsing σ MatchRecord) (record : Parsing τ MatchRecord) := by
  intro scene companion related
  rw [record, record, kept.record related]
  exact .ok _ related

/-- Setting the record to one match on both sides keeps the relation. -/
theorem related_write (record : MatchRecord)
    : Related relation (write record : Parsing σ Unit) (write record : Parsing τ Unit) :=
  fun _ _ related => .ok () (kept.write record related)

/-- A move ends alike on both sides and keeps the relation, as it stays in the buffer. -/
theorem related_move (step : Move)
    : Related relation (move step : Parsing σ Unit) (move step : Parsing τ Unit) := by
  intro scene companion related
  simp only [move, kept.cursor related]
  cases moved : scene.cursor.apply step with
  | ok cursor => exact .ok () (kept.move cursor related (Cursor.buffer_of_apply moved))
  | error fault => exact .error fault related

/-- Moving the cursor step by step keeps the relation, by induction on the steps. -/
theorem related_moveAll (steps : List Move)
    : Related relation (moveAll steps : Parsing σ Unit) (moveAll steps : Parsing τ Unit) := by
  induction steps with
  | nil => exact related_pure ()
  | cons step rest ih => exact Related.bind (related_move kept step) fun _ => ih

/-- Announcing a parser keeps the relation. Witness: the hooks make the same moves and raise the
same fault, and the moves keep what their notes have to do with each other. -/
theorem related_enter (entry : Entry)
    : Related relation (enter hook entry) (enter otherHook entry) := by
  intro scene companion related
  obtain ⟨moves, fault, noted⟩ := kept.react entry related
  have ended := related_moveAll kept (hook.react entry scene.cursor scene.notes).moves _ _ noted
  simp only [enter, kept.cursor related, moves, fault] at ended ⊢
  generalize moveAll _ _ = ending at ended
  generalize moveAll _ _ = otherEnding at ended
  cases ended with
  | error fault later => exact .error fault later
  | ok _ later =>
      cases (hook.react entry scene.cursor scene.notes).fault with
      | some fault => exact .error fault later
      | none => exact .ok () later

/-- Most parsers announce themselves and then note where they start. -/
theorem related_fromStart (entry : Entry) {next : Position → Parsing σ α}
    {otherNext : Position → Parsing τ α}
    (each : ∀ start, Related relation (next start) (otherNext start))
    : Related relation (do enter hook entry; let start ← position; next start)
        (do enter otherHook entry; let start ← position; otherNext start) := by
  refine Related.bind (related_enter kept entry) fun _ => ?_
  exact Related.bind (related_position kept) each

/-- Taking a text gives the same on both sides, since what is taken depends on the cursor alone. -/
theorem related_takeText (text : Text) (ignoreCase : Bool)
    : Related relation (takeText text ignoreCase : Parsing σ (Option Text))
        (takeText text ignoreCase : Parsing τ (Option Text)) := by
  intro scene companion related
  simp only [takeText, kept.cursor related]
  exact .ok _ (kept.move _ related (scene.cursor.buffer_takeText text ignoreCase))

/-- Taking a run of units gives the same on both sides, also when the test stops it with a fault. -/
theorem related_takeWhile (test : CodeUnit → Except Fault Bool) (min max : Int)
    : Related relation (takeWhile test min max : Parsing σ (Option Text))
        (takeWhile test min max : Parsing τ (Option Text)) := by
  intro scene companion related
  have stays := scene.cursor.buffer_takeWhile test min max
  simp only [takeWhile, kept.cursor related]
  generalize scene.cursor.takeWhile test min max = result at stays
  rcases result with ⟨fault | taken, cursor⟩
  · exact .error fault (kept.move cursor related stays)
  · exact .ok taken (kept.move cursor related stays)

/-- Work on records of their own is related if it is on equal ones. -/
theorem Related.onRecord (own : MatchRecord) {work : Parsing σ α} {other : Parsing τ α}
    (related : Related relation work other)
    : Related relation (onRecord own work) (onRecord own other) := by
  intro scene companion start
  have ended := related _ _ (kept.write own start)
  simp only [Parsing.onRecord, kept.record start]
  generalize work { scene with record := own } = ending at ended
  generalize other { companion with record := own } = otherEnding at ended
  cases ended with
  | ok value later =>
      dsimp only
      rw [kept.record later]
      exact .ok _ (kept.write scene.record later)
  | error fault later => exact .error _ (kept.write scene.record later)

/-- Setting the record to what was taken keeps the relation, by whether anything was. -/
theorem related_settle (start : Position) (taken : Option Text)
    : Related relation (settle start taken : Parsing σ Bool)
        (settle start taken : Parsing τ Bool) := by
  cases taken with
  | none => exact related_pure false
  | some taken =>
      refine Related.bind (related_position kept) fun stop => ?_
      exact Related.bind (related_write kept _) fun _ => related_pure true

/-- Converting the value of a related parser keeps the relation. Witness: its own record is the
same on both sides, and so is what the conversion makes of it. -/
theorem Related.converting (conversion : Conversion H) {parser : Parsing σ Bool}
    {other : Parsing τ Bool} (related : Related relation parser other)
    : Related relation (converting conversion parser) (converting conversion other) := by
  refine Related.bind (related.onRecord kept none) fun (matched, own) => ?_
  cases matched with
  | false => exact related_pure false
  | true =>
      refine Related.bind (related_ofResult own.read) fun found => ?_
      refine Related.bind (related_ofResult (conversion.apply found.value)) fun value => ?_
      exact Related.bind (related_write kept _) fun _ => related_pure true

/-- What a parser from outside does is related to itself, by induction on its conduct. -/
theorem related_conduct (conduct : Conduct)
    : Related relation (conduct.run hook) (conduct.run otherHook) := by
  induction conduct with
  | finish matched => exact related_pure matched
  | raise fault => exact related_ofResult (.error fault)
  | observe next ih =>
      exact Related.bind (related_cursor kept) fun cursor =>
        Related.bind (related_record kept) fun record => ih cursor record
  | move step next ih => exact Related.bind (related_move kept step) fun _ => ih
  | write record next ih => exact Related.bind (related_write kept record) fun _ => ih
  | enter entry next ih =>
      rw [Conduct.run, Conduct.run]
      refine Related.bind (related_enter kept entry).attempt fun result => ?_
      cases result with
      | ok _ => exact ih none
      | error fault => exact ih (some fault)

end Parsing

-----------------------------------------------------------------------------------------
-- Generated code
-----------------------------------------------------------------------------------------

namespace Code

open Parsing

variable {hook : Hook σ} {otherHook : Hook τ} {relation : Scene σ → Scene τ → Prop}
  {table : List (Constant H)}

section Expressions

/-- Being stuck is related to being stuck, as a fault like any other. -/
theorem related_stuck : Related relation (stuck : Parsing σ α) (stuck : Parsing τ α) :=
  related_ofResult (.error .stuck)

variable (kept : Scene.Kept hook otherHook relation)

include kept

/-- An operand evaluates alike on both sides, by its kinds; the locals are the same. -/
theorem related_eval (locals : Locals) (atom : Atom)
    : Related relation (atom.eval table locals : Parsing σ Datum)
        (atom.eval table locals : Parsing τ Datum) := by
  cases atom with
  | name held =>
      simp only [Atom.eval]
      cases locals.get? held with
      | some datum => exact related_pure datum
      | none => exact related_stuck
  | slot index =>
      simp only [Atom.eval]
      split
      · exact related_pure _
      · exact related_stuck
  | position => exact Related.bind (related_position kept) fun position => related_pure _
  | valueOf record =>
      simp only [Atom.eval]
      split
      · exact Related.bind (related_ofResult _) fun found => related_pure _
      · exact related_stuck
  | cursor => exact related_stuck
  | text | number | count | flag | null | absent => exact related_pure _

/-- So does an operand that must be a value. -/
theorem related_evalValue (locals : Locals) (atom : Atom)
    : Related relation (atom.evalValue table locals : Parsing σ Value)
        (atom.evalValue table locals : Parsing τ Value) := by
  refine Related.bind (related_eval kept locals atom) fun datum => ?_
  cases datum with
  | value held => exact related_pure held
  | position | record => exact related_stuck

/-- So does an operand that must be a position. -/
theorem related_evalPosition (locals : Locals) (atom : Atom)
    : Related relation (atom.evalPosition table locals : Parsing σ Position)
        (atom.evalPosition table locals : Parsing τ Position) := by
  refine Related.bind (related_eval kept locals atom) fun datum => ?_
  cases datum with
  | position held => exact related_pure held
  | value | record => exact related_stuck

/-- Calling a method of the cursor keeps the relation, by the two methods that can be called. -/
theorem related_call (method : Method) (arguments : List Atom)
    : Related relation (method.call table arguments : Parsing σ Datum)
        (method.call table arguments : Parsing τ Datum) := by
  unfold Method.call
  split
  · exact Related.bind (related_takeText kept _ _) fun taken => related_pure _
  · split
    · exact Related.bind (related_takeWhile kept _ _ _) fun taken => related_pure _
    · exact related_stuck
  · exact related_stuck

/-- Evaluating an expression keeps the relation, by the kinds of expressions; a parser from
outside works on a record that is the same on both sides. -/
theorem related_evalExpr (locals : Locals) (expression : Expr)
    : Related relation (expression.eval hook table locals)
        (expression.eval otherHook table locals) := by
  cases expression with
  | atom value => exact Related.bind (related_eval kept locals value) fun datum => related_pure _
  | newRecord slot =>
      simp only [Expr.eval]
      split
      · exact related_pure _
      · exact related_stuck
  | parse slot record =>
      simp only [Expr.eval]
      split
      · exact Related.bind ((related_conduct kept _).onRecord kept _) fun _ => related_pure _
      · exact related_stuck
  | onCursor method arguments =>
      exact Related.bind (related_call kept method arguments) fun datum => related_pure _
  | call slot argument =>
      simp only [Expr.eval]
      split
      · exact Related.bind (related_evalValue kept locals argument) fun value =>
          Related.bind (related_ofResult _) fun result => related_pure _
      · exact related_stuck
  | notNull value =>
      refine Related.bind (related_eval kept locals value) fun datum => ?_
      split
      · exact related_pure _
      · exact related_pure _

end Expressions

mutual

/-- Running a statement keeps the relation, by the kinds of statements. -/
theorem Stmt.related_run (kept : Scene.Kept hook otherHook relation) (statement : Stmt)
    (locals : Locals)
    : Related relation (statement.run hook table locals)
        (statement.run otherHook table locals) := by
  cases statement with
  | declare | leave =>
      rw [Stmt.run, Stmt.run]
      exact related_pure _
  | define name value =>
      rw [Stmt.run, Stmt.run]
      exact Related.bind (related_eval kept locals value) fun datum => related_pure _
  | assign target value =>
      rw [Stmt.run, Stmt.run]
      exact Related.bind (related_evalExpr kept locals value) fun _ => related_pure _
  | enter slot =>
      rw [Stmt.run, Stmt.run]
      split
      · exact Related.bind (related_enter kept _) fun _ => related_pure _
      · exact Related.bind (related_enter kept _) fun _ => related_pure _
      · exact related_stuck
  | moveTo target =>
      rw [Stmt.run, Stmt.run]
      exact Related.bind (related_evalPosition kept locals target) fun position =>
        Related.bind (related_move kept _) fun _ => related_pure _
  | block label body =>
      rw [Stmt.run, Stmt.run]
      refine Related.bind (related_runAll kept body locals) fun (flow, after) => ?_
      cases flow <;> exact related_pure _
  | branch condition yes no =>
      rw [Stmt.run, Stmt.run]
      split
      · split
        · exact related_runAll kept yes locals
        · exact related_runAll kept no locals
      · exact related_stuck
  | report start stop value =>
      rw [Stmt.run, Stmt.run]
      exact Related.bind (related_evalPosition kept locals start) fun first =>
        Related.bind (related_evalPosition kept locals stop) fun last =>
          Related.bind (related_evalValue kept locals value) fun found =>
            Related.bind (related_write kept _) fun _ => related_pure _
  | answer value =>
      rw [Stmt.run, Stmt.run]
      exact Related.bind (related_eval kept locals value) fun datum => related_pure _
  | garbled target =>
      rw [Stmt.run, Stmt.run]
      exact related_stuck

/-- So does running statements one after another, by induction on them. -/
theorem related_runAll (kept : Scene.Kept hook otherHook relation) (code : List Stmt)
    (locals : Locals)
    : Related relation (runAll hook table locals code) (runAll otherHook table locals code) := by
  cases code with
  | nil =>
      rw [runAll, runAll]
      exact related_pure _
  | cons first rest =>
      rw [runAll, runAll]
      refine Related.bind (first.related_run kept locals) fun (flow, after) => ?_
      cases flow with
      | next => exact related_runAll kept rest after
      | leave | answer => exact related_pure _

end

end Code

open Parsing

variable {hook : Hook σ} {otherHook : Hook τ} {relation : Scene σ → Scene τ → Prop}

/-- Running a program keeps the relation. Witness: the answers are the same, so they are Booleans
or the same fault. -/
theorem Program.related_run (kept : Scene.Kept hook otherHook relation) (program : Program H)
    (parser : Text)
    : Related relation (program.run hook parser) (program.run otherHook parser) := by
  have answered : Related relation (Code.answer hook program.table program.code)
      (Code.answer otherHook program.table program.code) := by
    refine Related.bind (Code.related_runAll kept program.code []) fun (flow, locals) => ?_
    cases flow <;> exact related_pure _
  refine Related.bind answered fun datum => ?_
  split
  · exact related_pure _
  · exact related_ofResult _

-----------------------------------------------------------------------------------------
-- Grammars
-----------------------------------------------------------------------------------------

mutual

/-- Parsing with a grammar keeps every relation that its parts keep, by the kinds of grammars; where
it runs generated code, by the statements of the code. -/
theorem Grammar.related_parse (kept : Scene.Kept hook otherHook relation) (grammar : Grammar H)
    : Related relation (grammar.parse hook) (grammar.parse otherHook) := by
  cases grammar with
  | literal id text ignoreCase =>
      rw [Grammar.parse, Grammar.parse]
      refine related_fromStart kept _ fun start => ?_
      exact Related.bind (related_takeText kept text ignoreCase) fun taken =>
        related_settle kept start taken
  | pattern id test min max =>
      rw [Grammar.parse, Grammar.parse]
      refine related_fromStart kept _ fun start => ?_
      exact Related.bind (related_takeWhile kept _ _ _) fun taken => related_settle kept start taken
  | map id source transform =>
      rw [Grammar.parse, Grammar.parse]
      refine Related.bind (related_enter kept _) fun _ => ?_
      exact (source.related_parse kept).converting kept transform
  | oneOf id alternatives =>
      rw [Grammar.parse, Grammar.parse]
      exact related_fromStart kept _ fun start => related_parseFirst kept start alternatives
  | either id left right ofLeft ofRight =>
      rw [Grammar.parse, Grammar.parse]
      refine related_fromStart kept _ fun start => ?_
      refine Related.bind ((left.related_parse kept).converting kept ofLeft) fun matched => ?_
      cases matched with
      | true => exact related_pure true
      | false =>
          refine Related.bind (related_move kept (.moveTo start)) fun _ => ?_
          refine Related.bind ((right.related_parse kept).converting kept ofRight) fun matched => ?_
          cases matched with
          | true => exact related_pure true
          | false =>
              exact Related.bind (related_move kept (.moveTo start)) fun _ => related_pure false
  | staged id source generated =>
      cases generated with
      | false =>
          rw [Grammar.parse, Grammar.parse]
          exact source.related_parse kept
      | true =>
          rw [Grammar.parse, Grammar.parse]
          exact Related.bind (related_ofResult source.program) fun program =>
            program.related_run kept source.name
  | foreign id name parser =>
      rw [Grammar.parse, Grammar.parse]
      exact related_conduct kept _
  | scripted id name emission =>
      rw [Grammar.parse, Grammar.parse]
      exact related_pure false

/-- So does parsing with the first alternative that matches, by induction on the alternatives. -/
theorem related_parseFirst (kept : Scene.Kept hook otherHook relation) (start : Position)
    (alternatives : List (Grammar H))
    : Related relation (parseFirst hook start alternatives)
        (parseFirst otherHook start alternatives) := by
  cases alternatives with
  | nil =>
      rw [parseFirst, parseFirst]
      exact related_pure false
  | cons first rest =>
      rw [parseFirst, parseFirst]
      refine Related.bind (first.related_parse kept) fun matched => ?_
      cases matched with
      | true => exact related_pure true
      | false =>
          exact Related.bind (related_move kept (.moveTo start)) fun _ =>
            related_parseFirst kept start rest

end

-----------------------------------------------------------------------------------------
-- Parsing stays in its buffer
-----------------------------------------------------------------------------------------

/-- The same scene on both sides, with its cursor in the given buffer. -/
def Scene.SameIn (buffer : Buffer) (scene companion : Scene σ) : Prop :=
  companion = scene ∧ scene.cursor.buffer = buffer

/-- Being one scene in a given buffer is kept under one hook, since no move leaves the buffer. -/
theorem Scene.kept_sameIn (hook : Hook σ) (buffer : Buffer)
    : Scene.Kept hook hook (Scene.SameIn buffer) where
  cursor same := by rw [same.1]
  record same := by rw [same.1]
  write record same := ⟨by rw [same.1], same.2⟩
  move cursor same stays := ⟨by rw [same.1], stays.trans same.2⟩
  react entry same := by
    obtain ⟨rfl, inside⟩ := same
    exact ⟨rfl, rfl, rfl, inside⟩

namespace Parsing

/-- Work that leaves the cursor in its buffer. -/
def StaysInBuffer (work : Parsing σ α) : Prop :=
  ∀ buffer, Related (Scene.SameIn buffer) work work

/-- Work that stays in its buffer ends in the buffer where it started, by relating the scene to
itself. -/
theorem StaysInBuffer.buffer_eq {work : Parsing σ α} (stays : StaysInBuffer work)
    {scene after : Scene σ} {value : α} (ended : work scene = .ok value after)
    : after.cursor.buffer = scene.cursor.buffer := by
  have related := stays scene.cursor.buffer scene scene ⟨rfl, rfl⟩
  rw [ended] at related
  cases related with
  | ok value same => exact same.2

end Parsing

/-- Parsing stays in its buffer, as an instance of what parsing keeps. -/
theorem Grammar.staysInBuffer_parse (hook : Hook σ) (grammar : Grammar H)
    : StaysInBuffer (grammar.parse hook) :=
  fun buffer => grammar.related_parse (Scene.kept_sameIn hook buffer)

end StagedParser
