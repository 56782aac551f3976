import StagedParser.Proofs.Store.Calls

/-! Running programs on a store.
A program of tidy code runs on the store as it does in the scene: it works on a frame of its own,
reads its constants from the parser that it belongs to, and leaves nothing behind that is not new.
-/

namespace StagedParser

open Code

namespace Store

variable {H : Host} {σ : Type}

/-- What follows a statement on the store is what follows it in the scene. -/
inductive Flow.Stands (first : Nat) (records : List MatchRecord) : Flow → Code.Flow → Prop
  | next : Stands first records .next .next
  | leave (label : Name) : Stands first records (.leave label) (.leave label)
  | answer {datum : Datum} {other : Code.Datum} (stands : datum.Stands first records other)
    : Stands first records (.answer datum) (.answer other)

/-- The same follows, given the records that the store has by then. -/
def Follows (origin store : Store H) (flow : Flow) (other : Code.Flow) : Prop :=
  flow.Stands origin.records.length store.records other

section Statements

variable {site : Site H σ} {watch : Entry → Work H Unit} {hook : Hook σ} {call : Call H}
  {table : List (Constant H)} {origin store : Store H} {scene : Scene σ} {locals : Locals}

/-- Going on after a local was given what it was offered. -/
theorem Running.set_ran (runs : Running site origin call.frame store scene locals) {target : Name}
    {datum : Datum} {other : Code.Datum} (offers : Offers origin call.frame target store datum other)
    : Ran site origin call.frame (Follows origin)
        ((do
          call.set target datum
          return .next : Work H Flow) store)
        ((pure (.next, locals.set target other) : Parsing σ (Code.Flow × Locals)) scene) := by
  obtain ⟨after, put, running⟩ := runs.set offers
  rw [run_bind_ok put]
  exact .ok .next running

variable (own : call.At site watch table)

include own

/-- Moving the scanner to a position that an operand evaluates to. -/
theorem moveTo_ran (runs : Running site origin call.frame store scene locals) (target : Atom)
    : Ran site origin call.frame (Follows origin) (call.statement (.moveTo target) store)
        ((Stmt.moveTo target).run hook table locals scene) := by
  simp only [Call.statement, Stmt.run]
  refine (atomPosition_looked own runs target).ran runs fun position other same => ?_
  cases same
  rw [own.context]
  exact (mirrors_move _).ran runs fun _ _ _ running => .ok .next running

/-- Setting the record of the caller. -/
theorem report_ran (runs : Running site origin call.frame store scene locals)
    (start stop value : Atom)
    : Ran site origin call.frame (Follows origin) (call.statement (.report start stop value) store)
        ((Stmt.report start stop value).run hook table locals scene) := by
  simp only [Call.statement, Stmt.run]
  refine (atomPosition_looked own runs start).ran runs fun first other same => ?_
  cases same
  refine (atomPosition_looked own runs stop).ran runs fun last other same => ?_
  cases same
  refine (atomValue_looked own runs value).ran runs fun held other same => ?_
  cases same
  rw [own.record]
  exact (mirrors_write _).ran runs fun _ _ _ running => .ok .next running

/-- Announcing a parser, found in the table on both sides. -/
theorem enter_ran
    (watches : ∀ record entry, Mirrors (site.on record) (watch entry) (Parsing.enter hook entry))
    (runs : Running site origin call.frame store scene locals) (slot : Nat)
    : Ran site origin call.frame (Follows origin) (call.statement (.enter slot) store)
        ((Stmt.enter slot).run hook table locals scene) := by
  have watching (entry : Entry)
      : Ran site origin call.frame (Follows origin)
          ((do
            call.context.watch entry
            return .next : Work H Flow) store)
          ((do
            Parsing.enter hook entry
            return (.next, locals) : Parsing σ (Code.Flow × Locals)) scene) := by
    rw [own.context]
    exact (watches site.record entry).ran runs fun _ _ _ running => .ok .next running
  simp only [Call.statement, Stmt.run]
  rcases own.constant_cases runs.shows slot with ⟨missing, read⟩ | ⟨constant, bound, read⟩
  · rw [missing, run_bind_error read]
    exact ran_stuck runs
  · rw [bound, run_bind_ok read]
    cases constant with
    | parser entry => exact watching entry
    | foreign entry parser => exact watching entry
    | _ => exact ran_stuck runs

omit own

mutual

/-- Statements of tidy code run alike, by their kinds. -/
theorem statement_ran (own : call.At site watch table)
    (watches : ∀ record entry, Mirrors (site.on record) (watch entry) (Parsing.enter hook entry))
    (statement : Stmt) (tidy : AreTidy [statement])
    {store : Store H} {scene : Scene σ} {locals : Locals}
    (runs : Running site origin call.frame store scene locals)
    : Ran site origin call.frame (Follows origin) (call.statement statement store)
        (statement.run hook table locals scene) := by
  cases statement with
  | declare names =>
      obtain ⟨after, declared, running⟩ := runs.declare names
      rw [Call.statement, Stmt.run, run_bind_ok declared]
      exact .ok .next running
  | define name value =>
      rw [Call.statement, Stmt.run]
      refine (atom_looked own runs value).ran runs fun datum other agrees => ?_
      exact runs.set_ran (agrees.1.offers (agrees.2 (isTidy_of_areTidy tidy)))
  | assign target value =>
      rw [Call.statement, Stmt.run]
      refine (expression_ran own runs target watches value (isTidy_of_areTidy tidy)).bind
        fun datum other after reached locals offers running => ?_
      exact running.set_ran offers
  | enter slot => exact enter_ran own watches runs slot
  | moveTo target => exact moveTo_ran own runs target
  | block label body =>
      rw [Call.statement, Stmt.run]
      refine (statements_ran own watches body (areTidy_block.mp tidy) runs).bind
        fun flow other after reached locals follows running => ?_
      cases follows with
      | next => exact .ok .next running
      | answer stands => exact .ok (.answer stands) running
      | leave target =>
          dsimp only
          split
          · exact .ok .next running
          · exact .ok (.leave target) running
  | leave label => exact .ok (.leave label) runs
  | branch condition yes no =>
      obtain ⟨tidyYes, tidyNo⟩ := areTidy_branch.mp tidy
      simp only [Call.statement, Stmt.run]
      rcases runs.get_cases condition with ⟨missing, got⟩ | ⟨datum, other, held, got, stands⟩
      · rw [missing, run_bind_error got]
        exact ran_stuck runs
      · rw [held, run_bind_ok got]
        have same : datum.isTruthy = other.isTruthy := by cases stands <;> rfl
        dsimp only
        rw [same]
        split
        · exact statements_ran own watches yes tidyYes runs
        · exact statements_ran own watches no tidyNo runs
  | report start stop value => exact report_ran own runs start stop value
  | answer value =>
      rw [Call.statement, Stmt.run]
      exact (atom_looked own runs value).ran runs fun datum other agrees =>
        .ok (.answer agrees.1) runs
  | garbled target => exact ran_stuck runs

/-- So do statements one after another, by induction on them. -/
theorem statements_ran (own : call.At site watch table)
    (watches : ∀ record entry, Mirrors (site.on record) (watch entry) (Parsing.enter hook entry))
    (code : List Stmt) (tidy : AreTidy code)
    {store : Store H} {scene : Scene σ} {locals : Locals}
    (runs : Running site origin call.frame store scene locals)
    : Ran site origin call.frame (Follows origin) (call.statements code store)
        (runAll hook table locals code scene) := by
  cases code with
  | nil => exact .ok .next runs
  | cons first rest =>
      obtain ⟨tidyFirst, tidyRest⟩ := areTidy_cons.mp tidy
      rw [Call.statements, runAll]
      refine (statement_ran own watches first tidyFirst runs).bind
        fun flow other after reached locals follows running => ?_
      cases follows with
      | next => exact statements_ran own watches rest tidyRest running
      | leave label => exact .ok (.leave label) running
      | answer stands => exact .ok (.answer stands) running

end

end Statements

-----------------------------------------------------------------------------------------
-- Programs
-----------------------------------------------------------------------------------------

variable {site : Site H σ} {watch : Entry → Work H Unit} {hook : Hook σ}

/-- A new frame, in which no local holds anything. -/
theorem running_new {store : Store H} {scene : Scene σ} (shows : site.Shows store scene)
    : Running site store store.frames.length { store with frames := store.frames ++ [[]] } scene [] where
  shows := ⟨shows.parsers, shows.scanner, shows.record, shows.notes⟩
  spares := ⟨rfl, .refl _ _, .refl _ _, .add _ _ _, .refl _ _⟩
  caller := (List.getElem?_eq_some_iff.mp shows.record).1
  new := Nat.le_refl _
  held := ⟨[], List.getElem?_concat_length, fun _ => .none, nofun, nofun⟩

/-- Going on after a call is over: nothing of it matters any more but its result. -/
theorem Ran.mirrored {α β γ : Type} {origin store : Store H} {scene : Scene σ} {frame : Address}
    {agree : Store H → α → β → Prop} {work : Work H α} {parsing : Parsing σ (β × Locals)}
    {next : α → Work H γ} {otherNext : β × Locals → Parsing σ γ}
    (ran : Ran site origin frame agree (work store) (parsing scene))
    (each
      : ∀ value other after locals,
          agree after value other → Mirrors site (next value) (otherNext (other, locals)))
    : Mirrored site origin ((work >>= next) store) ((parsing >>= otherNext) scene) := by
  generalize left : work store = ending at ran
  generalize right : parsing scene = otherEnding at ran
  cases ran with
  | ok agrees runs =>
      rw [run_bind_ok left, run_bind_ok right]
      exact (each _ _ _ _ agrees _ _ runs.shows).after runs.spares
  | error fault shows spares =>
      rw [run_bind_error left, run_bind_error right]
      exact .error fault shows spares

/-- A program of tidy code that a parser of the store has runs on the store as in the scene. -/
theorem mirrors_runProgram
    (watches : ∀ record entry, Mirrors (site.on record) (watch entry) (Parsing.enter hook entry))
    {parser : Address} {entry : Entry} {name : Text} {program : Program H}
    (holds : site.parsers[parser]? = some ⟨entry, .generated name (.ok program)⟩)
    (tidy : AreTidy program.code)
    : Mirrors site (runProgram ⟨site.scanner, watch⟩ parser site.record name program)
        (program.run hook name) := by
  intro store scene shows
  let call : Call H := ⟨⟨site.scanner, watch⟩, site.record, parser, store.frames.length⟩
  have own : call.At site watch program.table := ⟨rfl, rfl, entry, name, program, holds, rfl⟩
  have ended := statements_ran own watches program.code tidy (running_new shows)
  change Mirrored site store
    ((Call.answer call program.code >>= _) { store with frames := store.frames ++ [[]] }) _
  rw [Call.answer, Program.run, Code.answer, bind_assoc, bind_assoc]
  refine ended.mirrored fun flow other after locals follows => ?_
  cases follows with
  | next | leave => exact mirrors_throw _
  | answer stands =>
      cases stands with
      | value held =>
          cases held with
          | flag matched => exact mirrors_pure matched
          | _ => exact mirrors_throw _
      | position | record => exact mirrors_throw _

end Store

end StagedParser
