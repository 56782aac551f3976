import StagedParser.Proofs.Code.Generated

/-! Which locals code writes.
A run of code gives new contents to locals that its statements write and to no others, and takes no
local away. Emitted fragments write none but those that they declare themselves.
-/

namespace StagedParser

namespace Code

-----------------------------------------------------------------------------------------
-- Locals that are written
-----------------------------------------------------------------------------------------

/-- The locals that evaluating an expression writes: a parser that is called may set its record. -/
def Expr.writes : Expr → List Name
  | .parse _ record => [record]
  | _ => []

/-- The locals that a statement itself declares or assigns. -/
def Stmt.writes : Stmt → List Name
  | .declare names => names
  | .define name _ | .garbled name => [name]
  | .assign target value => target :: value.writes
  | _ => []

/-- The locals that code declares or assigns, at any depth. -/
def written (code : List Stmt) : List Name :=
  (statements code).flatMap Stmt.writes

/-- Locals that differ from earlier ones in what was given to some names since. -/
inductive Locals.Assigned (names : List Name) (before : Locals) : Locals → Prop
  | refl : Assigned names before before
  | set {between : Locals} {name : Name} (earlier : Assigned names before between)
    (member : name ∈ names) (datum : Datum)
    : Assigned names before (between.set name datum)

namespace Locals.Assigned

variable {names more : List Name} {before between after : Locals}

/-- Assignments to locals of one list can follow each other, by induction on the later ones. -/
theorem trans (left : Assigned names before between) (right : Assigned names between after)
    : Assigned names before after := by
  induction right with
  | refl => exact left
  | set earlier member datum ih => exact ih.set member datum

/-- Assignments to some locals are assignments to any list that has them. -/
theorem mono (subset : names ⊆ more) (assigned : Assigned names before after)
    : Assigned more before after := by
  induction assigned with
  | refl => exact .refl
  | set earlier member datum ih => exact ih.set (subset member) datum

/-- A local that is not among them holds what it held before, by induction on the assignments. -/
theorem get?_eq (assigned : Assigned names before after) {name : Name} (absent : name ∉ names)
    : after.get? name = before.get? name := by
  induction assigned with
  | refl => rfl
  | @set between other earlier member datum ih =>
      have differ : name ≠ other := fun same => absent (same ▸ member)
      rw [get?_set_of_ne between datum differ, ih]

/-- No local is taken away. -/
theorem held (assigned : Assigned names before after) {name : Name} {datum : Datum}
    (held : before.get? name = some datum)
    : ∃ later, after.get? name = some later := by
  induction assigned with
  | refl => exact ⟨datum, held⟩
  | @set between other earlier member given ih =>
      by_cases same : name = other
      · exact ⟨given, by rw [same, get?_set_self]⟩
      · rwa [get?_set_of_ne between given same]

/-- Declaring locals writes them, by induction on the declared names. -/
theorem declare (locals : Locals) (names : List Name)
    : Assigned names locals (locals.declare names) := by
  induction names generalizing locals with
  | nil => exact .refl
  | cons name rest ih =>
      have first : Assigned (name :: rest) locals (locals.set name (.value .absent)) :=
        .set .refl List.mem_cons_self _
      exact first.trans ((ih _).mono (List.subset_cons_self name rest))

end Locals.Assigned

/-- Declared locals hold something, by induction on the declared names. -/
theorem Locals.held_of_declare (locals : Locals) {names : List Name} {name : Name}
    (member : name ∈ names)
    : ∃ datum, (locals.declare names).get? name = some datum := by
  induction names generalizing locals with
  | nil => cases member
  | cons first rest ih =>
      rcases List.mem_cons.mp member with rfl | later
      · exact (Assigned.declare _ rest).held (get?_set_self locals name _)
      · exact ih _ later

section Runs

variable {H : Host} {σ : Type} {hook : Hook σ} {table : List (Constant H)} {locals after : Locals}
  {scene later : Scene σ}

/-- Evaluating an expression assigns only to the record that it passes to a parser, by the kinds
of expressions. -/
theorem Expr.eval_assigned (expression : Expr) {datum : Datum}
    (ran : expression.eval hook table locals scene = .ok (datum, after) later)
    : Locals.Assigned expression.writes locals after := by
  cases expression with
  | parse slot record =>
      rw [eval] at ran
      cases bound : table[slot]? with
      | none =>
          rw [bound] at ran
          cases ran
      | some constant =>
          cases held : locals.get? record with
          | none =>
              rw [bound, held] at ran
              cases constant <;> cases ran
          | some content =>
              rw [bound, held] at ran
              cases constant with
              | foreign entry parser =>
                  cases content with
                  | record own =>
                      obtain ⟨_, _, _, continued⟩ := of_run_bind ran
                      cases continued
                      exact .set .refl (by simp [writes]) _
                  | _ => cases ran
              | _ => cases ran
  | newRecord slot =>
      rw [eval] at ran
      cases bound : table[slot]? with
      | none =>
          rw [bound] at ran
          cases ran
      | some constant =>
          rw [bound] at ran
          cases constant with
          | recordMaker =>
              cases ran
              exact .refl
          | _ => cases ran
  | call slot argument =>
      rw [eval] at ran
      cases bound : table[slot]? with
      | none =>
          rw [bound] at ran
          cases ran
      | some constant =>
          rw [bound] at ran
          cases constant with
          | conversion function =>
              obtain ⟨_, _, _, valued⟩ := of_run_bind ran
              obtain ⟨_, _, _, continued⟩ := of_run_bind valued
              cases continued
              exact .refl
          | _ => cases ran
  | notNull value =>
      rw [eval] at ran
      obtain ⟨content, _, _, continued⟩ := of_run_bind ran
      have kept : after = locals := by
        cases content with
        | value held => cases held <;> cases continued <;> rfl
        | _ => cases continued; rfl
      rw [kept]
      exact .refl
  | atom value =>
      rw [eval] at ran
      obtain ⟨_, _, _, continued⟩ := of_run_bind ran
      cases continued
      exact .refl
  | onCursor method arguments =>
      rw [eval] at ran
      obtain ⟨_, _, _, continued⟩ := of_run_bind ran
      cases continued
      exact .refl

mutual

/-- A run of a statement writes what the statement and those inside of it write. -/
theorem Stmt.run_assigned (statement : Stmt) {locals after : Locals} {scene later : Scene σ}
    {flow : Flow} (ran : statement.run hook table locals scene = .ok (flow, after) later)
    : Locals.Assigned (statement.statements.flatMap Stmt.writes) locals after := by
  cases statement with
  | block label body =>
      rw [Stmt.run] at ran
      obtain ⟨⟨inner, left⟩, between, ranBody, continued⟩ := of_run_bind ran
      have assigned := runAll_assigned body ranBody
      have kept : after = left := by
        cases inner <;> cases continued <;> rfl
      rw [kept, Stmt.statements, List.flatMap_cons]
      exact assigned.mono (List.subset_append_right _ _)
  | branch condition yes no =>
      rw [Stmt.run] at ran
      rw [Stmt.statements, List.flatMap_cons, List.flatMap_append]
      cases held : locals.get? condition with
      | none =>
          rw [held] at ran
          cases ran
      | some datum =>
          rw [held] at ran
          dsimp only at ran
          split at ran
          · exact (runAll_assigned yes ran).mono (by simp [Stmt.writes, written])
          · exact (runAll_assigned no ran).mono (by simp [Stmt.writes, written])
  | declare names =>
      rw [Stmt.run] at ran
      cases ran
      simpa [Stmt.statements, Stmt.writes] using Locals.Assigned.declare locals names
  | define name value =>
      rw [Stmt.run] at ran
      obtain ⟨_, _, _, continued⟩ := of_run_bind ran
      cases continued
      exact .set .refl (by simp [Stmt.statements, Stmt.writes]) _
  | assign target value =>
      rw [Stmt.run] at ran
      obtain ⟨⟨datum, left⟩, between, evaluated, continued⟩ := of_run_bind ran
      have assigned := value.eval_assigned evaluated
      cases continued
      refine .set (assigned.mono ?_) (by simp [Stmt.statements, Stmt.writes]) _
      simp [Stmt.statements, Stmt.writes]
  | enter slot =>
      obtain ⟨_, rfl⟩ := of_run_enter ran
      exact .refl
  | moveTo target =>
      obtain ⟨_, rfl⟩ := of_run_moveTo ran
      exact .refl
  | report start stop value =>
      obtain ⟨_, rfl⟩ := of_run_report ran
      exact .refl
  | leave label =>
      rw [Stmt.run] at ran
      cases ran
      exact .refl
  | answer value =>
      rw [Stmt.run] at ran
      obtain ⟨_, _, _, continued⟩ := of_run_bind ran
      cases continued
      exact .refl
  | garbled target =>
      rw [Stmt.run] at ran
      cases ran

/-- A run of code writes what its statements write. -/
theorem runAll_assigned (code : List Stmt) {locals after : Locals} {scene later : Scene σ} {flow : Flow}
    (ran : runAll hook table locals code scene = .ok (flow, after) later)
    : Locals.Assigned (written code) locals after := by
  cases code with
  | nil =>
      rw [runAll] at ran
      cases ran
      exact .refl
  | cons first rest =>
      rw [runAll] at ran
      obtain ⟨⟨inner, left⟩, between, ranFirst, continued⟩ := of_run_bind ran
      have assigned : Locals.Assigned (written (first :: rest)) locals left :=
        (Stmt.run_assigned first ranFirst).mono (by simp [written, statements])
      cases inner with
      | next =>
          exact assigned.trans ((runAll_assigned rest continued).mono (by simp [written, statements]))
      | leave target =>
          cases continued
          exact assigned
      | answer datum =>
          cases continued
          exact assigned

end

end Runs

-----------------------------------------------------------------------------------------
-- Fragments
-----------------------------------------------------------------------------------------

/-- The locals of a fragment: its own and those that its code declares, at any depth. -/
def Fragment.names (fragment : Fragment) : List Name :=
  fragment.locals ++ declared fragment.body

/-- Code in two parts writes what its parts write. -/
theorem written_append (code more : List Stmt)
    : written (code ++ more) = written code ++ written more := by
  rw [written, statements_append, List.flatMap_append]
  rfl

/-- Code in two parts declares what its parts declare. -/
theorem declared_append (code more : List Stmt)
    : declared (code ++ more) = declared code ++ declared more := by
  rw [declared, statements_append, List.flatMap_append]
  rfl

/-- A spliced fragment writes its locals, by declaring them, and what its body writes. -/
theorem Fragment.written_spliced (fragment : Fragment)
    : written fragment.spliced = fragment.locals ++ written fragment.body := by
  rw [spliced]
  split
  · next none => rw [List.isEmpty_iff.mp none, List.nil_append]
  · rfl

/-- A spliced fragment declares its names: its locals, and what its body declares. -/
theorem Fragment.declared_spliced (fragment : Fragment)
    : declared fragment.spliced = fragment.names := by
  rw [spliced, names]
  split
  · next none => rw [List.isEmpty_iff.mp none, List.nil_append]
  · rfl

/-- Code that writes only locals that it declares itself and some others. -/
def WritesOwn (others : List Name) (code : List Stmt) : Prop :=
  written code ⊆ others ++ declared code

/-- Code in two parts writes only its own locals and some others, if both parts do. -/
theorem WritesOwn.append {others : List Name} {code more : List Stmt} (own : WritesOwn others code)
    (ownMore : WritesOwn others more)
    : WritesOwn others (code ++ more) := by
  rw [WritesOwn, written_append, declared_append, List.append_subset]
  refine ⟨fun name member => ?_, fun name member => ?_⟩
  · have inside := own member
    grind
  · have inside := ownMore member
    grind

/-- So does code made of pieces, by induction on the pieces. -/
theorem WritesOwn.flatMap {α : Type} {others : List Name} {pieces : List α} {code : α → List Stmt}
    (each : ∀ piece ∈ pieces, WritesOwn others (code piece))
    : WritesOwn others (pieces.flatMap code) := by
  induction pieces with
  | nil => simp [WritesOwn, written, statements]
  | cons first rest ih =>
      rw [List.flatMap_cons]
      exact (each first List.mem_cons_self).append
        (ih fun piece member => each piece (List.mem_cons_of_mem first member))

/-- So does a statement with code after it, as code in two parts. -/
theorem WritesOwn.cons {others : List Name} {first : Stmt} {rest : List Stmt}
    (own : WritesOwn others [first]) (ownRest : WritesOwn others rest)
    : WritesOwn others (first :: rest) :=
  own.append ownRest

section Statements

variable {others : List Name}

/-- No code writes nothing. -/
theorem writesOwn_nil : WritesOwn others [] := by
  simp [WritesOwn, written, statements]

/-- An announcement writes nothing. -/
theorem writesOwn_enter (slot : Nat) : WritesOwn others [.enter slot] := by
  simp [WritesOwn, written, statements, Stmt.statements, Stmt.writes]

/-- A move writes nothing. -/
theorem writesOwn_moveTo (target : Atom) : WritesOwn others [.moveTo target] := by
  simp [WritesOwn, written, statements, Stmt.statements, Stmt.writes]

/-- Leaving a block writes nothing. -/
theorem writesOwn_leave (label : Name) : WritesOwn others [.leave label] := by
  simp [WritesOwn, written, statements, Stmt.statements, Stmt.writes]

/-- An assignment writes its target, and the record that its expression passes to a parser. -/
theorem writesOwn_assign {target : Name} {value : Expr} (member : target ∈ others)
    (inside : value.writes ⊆ others)
    : WritesOwn others [.assign target value] := by
  simp [WritesOwn, written, declared, statements, Stmt.statements, Stmt.writes, Stmt.declares, member,
    inside]

/-- A block writes what its body writes. -/
theorem writesOwn_block {label : Name} {body : List Stmt} (own : WritesOwn others body)
    : WritesOwn others [.block label body] := by
  simpa [WritesOwn, written, declared, statements, Stmt.statements, Stmt.writes, Stmt.declares]
    using own

/-- A branch writes what its two sides write. -/
theorem writesOwn_branch {condition : Name} {yes no : List Stmt} (ownYes : WritesOwn others yes)
    (ownNo : WritesOwn others no)
    : WritesOwn others [.branch condition yes no] := by
  simpa [WritesOwn, written, declared, statements, statements_append, Stmt.statements, Stmt.writes,
    Stmt.declares] using ownYes.append ownNo

end Statements

/-- A fragment that writes only its own locals also does so where it is spliced and its value is
converted into locals of whoever splices it. -/
theorem Fragment.writesOwn_converting {fragment : Fragment}
    (own : WritesOwn fragment.locals fragment.body) {others : List Name} {success value : Name}
    {expression : Expr} (silent : expression.writes = []) (memberSuccess : success ∈ others)
    (memberValue : value ∈ others) {yes no rest : List Stmt} (ownYes : WritesOwn others yes)
    (ownNo : WritesOwn others no) (ownRest : WritesOwn others rest)
    : WritesOwn others (fragment.converting success value expression yes no rest) := by
  have spliced : WritesOwn others fragment.spliced := by
    rw [WritesOwn, fragment.written_spliced, fragment.declared_spliced, names]
    exact List.append_subset.mpr ⟨by simp, List.subset_append_of_subset_right _ own⟩
  have noted : WritesOwn others [.assign success (.atom (.flag true))] :=
    writesOwn_assign memberSuccess (List.nil_subset _)
  have converted : WritesOwn others [.assign value expression] :=
    writesOwn_assign memberValue (silent ▸ List.nil_subset _)
  exact spliced.append (.cons (writesOwn_branch (.cons noted (.cons converted ownYes)) ownNo) ownRest)

end Code

open Code

variable {H : Host} {table : List (Constant H)}

/-- A conversion passes no record to a parser, by whether there is a function to call. -/
theorem Converted.writes {value : Atom} {conversion : Conversion H} {expression : Expr}
    (converted : Converted table value conversion expression)
    : expression.writes = [] := by
  cases converted with
  | identity => rfl
  | given bound => rfl

/-- Emitted fragments write no locals but their own. Witness: induction on what was emitted. -/
theorem Emitted.writesOwn {grammar : Grammar H} {first last : Nat} {fragment : Fragment}
    (emitted : Emitted table grammar first last fragment)
    : WritesOwn fragment.locals fragment.body := by
  induction emitted with
  | reading leaf bound =>
      refine .cons (writesOwn_enter _) (.cons (writesOwn_assign ?_ ?_) (writesOwn_assign ?_ ?_))
      all_goals simp [readingFragment, Expr.writes]
  | map emitted bound boundFunction ih =>
      refine .cons (writesOwn_enter _) (Fragment.writesOwn_converting ih rfl ?_ ?_ writesOwn_nil
        (writesOwn_assign ?_ ?_) writesOwn_nil)
      all_goals simp [mapFragment, Expr.writes]
  | empty bound =>
      refine .cons (writesOwn_enter _) (writesOwn_assign ?_ ?_)
      all_goals simp [emptyFragment, Expr.writes]
  | @choice grammar alternatives scope last slot _ _ _ _ conversions _ ih =>
      let choice := Emit.Choice.within scope slot
      let own := [choice.success, choice.value, choice.start]
      have tried : WritesOwn own (alternatives.flatMap (·.code choice)) :=
        .flatMap fun a member =>
          Fragment.writesOwn_converting (ih a member) (conversions a member).writes (by simp [own])
            (by simp [own]) (writesOwn_leave _) writesOwn_nil (writesOwn_moveTo _)
      have refused : WritesOwn own [.assign choice.success (.atom (.flag false))] :=
        writesOwn_assign (by simp [own]) (by simp [Expr.writes])
      have started : WritesOwn own [.assign choice.start (.atom .position)] :=
        writesOwn_assign (by simp [own]) (by simp [Expr.writes])
      exact .cons (writesOwn_enter slot) (.cons started (writesOwn_block (tried.append refused)))
  | staged emitted ih => exact ih
  | foreign boundMaker boundSelf =>
      refine .cons (writesOwn_assign ?_ ?_) (writesOwn_assign ?_ ?_)
      all_goals simp [foreignFragment, Expr.writes]

end StagedParser
