import StagedParser.Code.Machine
import StagedParser.Proofs.Parsing.Records

/-! Running generated code piece by piece.
A local holds what it was last given, names of other scopes are left alone, and code that lets the
next statement follow can be run in parts.
-/

namespace StagedParser

namespace Code

variable {H : Host} {σ : Type}

-----------------------------------------------------------------------------------------
-- Locals
-----------------------------------------------------------------------------------------

namespace Locals

/-- A local holds what it was given last. -/
@[simp]
theorem get?_set_self (locals : Locals) (name : Name) (datum : Datum)
    : (locals.set name datum).get? name = some datum := by
  simp [get?, set]

/-- Giving a local something leaves the other locals alone. -/
theorem get?_set_of_ne (locals : Locals) {name other : Name} (datum : Datum) (differ : other ≠ name)
    : (locals.set name datum).get? other = locals.get? other := by
  simp [get?, set, List.lookup_cons, beq_false_of_ne differ]

/-- Declaring locals leaves the other locals alone, by induction on the declared names. -/
theorem get?_declare_of_not_mem (locals : Locals) (names : List Name) {other : Name}
    (absent : other ∉ names)
    : (locals.declare names).get? other = locals.get? other := by
  induction names generalizing locals with
  | nil => rfl
  | cons name rest ih =>
      rw [List.mem_cons, not_or] at absent
      exact (ih (locals.set name _) absent.2).trans (get?_set_of_ne locals _ absent.1)

end Locals

/-- A name of one of the scopes from `first` up to `last`. -/
def Inside (first last : Nat) (name : Name) : Prop :=
  ∃ scope, name.mark = .inScope scope ∧ first ≤ scope ∧ scope < last

/-- A name of some scopes is one of any wider range of scopes. -/
theorem Inside.mono {first last outerFirst outerLast : Nat} {name : Name}
    (inside : Inside first last name) (low : outerFirst ≤ first) (high : last ≤ outerLast)
    : Inside outerFirst outerLast name := by
  obtain ⟨scope, mark, above, below⟩ := inside
  exact ⟨scope, mark, by omega, by omega⟩

/-- Two states of the locals that differ at most in names of the scopes from `first` up to
`last`. -/
def SameOutside (first last : Nat) (before after : Locals) : Prop :=
  ∀ name, ¬ Inside first last name → after.get? name = before.get? name

namespace SameOutside

variable {first last : Nat} {before between after : Locals}

/-- Locals differ nowhere from themselves. -/
theorem refl (first last : Nat) (locals : Locals) : SameOutside first last locals locals :=
  fun _ _ => rfl

/-- Differences in the same scopes compose, by following each name outside of them. -/
theorem trans (left : SameOutside first last before between)
    (right : SameOutside first last between after)
    : SameOutside first last before after :=
  fun name outside => (right name outside).trans (left name outside)

/-- Locals that differ in some scopes at most differ in a wider range at most. -/
theorem mono {outerFirst outerLast : Nat} (same : SameOutside first last before after)
    (low : outerFirst ≤ first) (high : last ≤ outerLast)
    : SameOutside outerFirst outerLast before after :=
  fun name outside => same name fun inside => outside (inside.mono low high)

/-- Giving a local of the scopes something makes no difference outside of them. -/
theorem set (same : SameOutside first last before after) {name : Name}
    (inside : Inside first last name) (datum : Datum)
    : SameOutside first last before (after.set name datum) := by
  intro other outside
  have differ : other ≠ name := fun equal => outside (equal ▸ inside)
  rw [Locals.get?_set_of_ne after datum differ]
  exact same other outside

/-- Declaring locals of the scopes makes none either, by what declaring leaves alone. -/
theorem declare (locals : Locals) {names : List Name} (inside : ∀ name ∈ names, Inside first last name)
    : SameOutside first last locals (locals.declare names) :=
  fun _ outside =>
    Locals.get?_declare_of_not_mem locals names fun member => outside (inside _ member)

end SameOutside

-----------------------------------------------------------------------------------------
-- Running code in parts
-----------------------------------------------------------------------------------------

section Parts

variable {hook : Hook σ} {table : List (Constant H)} {locals after : Locals}
  {scene later : Scene σ} {fault : Fault}

/-- Code goes on after a first statement that lets the next one follow. -/
theorem runAll_cons_of_next {first : Stmt} (rest : List Stmt)
    (ran : first.run hook table locals scene = .ok (.next, after) later)
    : runAll hook table locals (first :: rest) scene = runAll hook table after rest later := by
  rw [runAll, run_bind_ok ran]

/-- Code ends with the fault of its first statement. -/
theorem runAll_cons_of_fault {first : Stmt} (rest : List Stmt)
    (ran : first.run hook table locals scene = .error fault later)
    : runAll hook table locals (first :: rest) scene = .error fault later := by
  rw [runAll, run_bind_error ran]

section Returns

variable {flow : Flow}

/-- An announcement that returns lets the next statement follow and leaves the locals alone. -/
theorem of_run_enter {slot : Nat}
    (ran : (Stmt.enter slot).run hook table locals scene = .ok (flow, after) later)
    : flow = .next ∧ after = locals := by
  rw [Stmt.run] at ran
  cases bound : table[slot]? with
  | none =>
      rw [bound] at ran
      cases ran
  | some constant =>
      rw [bound] at ran
      cases constant with
      | parser entry | foreign entry parser =>
          obtain ⟨_, _, _, continued⟩ := of_run_bind ran
          cases continued
          exact ⟨rfl, rfl⟩
      | _ => cases ran

/-- Moving the cursor lets the next statement follow and leaves the locals alone. Witness: the
target was evaluated and the move was made, neither of which gives locals anything. -/
theorem of_run_moveTo {target : Atom}
    (ran : (Stmt.moveTo target).run hook table locals scene = .ok (flow, after) later)
    : flow = .next ∧ after = locals := by
  rw [Stmt.run] at ran
  obtain ⟨_, _, _, moved⟩ := of_run_bind ran
  obtain ⟨_, _, _, continued⟩ := of_run_bind moved
  cases continued
  exact ⟨rfl, rfl⟩

/-- So does setting the caller's record, by the three operands that it evaluates. -/
theorem of_run_report {start stop value : Atom}
    (ran : (Stmt.report start stop value).run hook table locals scene = .ok (flow, after) later)
    : flow = .next ∧ after = locals := by
  rw [Stmt.run] at ran
  obtain ⟨_, _, _, started⟩ := of_run_bind ran
  obtain ⟨_, _, _, stopped⟩ := of_run_bind started
  obtain ⟨_, _, _, valued⟩ := of_run_bind stopped
  cases valued
  exact ⟨rfl, rfl⟩

end Returns

/-- Two pieces of code run one after the other, unless the first does not let the second follow.
Witness: induction on the first piece. -/
theorem runAll_append (code more : List Stmt)
    : runAll hook table locals (code ++ more)
      = runAll hook table locals code >>= fun (flow, between) =>
          match flow with
          | .next => runAll hook table between more
          | _ => pure (flow, between) := by
  induction code generalizing locals with
  | nil =>
      rw [List.nil_append, runAll, pure_bind]
  | cons first rest ih =>
      rw [List.cons_append, runAll, runAll, bind_assoc]
      refine congrArg _ (funext fun result => ?_)
      obtain ⟨flow, between⟩ := result
      cases flow with
      | next => exact ih
      | leave label => rw [pure_bind]
      | answer datum => rw [pure_bind]

/-- Code goes on with more code if it lets the next statement follow. -/
theorem runAll_append_of_next {code : List Stmt} (more : List Stmt)
    (ran : runAll hook table locals code scene = .ok (.next, after) later)
    : runAll hook table locals (code ++ more) scene = runAll hook table after more later := by
  rw [runAll_append, run_bind_ok ran]

/-- Code with more code after it ends with the fault of the first part. -/
theorem runAll_append_of_fault {code : List Stmt} (more : List Stmt)
    (ran : runAll hook table locals code scene = .error fault later)
    : runAll hook table locals (code ++ more) scene = .error fault later := by
  rw [runAll_append, run_bind_error ran]

/-- A branch whose condition holds a flag goes on with the side that the flag says. -/
theorem runAll_branch {condition : Name} {flag : Bool} (yes no rest : List Stmt)
    (held : locals.get? condition = some (.value (.flag flag)))
    : runAll hook table locals (.branch condition yes no :: rest)
      = runAll hook table locals ((if flag then yes else no) ++ rest) := by
  have chosen : (Stmt.branch condition yes no).run hook table locals
      = runAll hook table locals (if flag then yes else no) := by
    rw [Stmt.run, held]
    cases flag <;> rfl
  rewrite [runAll, chosen, runAll_append]
  rfl

/-- A block that was left by its label lets the next statement follow. -/
theorem run_block_of_leave {label : Name} {body : List Stmt}
    (ran : runAll hook table locals body scene = .ok (.leave label, after) later)
    : (Stmt.block label body).run hook table locals scene = .ok (.next, after) later := by
  rw [Stmt.run, run_bind_ok ran]
  dsimp only
  rw [if_pos rfl]
  rfl

end Parts

end Code

end StagedParser
