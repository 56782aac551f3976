import StagedParser.Program
import StagedParser.Proofs.Code.Running

/-! The form of generated code, told without running it.
Which identifiers code declares and uses, which labels it opens and leaves, which slots it refers to,
and in which ways it can end. What is said about its ends holds for every run of it.
-/

namespace StagedParser

namespace Code

-----------------------------------------------------------------------------------------
-- Identifiers, labels and slots
-----------------------------------------------------------------------------------------

/-- The identifiers that generated code is given. -/
def parameters : List Text :=
  [contextName, resultName, constantsName]

def Atom.identifiers : Atom → List Text
  | .name held | .valueOf held => [held.text]
  | .slot _ => [constantsName]
  | .cursor | .position => [contextName]
  | .text _ | .number _ | .count _ | .flag _ | .null | .absent => []

def Atom.slots : Atom → List Nat
  | .slot index => [index]
  | _ => []

def Expr.identifiers : Expr → List Text
  | .atom value | .notNull value => value.identifiers
  | .newRecord _ => [constantsName]
  | .parse _ record => [constantsName, contextName, record.text]
  | .onCursor _ arguments => contextName :: arguments.flatMap Atom.identifiers
  | .call _ argument => constantsName :: argument.identifiers

def Expr.slots : Expr → List Nat
  | .atom value | .notNull value => value.slots
  | .newRecord slot | .parse slot _ => [slot]
  | .onCursor _ arguments => arguments.flatMap Atom.slots
  | .call slot argument => slot :: argument.slots

namespace Stmt

def declares : Stmt → List Name
  | .declare names => names
  | .define name _ => [name]
  | _ => []

def labels : Stmt → List Name
  | .block label _ => [label]
  | _ => []

/-- The identifiers that a statement itself reads or assigns; those of the statements inside it are
not counted. -/
def identifiers : Stmt → List Text
  | .declare _ | .block .. | .leave _ => []
  | .define _ value | .answer value => value.identifiers
  | .assign target value => target.text :: value.identifiers
  | .enter _ => [contextName, constantsName]
  | .moveTo target => contextName :: target.identifiers
  | .branch condition .. => [condition.text]
  | .report start stop value =>
    resultName :: (start.identifiers ++ stop.identifiers ++ value.identifiers)
  | .garbled target => [target.text]

def slots : Stmt → List Nat
  | .enter slot => [slot]
  | .define _ value | .moveTo value | .answer value => value.slots
  | .assign _ value => value.slots
  | .report start stop value => start.slots ++ stop.slots ++ value.slots
  | .declare _ | .block .. | .leave _ | .branch .. | .garbled _ => []

end Stmt

mutual

/-- A statement and all statements inside it. -/
def Stmt.statements (statement : Stmt) : List Stmt :=
  statement ::
    match statement with
    | .block _ body => statements body
    | .branch _ yes no => statements yes ++ statements no
    | _ => []

/-- All statements of code, at any depth. -/
def statements : List Stmt → List Stmt
  | [] => []
  | first :: rest => first.statements ++ statements rest

end

/-- The names that code declares, at any depth. -/
def declared (code : List Stmt) : List Name :=
  (statements code).flatMap Stmt.declares

/-- The labels that code opens, at any depth. -/
def labels (code : List Stmt) : List Name :=
  (statements code).flatMap Stmt.labels

mutual

/-- A statement is well formed where the identifiers `visible` may be used, inside blocks with the
labels `enclosing`, and with a table of `size` constants. -/
def Stmt.WellFormed (size : Nat) (visible enclosing : List Text) (statement : Stmt) : Prop :=
  statement.identifiers ⊆ visible
  ∧ (∀ slot ∈ statement.slots, slot < size)
  ∧ match statement with
    | .declare names => names ≠ []
    | .block label body => WellFormed size visible (label.text :: enclosing) body
    | .leave label => label.text ∈ enclosing
    | .branch _ yes no => WellFormed size visible enclosing yes ∧ WellFormed size visible enclosing no
    | .garbled _ => False
    | _ => True

/-- Code is well formed: each statement is, where in addition the identifiers may be used that the
statements before it declare. -/
def WellFormed (size : Nat) (visible enclosing : List Text) : List Stmt → Prop
  | [] => True
  | first :: rest =>
    first.WellFormed size visible enclosing
    ∧ WellFormed size (first.declares.map Name.text ++ visible) enclosing rest

end

section Statements

variable {size : Nat} {visible enclosing : List Text}

-- Outside of this section the lemmas below speak for the definitions.
attribute [local simp] Stmt.WellFormed Stmt.identifiers Stmt.slots

/-- No code at all is well formed. -/
@[simp]
theorem wellFormed_nil : WellFormed size visible enclosing [] := by
  rw [WellFormed]
  trivial

/-- Code is well formed if its first statement is, and the rest is where the names are visible
which that statement declares. -/
@[simp]
theorem wellFormed_cons {first : Stmt} {rest : List Stmt}
    : WellFormed size visible enclosing (first :: rest)
      ↔ first.WellFormed size visible enclosing
        ∧ WellFormed size (first.declares.map Name.text ++ visible) enclosing rest := by
  rw [WellFormed]

/-- A declaration is well formed if it declares anything. -/
@[simp]
theorem wellFormed_declare {names : List Name}
    : (Stmt.declare names).WellFormed size visible enclosing ↔ names ≠ [] := by
  simp

/-- A definition may use what is visible and the slots of the table. -/
@[simp]
theorem wellFormed_define {name : Name} {value : Atom}
    : (Stmt.define name value).WellFormed size visible enclosing
      ↔ value.identifiers ⊆ visible ∧ ∀ slot ∈ value.slots, slot < size := by
  simp

/-- An assignment may use the same, and its target must be visible. -/
@[simp]
theorem wellFormed_assign {target : Name} {value : Expr}
    : (Stmt.assign target value).WellFormed size visible enclosing
      ↔ target.text ∈ visible ∧ value.identifiers ⊆ visible ∧ ∀ slot ∈ value.slots, slot < size := by
  simp [and_assoc]

/-- An announcement needs the context and the table, and a slot of the table. -/
@[simp]
theorem wellFormed_enter {slot : Nat}
    : (Stmt.enter slot).WellFormed size visible enclosing
      ↔ contextName ∈ visible ∧ constantsName ∈ visible ∧ slot < size := by
  simp [and_assoc]

/-- A move needs the context, and a target made of visible names and slots of the table. -/
@[simp]
theorem wellFormed_moveTo {target : Atom}
    : (Stmt.moveTo target).WellFormed size visible enclosing
      ↔ contextName ∈ visible ∧ target.identifiers ⊆ visible ∧ ∀ slot ∈ target.slots, slot < size := by
  simp [and_assoc]

/-- A block is well formed if its body is, where the label of the block may be left. -/
@[simp]
theorem wellFormed_block {label : Name} {body : List Stmt}
    : (Stmt.block label body).WellFormed size visible enclosing
      ↔ WellFormed size visible (label.text :: enclosing) body := by
  simp

/-- Only a label around it may be left. -/
@[simp]
theorem wellFormed_leave {label : Name}
    : (Stmt.leave label).WellFormed size visible enclosing ↔ label.text ∈ enclosing := by
  simp

/-- A branch is well formed if its condition is visible and both sides are well formed. -/
@[simp]
theorem wellFormed_branch {condition : Name} {yes no : List Stmt}
    : (Stmt.branch condition yes no).WellFormed size visible enclosing
      ↔ condition.text ∈ visible
        ∧ WellFormed size visible enclosing yes ∧ WellFormed size visible enclosing no := by
  simp

/-- A report needs the caller's record, and operands made of visible names and slots of the table.
-/
@[simp]
theorem wellFormed_report {start stop value : Atom}
    : (Stmt.report start stop value).WellFormed size visible enclosing
      ↔ resultName ∈ visible
        ∧ start.identifiers ++ stop.identifiers ++ value.identifiers ⊆ visible
        ∧ ∀ slot ∈ start.slots ++ stop.slots ++ value.slots, slot < size := by
  simp [and_assoc]

/-- An answer may use what is visible and the slots of the table. -/
@[simp]
theorem wellFormed_answer {value : Atom}
    : (Stmt.answer value).WellFormed size visible enclosing
      ↔ value.identifiers ⊆ visible ∧ ∀ slot ∈ value.slots, slot < size := by
  simp

/-- An assignment that cannot be read is never well formed. -/
theorem not_wellFormed_garbled {target : Name}
    : ¬ (Stmt.garbled target).WellFormed size visible enclosing := by
  simp

end Statements

mutual

/-- A statement stays well formed where more identifiers may be used and more blocks can be left. -/
theorem Stmt.WellFormed.mono {size : Nat} {visible wider enclosing outer : List Text}
    {statement : Stmt} (more : visible ⊆ wider) (moreLabels : enclosing ⊆ outer)
    (formed : statement.WellFormed size visible enclosing)
    : statement.WellFormed size wider outer := by
  cases statement with
  | block label body =>
      rw [wellFormed_block] at formed ⊢
      exact formed.mono more (List.cons_subset_cons _ moreLabels)
  | branch condition yes no =>
      rw [wellFormed_branch] at formed ⊢
      obtain ⟨seen, left, right⟩ := formed
      exact ⟨more seen, left.mono more moreLabels, right.mono more moreLabels⟩
  | leave label =>
      rw [wellFormed_leave] at formed ⊢
      exact moreLabels formed
  | _ =>
      simp only [Stmt.WellFormed] at formed ⊢
      obtain ⟨used, slots, rest⟩ := formed
      exact ⟨List.Subset.trans used more, slots, rest⟩

/-- Code stays well formed where more is visible and more labels are around, by induction on its
statements; what it declares is added to both. -/
theorem WellFormed.mono {size : Nat} {visible wider enclosing outer : List Text}
    {code : List Stmt} (more : visible ⊆ wider) (moreLabels : enclosing ⊆ outer)
    (formed : WellFormed size visible enclosing code)
    : WellFormed size wider outer code := by
  cases code with
  | nil => exact wellFormed_nil
  | cons first rest =>
      rw [wellFormed_cons] at formed ⊢
      obtain ⟨head, tail⟩ := formed
      refine ⟨head.mono more moreLabels, tail.mono (fun identifier inside => ?_) moreLabels⟩
      rw [List.mem_append] at inside ⊢
      exact inside.imp_right fun seen => more seen

end

/-- Code that follows other code is well formed if it is where it may use what that code declares. -/
theorem WellFormed.append {size : Nat} {visible enclosing : List Text} {code more : List Stmt}
    (formed : WellFormed size visible enclosing code)
    (formedMore
      : WellFormed size ((code.flatMap Stmt.declares).map Name.text ++ visible) enclosing more)
    : WellFormed size visible enclosing (code ++ more) := by
  induction code generalizing visible with
  | nil => exact formedMore
  | cons first rest ih =>
      rw [wellFormed_cons] at formed
      rw [List.cons_append, wellFormed_cons]
      refine ⟨formed.1, ih formed.2 (formedMore.mono ?_ (List.Subset.refl enclosing))⟩
      intro identifier inside
      simp only [List.flatMap_cons, List.map_append, List.mem_append] at inside ⊢
      rcases inside with (own | later) | before
      · exact .inr (.inl own)
      · exact .inl later
      · exact .inr (.inr before)

mutual

/-- A well-formed statement can be read, by the kinds of statements: the only kind that cannot is
never well formed. -/
theorem Stmt.WellFormed.isReadable {size : Nat} {visible enclosing : List Text} {statement : Stmt}
    (formed : statement.WellFormed size visible enclosing)
    : statement.isReadable = true := by
  cases statement with
  | block label body =>
      rw [wellFormed_block] at formed
      rw [Stmt.isReadable]
      exact formed.areReadable
  | branch condition yes no =>
      rw [wellFormed_branch] at formed
      rw [Stmt.isReadable, formed.2.1.areReadable, formed.2.2.areReadable]
      rfl
  | garbled target => exact absurd formed not_wellFormed_garbled
  | _ => simp only [Stmt.isReadable]

/-- So can well-formed code, by induction on its statements. -/
theorem WellFormed.areReadable {size : Nat} {visible enclosing : List Text} {code : List Stmt}
    (formed : WellFormed size visible enclosing code)
    : areReadable code = true := by
  cases code with
  | nil => rw [Code.areReadable]
  | cons first rest =>
      rw [wellFormed_cons] at formed
      rw [Code.areReadable, formed.1.isReadable, formed.2.areReadable]
      rfl

end

-----------------------------------------------------------------------------------------
-- The ways in which code can end
-----------------------------------------------------------------------------------------

/-- A way in which code can end. -/
inductive Exit where
  /-- It lets the next statement follow. -/
  | falls
  /-- It leaves the block with a label. -/
  | leaves (label : Name)
  /-- It ends the run with what an operand denotes. -/
  | answers (value : Atom)
deriving DecidableEq, Repr

mutual

/-- The ways in which a statement can end, whatever its conditions hold. -/
def Stmt.exits : Stmt → List Exit
  | .block label body => (exits body).map fun exit => if exit = .leaves label then .falls else exit
  | .leave label => [.leaves label]
  | .branch _ yes no => exits yes ++ exits no
  | .answer value => [.answers value]
  | .declare _ | .define .. | .assign .. | .enter _ | .moveTo _ | .report .. | .garbled _ => [.falls]

def exits : List Stmt → List Exit
  | [] => [.falls]
  | first :: rest =>
    first.exits.filter (· ≠ .falls) ++ if .falls ∈ first.exits then exits rest else []

end

/-- What follows code that ended in some way. -/
inductive Follows {H : Host} (σ : Type) (table : List (Constant H)) : Exit → Flow → Prop
  | falls : Follows σ table .falls .next
  | leaves (label : Name) : Follows σ table (.leaves label) (.leave label)
  | answers (value : Atom) (locals : Locals) {datum : Datum} {scene later : Scene σ}
    (evaluated : value.eval table locals scene = .ok datum later)
    : Follows σ table (.answers value) (.answer datum)

/-- Code ends in one of the ways of its statements. -/
theorem mem_exits_cons {exit : Exit} {first : Stmt} {rest : List Stmt}
    : exit ∈ exits (first :: rest)
      ↔ exit ∈ first.exits ∧ exit ≠ .falls ∨ .falls ∈ first.exits ∧ exit ∈ exits rest := by
  rw [exits, List.mem_append, List.mem_filter]
  by_cases falls : Exit.falls ∈ first.exits
  · simp [falls]
  · simp [falls]

/-- Code that follows other code is reached only if that code falls through, by induction on the
first code. -/
theorem mem_exits_append {exit : Exit} {code more : List Stmt}
    : exit ∈ exits (code ++ more)
      ↔ exit ∈ exits code ∧ exit ≠ .falls ∨ .falls ∈ exits code ∧ exit ∈ exits more := by
  induction code with
  | nil =>
      rw [List.nil_append, exits]
      simp
  | cons first rest ih =>
      rw [List.cons_append, mem_exits_cons, ih, mem_exits_cons, mem_exits_cons]
      grind

section Runs

variable {H : Host} {σ : Type} {hook : Hook σ} {table : List (Constant H)}

mutual

/-- Every run of a statement that returns ends in one of the ways of the statement. -/
theorem Stmt.exits_sound (statement : Stmt) {locals after : Locals} {scene later : Scene σ}
    {flow : Flow} (ran : statement.run hook table locals scene = .ok (flow, after) later)
    : ∃ exit ∈ statement.exits, Follows σ table exit flow := by
  cases statement with
  | block label body =>
      rw [Stmt.run] at ran
      obtain ⟨⟨inner, left⟩, between, ranBody, continued⟩ := of_run_bind ran
      obtain ⟨exit, member, follows⟩ := exits_sound body ranBody
      rw [Stmt.exits]
      refine ⟨_, List.mem_map_of_mem member, ?_⟩
      cases follows with
      | falls =>
          cases continued
          exact .falls
      | leaves target =>
          cases continued
          by_cases same : target = label
          · simpa [same] using Follows.falls
          · simpa [same] using Follows.leaves target
      | answers value locals evaluated =>
          cases continued
          exact .answers value locals evaluated
  | branch condition yes no =>
      rw [Stmt.run] at ran
      rw [Stmt.exits]
      cases held : locals.get? condition with
      | none =>
          rw [held] at ran
          cases ran
      | some datum =>
          rw [held] at ran
          dsimp only at ran
          split at ran
          · obtain ⟨exit, member, follows⟩ := exits_sound yes ran
            exact ⟨exit, List.mem_append_left _ member, follows⟩
          · obtain ⟨exit, member, follows⟩ := exits_sound no ran
            exact ⟨exit, List.mem_append_right _ member, follows⟩
  | leave label =>
      rw [Stmt.run] at ran
      cases ran
      rw [Stmt.exits]
      exact ⟨.leaves label, by simp, .leaves label⟩
  | answer value =>
      rw [Stmt.run] at ran
      obtain ⟨datum, between, evaluated, continued⟩ := of_run_bind ran
      cases continued
      rw [Stmt.exits]
      exact ⟨.answers value, by simp, .answers value locals evaluated⟩
  | declare names =>
      rw [Stmt.run] at ran
      cases ran
      exact ⟨.falls, by simp [Stmt.exits], .falls⟩
  | define name value =>
      rw [Stmt.run] at ran
      obtain ⟨_, _, _, continued⟩ := of_run_bind ran
      cases continued
      exact ⟨.falls, by simp [Stmt.exits], .falls⟩
  | assign target value =>
      rw [Stmt.run] at ran
      obtain ⟨_, _, _, continued⟩ := of_run_bind ran
      cases continued
      exact ⟨.falls, by simp [Stmt.exits], .falls⟩
  | enter slot =>
      obtain ⟨rfl, _⟩ := of_run_enter ran
      exact ⟨.falls, by simp [Stmt.exits], .falls⟩
  | moveTo target =>
      obtain ⟨rfl, _⟩ := of_run_moveTo ran
      exact ⟨.falls, by simp [Stmt.exits], .falls⟩
  | report start stop value =>
      obtain ⟨rfl, _⟩ := of_run_report ran
      exact ⟨.falls, by simp [Stmt.exits], .falls⟩
  | garbled target =>
      rw [Stmt.run] at ran
      cases ran

/-- Every run of code that returns ends in one of the ways of the code. -/
theorem exits_sound (code : List Stmt) {locals after : Locals} {scene later : Scene σ}
    {flow : Flow} (ran : runAll hook table locals code scene = .ok (flow, after) later)
    : ∃ exit ∈ exits code, Follows σ table exit flow := by
  cases code with
  | nil =>
      rw [runAll] at ran
      cases ran
      rw [exits]
      exact ⟨.falls, by simp, .falls⟩
  | cons first rest =>
      rw [runAll] at ran
      obtain ⟨⟨inner, left⟩, between, ranFirst, continued⟩ := of_run_bind ran
      obtain ⟨exit, member, follows⟩ := Stmt.exits_sound first ranFirst
      cases follows with
      | falls =>
          obtain ⟨last, memberRest, followsRest⟩ := exits_sound rest continued
          exact ⟨last, mem_exits_cons.mpr (.inr ⟨member, memberRest⟩), followsRest⟩
      | leaves label =>
          cases continued
          exact ⟨_, mem_exits_cons.mpr (.inl ⟨member, by simp⟩), .leaves label⟩
      | answers value locals evaluated =>
          cases continued
          exact ⟨_, mem_exits_cons.mpr (.inl ⟨member, by simp⟩), .answers value locals evaluated⟩

end

end Runs

end Code

end StagedParser
