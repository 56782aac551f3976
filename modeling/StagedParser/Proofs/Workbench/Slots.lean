import Mathlib.Data.List.Forall2
import StagedParser.Proofs.Code.Generated
import StagedParser.Proofs.Workbench.Table
import StagedParser.Stock
import StagedParser.Workbench.Script

/-! What the slots in code refer to.
The slots in the code of a grammar are compared, one by one, with the constants that the grammar's nodes
call for. They match by the table at hand when the code is emitted and by every later one. The same is
followed through scripts of work at a workbench, whose steps may fail halfway.
-/

namespace StagedParser

open Code Emit

open Constant (Holds)

variable {H : Host} {table : List (Constant H)}

-----------------------------------------------------------------------------------------
-- Slots in code
-----------------------------------------------------------------------------------------

namespace Code

/-- The slots that code refers to, at any depth, in the order in which it does. -/
def slots (code : List Stmt) : List Nat :=
  (statements code).flatMap Stmt.slots

/-- The slots in the code of a fragment, and then those in its value. -/
def Fragment.slots (fragment : Fragment) : List Nat :=
  Code.slots fragment.spliced ++ fragment.value.slots

/-- The slots of code are those of its parts. -/
theorem slots_append (code more : List Stmt) : slots (code ++ more) = slots code ++ slots more := by
  rw [slots, statements_append, List.flatMap_append]
  rfl

@[simp] theorem Atom.slots_name (held : Name) : (Atom.name held).slots = [] :=
  rfl

@[simp] theorem Expr.slots_flag (value : Bool) : (Expr.atom (.flag value)).slots = [] :=
  rfl

@[simp] theorem Expr.slots_call (slot : Nat) (argument : Atom)
    : (Expr.call slot argument).slots = slot :: argument.slots :=
  rfl

section Statements

variable (rest : List Stmt)

/-- The slots that statements mention, by their kinds: no statements mention none. -/
@[simp] theorem slots_nil : slots [] = [] :=
  rfl

@[simp] theorem slots_declare (names : List Name) : slots (.declare names :: rest) = slots rest :=
  rfl

@[simp] theorem slots_assign (target : Name) (value : Expr)
    : slots (.assign target value :: rest) = value.slots ++ slots rest :=
  rfl

@[simp] theorem slots_enter (slot : Nat) : slots (.enter slot :: rest) = slot :: slots rest :=
  rfl

@[simp] theorem slots_moveTo (target : Atom)
    : slots (.moveTo target :: rest) = target.slots ++ slots rest :=
  rfl

@[simp] theorem slots_leave (label : Name) : slots (.leave label :: rest) = slots rest :=
  rfl

@[simp] theorem slots_block (label : Name) (body : List Stmt)
    : slots (.block label body :: rest) = slots body ++ slots rest := by
  simp [slots, statements, Stmt.statements, Stmt.slots]

@[simp] theorem slots_branch (condition : Name) (yes no : List Stmt)
    : slots (.branch condition yes no :: rest) = slots yes ++ slots no ++ slots rest := by
  simp [slots, statements, Stmt.statements, Stmt.slots]

end Statements

/-- Declaring the names of a fragment mentions no slots. -/
theorem Fragment.slots_spliced (fragment : Fragment)
    : Code.slots fragment.spliced = Code.slots fragment.body := by
  rw [spliced]
  split
  · rfl
  · rw [slots_declare]

end Code

-----------------------------------------------------------------------------------------
-- Constants of grammars
-----------------------------------------------------------------------------------------

/-- The constants that a conversion calls for. -/
def Conversion.constants : Conversion H → List (Constant H)
  | .identity => []
  | .given function => [.conversion (.given function)]

/-- The constants that a parser with code of its own calls for. -/
def Emission.constants : Emission → List (Constant H)
  | .answer constant => [.plain constant]
  | .refused | .garbled => []

mutual

/-- The constants that the code of a grammar is to refer to, in the order of the code. They are bound in
another order: what stands inside of a converted grammar is bound before the grammar itself. -/
def Grammar.constants (grammar : Grammar H) : List (Constant H) :=
  match grammar with
  | .literal .. => [.ofGrammar grammar]
  | .pattern _ test _ _ => [.ofGrammar grammar, .conversion (.given test)]
  | .map _ source transform => .ofGrammar grammar :: (source.constants ++ [.conversion transform])
  | .oneOf _ alternatives => .ofGrammar grammar :: constantsOfAll alternatives
  | .either _ left right ofLeft ofRight =>
    .ofGrammar grammar ::
      (left.constants ++ ofLeft.constants ++ (right.constants ++ ofRight.constants))
  | .staged _ source _ => source.constants
  | .foreign .. => [.recordMaker, .ofGrammar grammar]
  | .scripted _ _ emission => emission.constants

def constantsOfAll : List (Grammar H) → List (Constant H)
  | [] => []
  | first :: rest => first.constants ++ constantsOfAll rest

end

/-- One of the parsers of a grammar refuses to emit code. -/
def Grammar.Refuses (grammar : Grammar H) : Prop :=
  ∃ id name, .scripted id name .refused ∈ grammar.nodes

/-- A grammar refuses code if a part of it does. -/
theorem Grammar.Refuses.parent {child grammar : Grammar H} (member : child ∈ grammar.children)
    (refuses : child.Refuses)
    : grammar.Refuses := by
  obtain ⟨id, name, inside⟩ := refuses
  exact ⟨id, name, nodes_subset_of_mem_children member inside⟩

-----------------------------------------------------------------------------------------
-- Slots in the code of grammars
-----------------------------------------------------------------------------------------

/-- The slots in a fragment hold the wanted constants, and its value needs none. -/
structure Code.Fragment.RefersTo (table : List (Constant H)) (wanted : List (Constant H))
    (fragment : Fragment) : Prop where
  body : List.Forall₂ (Constant.Holds table) (Code.slots fragment.body) wanted
  value : fragment.value.slots = []

namespace Emit

variable {reason : Prop}

/-- The names that fragments ask for are identifiers, so asking for them does not fail. -/
theorem binds_declare_then {α : Type} {base : String}
    (valid : Name.isIdentifier (Text.ofString base) = true) {next : Name → Emit H α}
    {right : List (Constant H) → α → Prop} (each : ∀ name, Binds (next name) reason right)
    : Binds (declare (Text.ofString base) >>= next) reason right := by
  have declares
      : Binds (declare (Text.ofString base)) reason fun (_ : List (Constant H)) _ => True :=
    (binds_declare _).widen fun invalid => absurd valid (by simp [invalid])
  exact declares.bind fun name => (each name).mono id fun _ _ correct _ => correct

/-- Announcing a grammar mentions the slot that holds it. -/
theorem binds_enter (grammar : Grammar H)
    : Binds (enter grammar) reason fun table statement =>
        ∃ slot, statement = .enter slot ∧ Holds table slot (.ofGrammar grammar) :=
  (binds_constant _).bind fun slot => binds_pure fun _ holds => ⟨slot, rfl, holds⟩

/-- A conversion adds its function to what its operand refers to. -/
theorem binds_convert (value : Atom) (conversion : Conversion H)
    : Binds (convert value conversion) reason fun table expression =>
        ∃ own, expression.slots = own ++ value.slots
          ∧ List.Forall₂ (Holds table) own conversion.constants := by
  cases conversion with
  | identity => exact binds_pure fun _ => ⟨[], rfl, .nil⟩
  | given function =>
      refine (binds_constant _).bind fun slot => binds_pure fun table holds => ?_
      exact ⟨[slot], rfl, .cons holds .nil⟩

/-- The code of an alternative mentions what its parser refers to, and then its conversion. -/
theorem binds_alternative (choice : Choice) (fragment : Fragment) (conversion : Conversion H)
    : Binds (alternative choice fragment conversion) reason fun table code =>
        ∀ wanted,
          fragment.RefersTo table wanted
          → List.Forall₂ (Holds table) (slots code) (wanted ++ conversion.constants) := by
  refine (binds_convert fragment.value conversion).bind fun expression => ?_
  refine binds_pure fun table converted wanted refers => ?_
  obtain ⟨own, same, holds⟩ := converted
  rw [refers.value, List.append_nil] at same
  simpa [slots_append, Fragment.slots_spliced, same] using List.rel_append refers.body holds

/-- A choice announces itself first. -/
theorem binds_beginChoice (grammar : Grammar H)
    : Binds (beginChoice grammar) reason fun table choice =>
        ∃ slot, choice.entrance = .enter slot ∧ Holds table slot (.ofGrammar grammar) := by
  refine binds_declare_then (by decide) fun success => ?_
  refine binds_declare_then (by decide) fun value => ?_
  refine (binds_enter grammar).bind fun entrance => ?_
  refine binds_declare_then (by decide) fun start => ?_
  refine binds_declare_then (by decide) fun label => ?_
  exact binds_pure fun _ announced => announced

/-- The code of a choice refers to the choice itself, and then to what its alternatives refer to. -/
theorem Choice.refersTo_fragment {choice : Choice} {slot : Nat} {grammar : Grammar H}
    {code : List Stmt} {wanted : List (Constant H)} (entrance : choice.entrance = .enter slot)
    (holds : Holds table slot (.ofGrammar grammar))
    (alternatives : List.Forall₂ (Holds table) (slots code) wanted)
    : (choice.fragment code).RefersTo table (.ofGrammar grammar :: wanted) where
  body := by
    simpa [Choice.fragment, entrance, slots_append, Expr.slots, Atom.slots] using ⟨holds, alternatives⟩
  value := rfl

/-- A choice without alternatives refers to nothing but itself. -/
theorem binds_emptyChoice (grammar : Grammar H)
    : Binds (emptyChoice grammar) reason fun table fragment =>
        fragment.RefersTo table [.ofGrammar grammar] := by
  refine binds_declare_then (by decide) fun success => ?_
  refine binds_declare_then (by decide) fun value => ?_
  refine (binds_enter grammar).bind fun entrance => binds_pure fun table announced => ?_
  obtain ⟨slot, rfl, holds⟩ := announced
  exact ⟨.cons holds .nil, rfl⟩

/-- Code that reads from the cursor refers to its grammar, and then to what the arguments refer
to. -/
theorem binds_reading (grammar : Grammar H) {success value : String} (method : Method)
    (validSuccess : Name.isIdentifier (Text.ofString success) = true)
    (validValue : Name.isIdentifier (Text.ofString value) = true) {arguments : Emit H (List Atom)}
    {wanted : List (Constant H)}
    (bound
      : Binds arguments reason fun table atoms =>
          List.Forall₂ (Holds table) (atoms.flatMap Atom.slots) wanted)
    : Binds (reading grammar (Text.ofString success) (Text.ofString value) method arguments) reason
        fun table fragment => fragment.RefersTo table (.ofGrammar grammar :: wanted) := by
  refine binds_declare_then validSuccess fun success => ?_
  refine binds_declare_then validValue fun value => ?_
  refine (binds_enter grammar).bind fun entrance => ?_
  refine bound.bind fun atoms => binds_pure fun table given announced => ?_
  obtain ⟨slot, rfl, holds⟩ := announced
  exact ⟨by simpa [Expr.slots] using ⟨holds, given⟩, rfl⟩

/-- Code that hands over refers to the maker of records, and then to its grammar. -/
theorem binds_delegation (grammar : Grammar H)
    : Binds (delegation grammar) reason fun table fragment =>
        fragment.RefersTo table [.recordMaker, .ofGrammar grammar] := by
  refine binds_declare_then (by decide) fun success => ?_
  refine binds_declare_then (by decide) fun record => ?_
  refine (binds_constant _).bind fun maker => (binds_constant _).bind fun self => ?_
  exact binds_pure fun table holdsSelf holdsMaker => ⟨.cons holdsMaker (.cons holdsSelf .nil), rfl⟩

/-- Scripted code refers to what its script gives, unless it refuses. -/
theorem binds_scripted (id : Nat) (name : Text) (emission : Emission)
    : Binds (scripted emission) (Grammar.scripted id name emission : Grammar H).Refuses
        fun (table : List (Constant H)) fragment => fragment.RefersTo table emission.constants := by
  cases emission with
  | refused => exact binds_throw _ ⟨id, name, Grammar.self_mem_nodes _⟩
  | garbled =>
      refine binds_declare_then (by decide) fun success => ?_
      exact binds_pure fun table => ⟨.nil, rfl⟩
  | answer constant =>
      refine binds_declare_then (by decide) fun success => ?_
      refine (binds_constant _).bind fun slot => ?_
      exact binds_pure fun table holds => ⟨.cons holds .nil, rfl⟩

/-- The alternatives of a choice refer to their constants one after another, by induction on the
alternatives. -/
theorem binds_emitAlternatives (choice : Choice) {alternatives : List (Grammar H)}
    (each
      : ∀ alternative ∈ alternatives,
          Binds alternative.emit reason fun table fragment =>
            fragment.RefersTo table alternative.constants)
    : Binds (emitAlternatives choice alternatives) reason fun table code =>
        List.Forall₂ (Holds table) (slots code) (constantsOfAll alternatives) := by
  induction alternatives with
  | nil =>
      rw [emitAlternatives, constantsOfAll]
      exact binds_pure fun _ => .nil
  | cons first rest ih =>
      have later := ih fun alternative member => each alternative (List.mem_cons_of_mem first member)
      rw [emitAlternatives, constantsOfAll]
      refine (each first List.mem_cons_self).inScope.bind fun fragment => ?_
      refine (binds_alternative choice fragment .identity).bind fun code => ?_
      refine later.bind fun more => binds_pure fun table others alternative refers => ?_
      have own := alternative _ refers
      rw [Conversion.constants, List.append_nil] at own
      rw [slots_append]
      exact List.rel_append own others

end Emit

/-- Emitting a grammar fails only if the grammar refuses, and gives a fragment that refers to the
constants of the grammar. By induction on the grammar. -/
theorem Grammar.binds_emit (grammar : Grammar H)
    : Binds grammar.emit grammar.Refuses fun table fragment =>
        fragment.RefersTo table grammar.constants := by
  induction grammar with
  | literal id text ignoreCase =>
      rw [emit, constants]
      exact binds_reading _ .takeText (by decide) (by decide) (binds_pure fun _ => .nil)
  | pattern id test min max =>
      rw [emit, constants]
      refine binds_reading _ .takeWhile (by decide) (by decide) ?_
      exact (binds_constant _).bind fun slot => binds_pure fun _ holds => .cons holds .nil
  | map id source transform ih =>
      rw [emit, constants]
      refine binds_declare_then (by decide) fun success => ?_
      refine binds_declare_then (by decide) fun value => ?_
      refine (ih.widen (.parent mem_children_map)).inScope.bind fun inner => ?_
      refine (binds_enter _).bind fun entrance => ?_
      refine (binds_constant _).bind fun function => binds_pure fun table holds announced refers => ?_
      -- By now the inner fragment is older than the announcement that stands in front of it.
      obtain ⟨slot, rfl, holdsSelf⟩ := announced
      have inside := List.rel_append refers.body (.cons holds .nil)
      exact ⟨by simpa [slots_append, Fragment.slots_spliced, refers.value] using ⟨holdsSelf, inside⟩, rfl⟩
  | oneOf id alternatives ih =>
      cases alternatives with
      | nil =>
          rw [emit, constants, constantsOfAll]
          exact binds_emptyChoice _
      | cons first rest =>
          rw [emit, constants]
          · have each
                : ∀ alternative ∈ first :: rest,
                    Binds alternative.emit (Grammar.oneOf id (first :: rest)).Refuses
                      fun table fragment => fragment.RefersTo table alternative.constants :=
              fun alternative member => (ih alternative member).widen (.parent member)
            refine (binds_beginChoice _).bind fun choice => ?_
            refine (binds_emitAlternatives choice each).bind fun code => ?_
            refine binds_pure fun table refers announced => ?_
            obtain ⟨slot, entrance, holds⟩ := announced
            exact Choice.refersTo_fragment entrance holds refers
          · simp
  | either id left right ofLeft ofRight ihLeft ihRight =>
      rw [emit, constants]
      refine (binds_beginChoice _).bind fun choice => ?_
      refine (ihLeft.widen (.parent left_mem_children_either)).inScope.bind fun fragment => ?_
      refine (binds_alternative choice fragment ofLeft).bind fun first => ?_
      refine (ihRight.widen (.parent right_mem_children_either)).inScope.bind fun other => ?_
      refine (binds_alternative choice other ofRight).bind fun second => ?_
      refine binds_pure fun table refersSecond refersRight refersFirst refersLeft announced => ?_
      obtain ⟨slot, entrance, holds⟩ := announced
      refine Choice.refersTo_fragment entrance holds ?_
      rw [slots_append]
      exact List.rel_append (refersFirst _ refersLeft) (refersSecond _ refersRight)
  | staged id source generated ih =>
      rw [emit, constants]
      exact (ih.widen (.parent mem_children_staged)).inScope
  | foreign id name parser =>
      rw [emit, constants]
      exact binds_delegation _
  | scripted id name emission =>
      rw [emit, constants]
      exact binds_scripted id name emission

-----------------------------------------------------------------------------------------
-- Scripts of work
-----------------------------------------------------------------------------------------

namespace Workbench

/-- What a step refers to: a slot that it is given, or a constant that it needs a slot for. -/
inductive Reference (H : Host) where
  | given (slot : Nat)
  | wanted (constant : Constant H)

/-- A slot is what a reference asks for, by a table. -/
def Reference.Met (table : List (Constant H)) (slot : Nat) : Reference H → Prop
  | .given other => slot = other
  | .wanted constant => Holds table slot constant

def Operand.references : Operand H → List (Reference H)
  | .atom value => value.slots.map .given
  | .number _ => []
  | .constant value => [.wanted value]

/-- What a step refers to, in the order of the code that it emits. A step that takes others has no code
of its own, and neither has a look at the table. -/
def Step.references? : Step H → Option (List (Reference H))
  | .operand value | .moveTo value | .assign _ value => some value.references
  | .onCursor _ arguments => some (arguments.flatMap Operand.references)
  | .enter grammar => some [.wanted (.ofGrammar grammar)]
  | .splice grammar => some (grammar.constants.map .wanted)
  | .convert value (.conversion .identity) => some value.references
  | .convert value function => some (.wanted function :: value.references)
  | .declare _ | .declareAll _ | .isIdentity _ | .parameters | .count => some []
  | .scope _ | .constants => none

/-- The slots in the code that a step gives. -/
def Reply.slots : Reply H → List Nat
  | .expr value => value.slots
  | .stmt value => Code.slots [value]
  | .stmts values => Code.slots values
  | .name _ | .flag _ | .parameters .. | .constants _ | .count _ | .replies _ => []

def Operand.IsNegative : Operand H → Prop
  | .number value => value < 0
  | .atom _ | .constant _ => False

/-- The reasons for which a step can fail: a name that is no identifier, a negative number, or a parser
that refuses to emit code. -/
def Step.CanFail : Step H → Prop
  | .declare base => Name.isIdentifier base = false
  | .operand value | .moveTo value | .assign _ value | .convert value _ => value.IsNegative
  | .onCursor _ arguments => ∃ argument ∈ arguments, argument.IsNegative
  | .splice grammar => grammar.Refuses
  | .scope _ | .enter _ | .declareAll _ | .isIdentity _ | .parameters | .constants | .count => False

/-- A step is answered correctly by a table: the slots in the code that it gave stand for what the step
refers to, a look at the table saw the beginning of it, and a fault has a reason. -/
inductive Answered (table : List (Constant H)) : Step H → Except Fault (Reply H) → Prop
  | code {step : Step H} {reply : Reply H} {references : List (Reference H)}
    (refers : step.references? = some references)
    (met : List.Forall₂ (Reference.Met table) reply.slots references)
    : Answered table step (.ok reply)
  | inside {steps : List (Step H)} {replies : List (Except Fault (Reply H))}
    (each : List.Forall₂ (Answered table) steps replies)
    : Answered table (.scope steps) (.ok (.replies replies))
  | seen {values : List (Constant H)} (early : values <+: table)
    : Answered table .constants (.ok (.constants values))
  | fault {step : Step H} {fault : Fault} (because : step.CanFail) : Answered table step (.error fault)

/-- An operand refers to what it stands for, and fails only if it is a negative number. -/
theorem Operand.binds_resolve (operand : Operand H)
    : Binds operand.resolve operand.IsNegative fun table atom =>
        List.Forall₂ (Reference.Met table) atom.slots operand.references := by
  cases operand with
  | atom value =>
      refine binds_pure fun table => ?_
      rw [references, List.forall₂_map_right_iff]
      exact List.forall₂_same.mpr fun _ _ => rfl
  | number value =>
      rw [resolve]
      split
      · next negative => exact binds_throw _ negative
      · exact binds_pure fun _ => .nil
  | constant value =>
      exact (binds_constant value).bind fun slot => binds_pure fun _ holds => .cons holds .nil

/-- So do operands one after another, by induction on them. -/
theorem binds_resolveAll (operands : List (Operand H))
    : Binds (resolveAll operands) (∃ operand ∈ operands, operand.IsNegative) fun table atoms =>
        List.Forall₂ (Reference.Met table) (atoms.flatMap Atom.slots)
          (operands.flatMap Operand.references) := by
  induction operands with
  | nil => exact binds_pure fun _ => .nil
  | cons first rest ih =>
      have resolves := first.binds_resolve.widen fun negative =>
        (⟨first, List.mem_cons_self, negative⟩ : ∃ operand ∈ first :: rest, operand.IsNegative)
      have resolvesRest := ih.widen fun ⟨operand, member, negative⟩ =>
        (⟨operand, List.mem_cons_of_mem first member, negative⟩
          : ∃ operand ∈ first :: rest, operand.IsNegative)
      refine resolves.bind fun atom => resolvesRest.bind fun atoms => ?_
      exact binds_pure fun table others own => List.rel_append own others

/-- What is converted by the identity is left as it is, and anything else is called. -/
theorem binds_convertBy {reason : Prop} (operand : Operand H) (value : Atom) (function : Constant H)
    : Binds (convertBy value function) reason fun table expression =>
        List.Forall₂ (Reference.Met table) value.slots operand.references
        → Answered table (.convert operand function) (.ok (.expr expression)) := by
  cases function with
  | conversion conversion =>
      cases conversion with
      | identity => exact binds_pure fun _ met => .code rfl met
      | given function =>
          refine (binds_constant _).bind fun slot => binds_pure fun _ holds met => ?_
          exact .code rfl (.cons holds met)
  | parser | foreign | recordMaker | plain =>
      refine (binds_constant _).bind fun slot => binds_pure fun _ holds met => ?_
      exact .code rfl (.cons holds met)

/-- Looking at the workbench binds nothing. -/
theorem binds_get {reason : Prop}
    : Binds get reason fun table (bench : Workbench H) => bench.constants <+: table :=
  fun _ => .returned .unchanged fun _ extended => extended

mutual

/-- A step is answered correctly, by the kinds of steps. -/
theorem Step.binds_run (step : Step H)
    : Binds step.run step.CanFail fun table reply => Answered table step (.ok reply) := by
  cases step with
  | declare base =>
      rw [Step.run]
      exact (binds_declare base).bind fun name => binds_pure fun _ _ => .code rfl .nil
  | scope steps =>
      rw [Step.run]
      exact (binds_runSteps steps).inScope.bind fun replies => binds_pure fun _ each => .inside each
  | operand value =>
      rw [Step.run]
      exact value.binds_resolve.bind fun atom => binds_pure fun _ met => .code rfl met
  | onCursor method arguments =>
      rw [Step.run]
      exact (binds_resolveAll arguments).bind fun atoms => binds_pure fun _ met => .code rfl met
  | moveTo target =>
      rw [Step.run]
      refine target.binds_resolve.bind fun atom => binds_pure fun _ met => .code rfl ?_
      simpa [Reply.slots] using met
  | enter grammar =>
      rw [Step.run]
      refine (binds_enter grammar).bind fun statement => binds_pure fun table announced => ?_
      obtain ⟨slot, rfl, holds⟩ := announced
      exact .code rfl (.cons holds .nil)
  | assign target value =>
      rw [Step.run]
      refine value.binds_resolve.bind fun atom => binds_pure fun _ met => .code rfl ?_
      simpa [Reply.slots, Expr.slots] using met
  | declareAll names =>
      rw [Step.run]
      exact binds_pure fun _ => .code rfl .nil
  | splice grammar =>
      rw [Step.run]
      refine grammar.binds_emit.inScope.bind fun fragment => binds_pure fun table refers => ?_
      refine .code rfl (List.forall₂_map_right_iff.mpr ?_)
      rw [Reply.slots, fragment.slots_spliced]
      exact refers.body
  | convert value function =>
      rw [Step.run]
      refine value.binds_resolve.bind fun atom => ?_
      refine (binds_convertBy value atom function).bind fun expression => ?_
      exact binds_pure fun _ answered met => answered met
  | isIdentity function =>
      rw [Step.run]
      exact binds_pure fun _ => .code rfl .nil
  | parameters =>
      rw [Step.run]
      exact binds_pure fun _ => .code rfl .nil
  | constants =>
      rw [Step.run]
      exact binds_get.bind fun bench => binds_pure fun _ early => .seen early
  | count =>
      rw [Step.run]
      exact binds_get.bind fun bench => binds_pure fun _ _ => .code rfl .nil

/-- A script is answered step by step, and a step that fails stops nothing. -/
theorem binds_runSteps {reason : Prop} (steps : List (Step H))
    : Binds (runSteps steps) reason fun table replies =>
        List.Forall₂ (Answered table) steps replies := by
  cases steps with
  | nil =>
      rw [runSteps]
      exact binds_pure fun _ => .nil
  | cons step rest =>
      rw [runSteps]
      refine step.binds_run.attempt.bind fun reply => (binds_runSteps rest).bind fun replies => ?_
      refine binds_pure fun table others answered => ?_
      rcases answered with ⟨value, rfl, correct⟩ | ⟨fault, rfl, because⟩
      · exact .cons correct others
      · exact .cons (.fault because) others

end

/-- The table of constants after any work at a workbench. No two slots hold equal constants. A request
for a constant gives the one slot that holds it, and adds a slot only if there is none. A grammar gives a
fragment unless it refuses, and each slot in the fragment holds the constant that it was emitted for, by
the table that any more work leads to. Whatever that work is, it fills no slot anew, and by its table all
steps of the work before are answered correctly. -/
theorem slots_keep_constants (steps : List (Step H))
    : ∃ replies bench,
        runSteps steps {} = .ok replies bench
        ∧ Constant.Unrepeated bench.constants
        ∧ bench.index = bench.constants.zipIdx
        ∧ (∀ wanted, ∃ slot after,
            constant wanted bench = .ok slot after
            ∧ (∀ other, Holds after.constants other wanted ↔ other = slot)
            ∧ ((∃ held ∈ bench.constants, held.Equals wanted) → after = bench)
            ∧ ((∀ held ∈ bench.constants, ¬ held.Equals wanted)
                → after = bench.fill wanted))
        ∧ (∀ grammar : Grammar H,
            grammar.Refuses
            ∨ ∃ fragment after,
                inScope grammar.emit bench = .ok fragment after
                ∧ ∀ more, ∃ others final,
                    runSteps more after = .ok others final
                    ∧ List.Forall₂ (Holds final.constants) fragment.slots grammar.constants)
        ∧ ∀ more, ∃ others final,
            runSteps more bench = .ok others final
            ∧ bench.constants <+: final.constants
            ∧ List.Forall₂ (Answered final.constants) steps replies := by
  obtain ⟨replies, bench, ran, grown, answered⟩ := (binds_runSteps steps).returns {}
  have unrepeated := grown.unrepeated_of_nil
  refine ⟨replies, bench, ran, unrepeated, bench.inStep, constant_of_unrepeated unrepeated, ?_, ?_⟩
  · intro grammar
    have ended := grammar.binds_emit.inScope bench
    generalize inScope grammar.emit bench = ending at ended
    cases ended with
    | faulted _ refuses => exact .inl refuses
    | @returned fragment after _ correct =>
        refine .inr ⟨fragment, after, rfl, fun more => ?_⟩
        obtain ⟨others, final, ranMore, further, _⟩ := (binds_runSteps more).returns after
        have refers := correct final.constants further.keeps
        refine ⟨others, final, ranMore, ?_⟩
        rw [Fragment.slots, refers.value, List.append_nil, fragment.slots_spliced]
        exact refers.body
  · intro more
    obtain ⟨others, final, ranMore, further, _⟩ := (binds_runSteps more).returns bench
    exact ⟨others, final, ranMore, further.keeps, answered final.constants further.keeps⟩

/-- Work after steps gives what it gives on the workbench that they leave. -/
theorem value_after_steps {α : Type} {steps : List (Step H)} {replies : List (Except Fault (Reply H))}
    {next : Emit H α} {value : α} {bench after : Workbench H}
    (ran : runSteps steps {} = .ok replies bench) (continued : next bench = .ok value after)
    : (runSteps steps >>= fun _ => next).run' {} = some value := by
  unfold EStateM.run'
  simp only [EStateM.run, bind, EStateM.bind, ran, continued]

/-- A parser that is used in several places. -/
def sampleLiteral : Grammar Stock.host :=
  .literal 1 (Text.ofString "a") false

/-- Steps that bind a number, a choice and a literal before the choice fails, and then the literal again
and a function. -/
def sampleSteps : List (Step Stock.host) :=
  [ .operand (.constant (.plain ⟨0, .number 1⟩)),
    .splice (.oneOf 2 [sampleLiteral, .scripted 3 (Text.ofString "Uncompilable") .refused]),
    .scope [.enter sampleLiteral, .convert (.atom .null) (.conversion (.given .length))] ]

/-- After the sample steps four slots are filled. The number is found by its value, and code that is
emitted then refers to the literal and the function by the slots that they have. -/
theorem slots_keep_constants_sample
    : let one : Constant Stock.host := .plain ⟨9, .number 1⟩
      let grammar : Grammar Stock.host := .map 4 sampleLiteral (.given .length)
      ∃ replies bench fragment after,
        runSteps sampleSteps {} = .ok replies bench
        ∧ bench.constants.length = 4
        ∧ constant one bench = .ok 0 bench
        ∧ ¬ grammar.Refuses
        ∧ inScope grammar.emit bench = .ok fragment after
        ∧ fragment.slots = [4, 2, 3]
        ∧ List.Forall₂ (Holds after.constants) fragment.slots grammar.constants := by
  intro one grammar
  obtain ⟨replies, bench, ran, _, _, request, emits, _⟩ := slots_keep_constants sampleSteps
  have table
      : ((runSteps sampleSteps >>= fun _ => get).run' {}).map
            (fun bench => (bench.constants.length, bench.constants.findIdx? (·.same one)))
        = some (4, some 0) := by
    decide +kernel
  have numbers
      : ((runSteps sampleSteps >>= fun _ => inScope grammar.emit).run' {}).map Fragment.slots
        = some [4, 2, 3] := by
    decide +kernel
  have seen : (get : Emit Stock.host (Workbench Stock.host)) bench = .ok bench bench := rfl
  rw [value_after_steps ran seen] at table
  obtain ⟨four, found⟩ := Prod.mk.inj (Option.some.inj table)
  obtain ⟨inside, same, _⟩ := List.findIdx?_eq_some_iff_getElem.mp found
  have equal := Constant.same_iff_equals.mp same
  obtain ⟨slot, kept, got, unique, unchanged, _⟩ := request one
  obtain rfl := unchanged ⟨_, List.getElem_mem inside, equal⟩
  obtain rfl := (unique 0).mp ⟨_, List.getElem?_eq_getElem inside, equal⟩
  have willing : ¬ grammar.Refuses := by
    simp [grammar, Grammar.Refuses, Grammar.nodes, sampleLiteral]
  obtain ⟨fragment, after, made, later⟩ := (emits grammar).resolve_left willing
  rw [value_after_steps ran made] at numbers
  obtain ⟨_, final, still, refers⟩ := later []
  cases still
  have code := Option.some.inj numbers
  exact ⟨replies, kept, fragment, after, ran, four, got, willing, made, code, refers⟩

end Workbench

end StagedParser
