import StagedParser.Proofs.Code.Generated

/-! Generated code is tidy with records.
Locals with one base are for records, and no others hold any: a record is never copied from one
local to another. So each record that running code makes is held by one local only.
-/

namespace StagedParser

namespace Code

/-- The base of the locals that records are made for. -/
def recordBase : Text :=
  Text.ofString "delegateResult"

/-- An operand that names no local for records. -/
def Atom.IsPlain : Atom → Prop
  | .name held => held.base ≠ recordBase
  | _ => True

/-- A statement that assigns new records to locals for records, and copies none. -/
def Stmt.IsTidy : Stmt → Prop
  | .define _ value => value.IsPlain
  | .assign _ (.atom value) => value.IsPlain
  | .assign target (.newRecord _) => target.base = recordBase
  | _ => True

/-- Code all of whose statements are tidy, at any depth. -/
def AreTidy (code : List Stmt) : Prop :=
  ∀ statement ∈ statements code, statement.IsTidy

/-- No code is tidy. -/
theorem areTidy_nil : AreTidy [] := by
  simp [AreTidy, statements]

/-- Code in two parts is tidy if both parts are. -/
theorem areTidy_append {code more : List Stmt}
    : AreTidy (code ++ more) ↔ AreTidy code ∧ AreTidy more := by
  simp only [AreTidy, statements_append, List.mem_append, or_imp, forall_and]

/-- So is a statement with code after it, as code in two parts. -/
theorem areTidy_cons {first : Stmt} {rest : List Stmt}
    : AreTidy (first :: rest) ↔ AreTidy [first] ∧ AreTidy rest :=
  @areTidy_append [first] rest

/-- A block is tidy if its body is. -/
theorem areTidy_block {label : Name} {body : List Stmt} : AreTidy [.block label body] ↔ AreTidy body := by
  simp [AreTidy, statements, Stmt.statements, Stmt.IsTidy]

/-- A branch is tidy if both sides are. -/
theorem areTidy_branch {condition : Name} {yes no : List Stmt}
    : AreTidy [.branch condition yes no] ↔ AreTidy yes ∧ AreTidy no := by
  simp [AreTidy, statements, Stmt.statements, Stmt.IsTidy, or_imp, forall_and]

/-- A statement without others inside of it is tidy code if it is tidy. -/
theorem areTidy_of_isTidy {statement : Stmt} (single : statement.statements = [statement])
    (tidy : statement.IsTidy)
    : AreTidy [statement] := by
  simpa [AreTidy, statements, single] using tidy

/-- A statement of tidy code is tidy, by the kinds of statements. -/
theorem isTidy_of_areTidy {statement : Stmt} (tidy : AreTidy [statement]) : statement.IsTidy := by
  refine tidy statement ?_
  cases statement <;> simp [statements, Stmt.statements]

/-- A fragment whose code is tidy and whose value is none of the locals for records. -/
structure Fragment.IsTidy (fragment : Fragment) : Prop where
  body : AreTidy fragment.body
  value : fragment.value.IsPlain

/-- A tidy fragment can be spliced: the declaration of its locals is tidy. -/
theorem Fragment.IsTidy.spliced {fragment : Fragment} (tidy : fragment.IsTidy)
    : AreTidy fragment.spliced := by
  rw [Fragment.spliced]
  split
  · exact tidy.body
  · exact areTidy_cons.mpr ⟨areTidy_of_isTidy rfl trivial, tidy.body⟩

end Code

open Code

variable {H : Host} {α β : Type}

namespace Emit

/-- Emission that gives only results with a property. -/
def Gives (work : Emit H α) (property : α → Prop) : Prop :=
  ∀ bench value after, work bench = .ok value after → property value

section Gives

variable {work : Emit H α} {property : α → Prop} {target : β → Prop}

/-- Returning a value gives that value only. -/
theorem gives_pure {value : α} (holds : property value) : Gives (pure value : Emit H α) property := by
  intro bench result after ended
  cases ended
  exact holds

/-- What comes of the results of emission comes of emission, by the way the first part ends. -/
theorem Gives.bind {next : α → Emit H β} (gives : Gives work property)
    (each : ∀ value, property value → Gives (next value) target)
    : Gives (work >>= next) target := by
  intro bench result after ended
  obtain ⟨value, between, first, second⟩ := of_run_bind ended
  exact each value (gives bench value between first) between result after second

/-- Emission in a scope of its own gives the same results. -/
theorem Gives.inScope (gives : Gives work property) : Gives (inScope work) property := by
  intro bench value after ended
  rw [Emit.inScope] at ended
  cases worked : work { bench with supply := bench.supply.openScope } with
  | error fault later =>
      simp only [worked] at ended
      cases ended
  | ok result later =>
      simp only [worked] at ended
      cases ended
      exact gives _ _ _ worked

/-- Any emission gives what it gives. -/
theorem gives_any (work : Emit H α) : Gives work fun _ => True :=
  fun _ _ _ _ => trivial

/-- A name has the base that was asked for. -/
theorem gives_declare (base : Text) : Gives (declare base : Emit H Name) (·.base = base) := by
  intro bench name after ended
  rw [declare] at ended
  cases requested : bench.supply.request base with
  | error fault =>
      rw [requested] at ended
      cases ended
  | ok result =>
      rw [requested] at ended
      cases ended
      rw [Name.Supply.request] at requested
      split at requested
      · split at requested <;> cases requested <;> rfl
      · cases requested

end Gives

-----------------------------------------------------------------------------------------
-- What grammars emit
-----------------------------------------------------------------------------------------

/-- An announcement is tidy. -/
theorem gives_enter (grammar : Grammar H) : Gives (enter grammar) fun entrance => AreTidy [entrance] :=
  (gives_any _).bind fun _ _ => gives_pure (areTidy_of_isTidy rfl trivial)

/-- A converted operand can be assigned tidily if the operand names no local for records. -/
theorem gives_convert {value : Atom} (plain : value.IsPlain) (conversion : Conversion H) (target : Name)
    : Gives (convert value conversion) fun converted => AreTidy [.assign target converted] := by
  cases conversion with
  | identity => exact gives_pure (areTidy_of_isTidy rfl plain)
  | given function => exact (gives_any _).bind fun _ _ => gives_pure (areTidy_of_isTidy rfl trivial)

/-- A leaf is tidy if its value is not for records, since it makes none. -/
theorem gives_reading (grammar : Grammar H) (success : Text) {value : Text} (other : value ≠ recordBase)
    (method : Method) (arguments : Emit H (List Atom))
    : Gives (reading grammar success value method arguments) Fragment.IsTidy := by
  refine (gives_any _).bind fun success _ => (gives_declare value).bind fun value named => ?_
  refine (gives_enter grammar).bind fun entrance entered => (gives_any arguments).bind fun _ _ => ?_
  refine gives_pure ⟨?_, fun same => other (named.symm.trans same)⟩
  exact areTidy_cons.mpr ⟨entered, areTidy_cons.mpr
    ⟨areTidy_of_isTidy rfl trivial, areTidy_of_isTidy rfl trivial⟩⟩

/-- The one fragment that makes a record makes it for a local that is for records. -/
theorem gives_delegation (grammar : Grammar H) : Gives (delegation grammar) Fragment.IsTidy := by
  refine (gives_any _).bind fun success _ => (gives_declare _).bind fun record named => ?_
  refine (gives_any _).bind fun maker _ => (gives_any _).bind fun self _ => gives_pure ⟨?_, trivial⟩
  exact areTidy_cons.mpr ⟨areTidy_of_isTidy rfl named, areTidy_of_isTidy rfl trivial⟩

/-- Whatever a scripted parser emits is tidy, by the kinds of emission. -/
theorem gives_scripted (emission : Emission)
    : Gives (scripted emission : Emit H Fragment) Fragment.IsTidy := by
  cases emission with
  | refused =>
      intro bench fragment after ended
      cases ended
  | garbled =>
      exact (gives_any _).bind fun _ _ => gives_pure ⟨areTidy_of_isTidy rfl trivial, trivial⟩
  | answer constant =>
      refine (gives_any _).bind fun _ _ => (gives_any _).bind fun _ _ => ?_
      exact gives_pure ⟨areTidy_of_isTidy rfl trivial, trivial⟩

/-- A choice of nothing is tidy. -/
theorem gives_emptyChoice (grammar : Grammar H) : Gives (emptyChoice grammar) Fragment.IsTidy := by
  refine (gives_any _).bind fun _ _ => (gives_any _).bind fun _ _ => ?_
  refine (gives_enter grammar).bind fun entrance entered => gives_pure ⟨?_, trivial⟩
  exact areTidy_cons.mpr ⟨entered, areTidy_of_isTidy rfl trivial⟩

/-- A choice whose announcement is tidy and whose value is no record. -/
structure Choice.IsTidy (choice : Choice) : Prop where
  entrance : AreTidy [choice.entrance]
  value : choice.value.base ≠ recordBase

/-- A choice has a value that is not for records. -/
theorem gives_beginChoice (grammar : Grammar H) : Gives (beginChoice grammar) Choice.IsTidy := by
  refine (gives_any _).bind fun _ _ => (gives_declare _).bind fun value named => ?_
  refine (gives_enter grammar).bind fun entrance entered => ?_
  refine (gives_any _).bind fun _ _ => (gives_any _).bind fun _ _ => gives_pure ⟨entered, ?_⟩
  rw [named]
  decide

/-- A choice is tidy if its alternatives are. -/
theorem Choice.IsTidy.fragment {choice : Choice} (tidy : choice.IsTidy) {alternatives : List Stmt}
    (each : AreTidy alternatives)
    : (choice.fragment alternatives).IsTidy := by
  have refused : AreTidy [.assign choice.success (.atom (.flag false))] :=
    areTidy_of_isTidy rfl trivial
  refine ⟨areTidy_cons.mpr ⟨tidy.entrance, areTidy_cons.mpr ⟨areTidy_of_isTidy rfl trivial, ?_⟩⟩,
    tidy.value⟩
  exact areTidy_block.mpr (areTidy_append.mpr ⟨each, refused⟩)

/-- An alternative is tidy if its fragment is, by its parts. -/
theorem gives_alternative (choice : Choice) {fragment : Fragment} (tidy : fragment.IsTidy)
    (conversion : Conversion H)
    : Gives (alternative choice fragment conversion) AreTidy := by
  refine (gives_convert tidy.value conversion choice.value).bind fun converted assigned => ?_
  refine gives_pure (areTidy_append.mpr ⟨tidy.spliced, areTidy_cons.mpr
    ⟨areTidy_branch.mpr ⟨?_, areTidy_nil⟩, areTidy_of_isTidy rfl trivial⟩⟩)
  exact areTidy_cons.mpr ⟨areTidy_of_isTidy rfl trivial, areTidy_cons.mpr
    ⟨assigned, areTidy_of_isTidy rfl trivial⟩⟩

end Emit

open Emit

mutual

/-- Grammars emit tidy fragments, by the kinds of grammars. -/
theorem Grammar.gives_emit (grammar : Grammar H) : Gives grammar.emit Fragment.IsTidy := by
  cases grammar with
  | literal id text ignoreCase =>
      rw [Grammar.emit]
      exact gives_reading _ _ (by decide) _ _
  | pattern id test min max =>
      rw [Grammar.emit]
      exact gives_reading _ _ (by decide) _ _
  | map id source transform =>
      rw [Grammar.emit]
      refine (gives_any _).bind fun success _ => (gives_declare _).bind fun value named => ?_
      refine source.gives_emit.inScope.bind fun inner tidy => ?_
      refine (gives_enter _).bind fun entrance entered => (gives_any _).bind fun function _ => ?_
      refine gives_pure ⟨areTidy_cons.mpr ⟨entered, areTidy_append.mpr ⟨tidy.spliced, ?_⟩⟩, ?_⟩
      · refine areTidy_branch.mpr ⟨areTidy_cons.mpr ?_, areTidy_of_isTidy rfl trivial⟩
        exact ⟨areTidy_of_isTidy rfl trivial, areTidy_of_isTidy rfl trivial⟩
      · change value.base ≠ recordBase
        rw [named]
        decide
  | oneOf id alternatives =>
      cases alternatives with
      | nil =>
          rw [Grammar.emit]
          exact gives_emptyChoice _
      | cons first rest =>
          rw [Grammar.emit]
          · refine (gives_beginChoice _).bind fun choice tidy => ?_
            exact (gives_emitAlternatives choice (first :: rest)).bind fun code each =>
              gives_pure (tidy.fragment each)
          · nofun
  | either id left right ofLeft ofRight =>
      rw [Grammar.emit]
      refine (gives_beginChoice _).bind fun choice tidy => ?_
      refine left.gives_emit.inScope.bind fun leftInner tidyLeft => ?_
      refine (gives_alternative choice tidyLeft ofLeft).bind fun first eachLeft => ?_
      refine right.gives_emit.inScope.bind fun rightInner tidyRight => ?_
      refine (gives_alternative choice tidyRight ofRight).bind fun second eachRight => ?_
      exact gives_pure (tidy.fragment (areTidy_append.mpr ⟨eachLeft, eachRight⟩))
  | staged id source generated =>
      rw [Grammar.emit]
      exact source.gives_emit.inScope
  | foreign id name parser =>
      rw [Grammar.emit]
      exact gives_delegation _
  | scripted id name emission =>
      rw [Grammar.emit]
      exact gives_scripted emission

/-- So do alternatives, by induction on them. -/
theorem gives_emitAlternatives (choice : Choice) (alternatives : List (Grammar H))
    : Gives (emitAlternatives choice alternatives) AreTidy := by
  cases alternatives with
  | nil =>
      rw [emitAlternatives]
      exact gives_pure areTidy_nil
  | cons first rest =>
      rw [emitAlternatives]
      refine first.gives_emit.inScope.bind fun inner tidy => ?_
      refine (gives_alternative choice tidy .identity).bind fun code each => ?_
      exact (gives_emitAlternatives choice rest).bind fun more others =>
        gives_pure (areTidy_append.mpr ⟨each, others⟩)

end

/-- The code of a program is tidy, by the fragment of its grammar. -/
theorem Grammar.areTidy_of_program {grammar : Grammar H} {program : Program H}
    (generated : grammar.program = .ok program)
    : AreTidy program.code := by
  have gives : Gives grammar.code AreTidy := by
    refine grammar.gives_emit.inScope.bind fun fragment tidy => (gives_any _).bind fun start _ => ?_
    have started : AreTidy [.define start .position] := areTidy_of_isTidy rfl trivial
    have reported : AreTidy [.report (.name start) .position fragment.value, .answer (.flag true)] :=
      areTidy_cons.mpr ⟨areTidy_of_isTidy rfl trivial, areTidy_of_isTidy rfl trivial⟩
    refine gives_pure (areTidy_cons.mpr ⟨started, areTidy_append.mpr ⟨tidy.spliced, ?_⟩⟩)
    exact areTidy_cons.mpr ⟨areTidy_branch.mpr ⟨reported, areTidy_nil⟩, areTidy_of_isTidy rfl trivial⟩
  rw [Grammar.program] at generated
  cases emitted : grammar.code {} with
  | error fault after =>
      rw [emitted] at generated
      cases generated
  | ok code after =>
      rw [emitted] at generated
      cases generated
      exact gives _ _ _ emitted

end StagedParser
