import StagedParser.Proofs.Grammar.Nodes
import StagedParser.Proofs.Parsing.Records

/-! The meaning of a grammar: the value it yields, without a record to be handed down.
Parsers from outside are run on records of their own. Staging a grammar does not change its meaning,
and both forms of choice have one meaning: the first alternative that yields a value, converted.
-/

namespace StagedParser

variable {H : Host} {σ : Type}

namespace Parsing

/-- Converts the value that some work yields. -/
def converted (conversion : Conversion H) (work : Parsing σ (Option Value))
    : Parsing σ (Option Value) := do
  match ← work with
  | some value => return some (← ofResult (conversion.apply value))
  | none => return none

/-- Yields what the first piece of work yields; if that is nothing, returns to the start and goes on
with the second. -/
def orReturn (start : Position) (first second : Parsing σ (Option Value))
    : Parsing σ (Option Value) := do
  match ← first with
  | some value => return some value
  | none =>
    returnTo start
    second

/-- Converting by the identity changes nothing, by how the work ends. -/
theorem converted_identity (work : Parsing σ (Option Value))
    : converted (.identity : Conversion H) work = work := by
  funext scene
  cases ended : work scene with
  | error fault after => exact run_bind_error ended
  | ok value after =>
      rw [converted, run_bind_ok ended]
      cases value <;> rfl

section Attempts

variable {start : Position} {first : Parsing σ (Option Value)} {scene after : Scene σ}

/-- If the first yields a value, the second is not tried. -/
theorem orReturn_of_matched (second : Parsing σ (Option Value)) {value : Value}
    (ended : first scene = .ok (some value) after)
    : orReturn start first second scene = .ok (some value) after := by
  rw [orReturn, run_bind_ok ended]
  rfl

/-- If it yields none, the second is tried from the start. -/
theorem orReturn_of_failed (second : Parsing σ (Option Value))
    (ended : first scene = .ok none after)
    : orReturn start first second scene = (returnTo start >>= fun _ => second) after := by
  rw [orReturn, run_bind_ok ended]

/-- A fault of the first is passed on. -/
theorem orReturn_of_faulted (second : Parsing σ (Option Value)) {fault : Fault}
    (ended : first scene = .error fault after)
    : orReturn start first second scene = .error fault after :=
  run_bind_error ended

end Attempts

/-- Converting is free of the record if the work is. -/
theorem recordFree_converted (conversion : Conversion H) {work : Parsing σ (Option Value)}
    (free : RecordFree work)
    : RecordFree (converted conversion work) := by
  refine free.bind fun value => ?_
  cases value with
  | none => exact recordFree_pure none
  | some value => exact (recordFree_ofResult _).bind fun _ => recordFree_pure _

/-- Going back is free of the record. -/
theorem recordFree_returnTo (start : Position) : RecordFree (returnTo start : Parsing σ Unit) :=
  recordFree_move (.moveTo start)

/-- Trying two pieces of work is free of the record if both are. -/
theorem recordFree_orReturn (start : Position) {first second : Parsing σ (Option Value)}
    (left : RecordFree first) (right : RecordFree second)
    : RecordFree (orReturn start first second) := by
  refine left.bind fun value => ?_
  cases value with
  | some value => exact recordFree_pure (some value)
  | none => exact (recordFree_returnTo start).bind fun _ => right

end Parsing

open Parsing

mutual

/-- The meaning of a grammar: what it yields at the cursor. -/
def Grammar.meaning (hook : Hook σ) (grammar : Grammar H) : Parsing σ (Option Value) :=
  match grammar with
  | .literal _ text ignoreCase => do
    enter hook grammar.entry
    return (← takeText text ignoreCase).map .text
  | .pattern _ test min max => do
    enter hook grammar.entry
    return (← takeWhile (H.accepts test) min max).map .text
  | .map _ source transform => do
    enter hook grammar.entry
    converted transform (source.meaning hook)
  | .oneOf _ alternatives => do
    enter hook grammar.entry
    let start ← position
    firstMeaning hook start alternatives
  | .either _ left right ofLeft ofRight => do
    enter hook grammar.entry
    let start ← position
    orReturn start (converted ofLeft (left.meaning hook)) <|
      orReturn start (converted ofRight (right.meaning hook)) (return none)
  | .staged _ source _ => source.meaning hook
  | .foreign _ _ parser => yield ((H.conduct parser grammar.entry).run hook)
  | .scripted .. => return none

/-- The meaning of alternatives tried in order from the start. -/
def firstMeaning (hook : Hook σ) (start : Position) : List (Grammar H) → Parsing σ (Option Value)
  | [] => return none
  | first :: rest => orReturn start (first.meaning hook) (firstMeaning hook start rest)

end

/-- The first alternative that yields a value, with its conversion. -/
def firstMatch (hook : Hook σ) (start : Position)
    : List (Grammar H × Conversion H) → Parsing σ (Option Value)
  | [] => return none
  | (grammar, conversion) :: rest =>
    orReturn start (converted conversion (grammar.meaning hook)) (firstMatch hook start rest)

/-- The alternatives of a choice with their conversions; other grammars are no choices. -/
def Grammar.choices? : Grammar H → Option (List (Grammar H × Conversion H))
  | .oneOf _ alternatives => some (alternatives.map (·, .identity))
  | .either _ left right ofLeft ofRight => some [(left, ofLeft), (right, ofRight)]
  | _ => none

/-- The children of a choice are its alternatives. -/
theorem Grammar.children_of_choices {grammar : Grammar H} {choices : List (Grammar H × Conversion H)}
    (found : grammar.choices? = some choices)
    : grammar.children = choices.map (·.1) := by
  cases grammar with
  | oneOf | either =>
      obtain rfl := Option.some.inj found
      simp [children, Function.comp_def]
  | _ => cases found

/-- Behind a choice come the nodes of its alternatives. -/
theorem Grammar.nodes_of_choices {grammar : Grammar H} {choices : List (Grammar H × Conversion H)}
    (found : grammar.choices? = some choices)
    : grammar.nodes = grammar :: choices.flatMap (·.1.nodes) := by
  cases grammar with
  | oneOf id alternatives =>
      obtain rfl := Option.some.inj found
      rw [nodes, List.cons_inj_right]
      induction alternatives with
      | nil => rfl
      | cons first rest ih =>
          rw [nodesOfAll, ih rfl]
          rfl
  | either =>
      obtain rfl := Option.some.inj found
      simp [nodes]
  | _ => cases found

/-- Alternatives without conversions are alternatives converted by the identity, by induction on the
alternatives. -/
theorem firstMeaning_eq_firstMatch (hook : Hook σ) (start : Position)
    (alternatives : List (Grammar H))
    : firstMeaning hook start alternatives
      = firstMatch hook start (alternatives.map (·, .identity)) := by
  induction alternatives with
  | nil => rw [firstMeaning, List.map_nil, firstMatch]
  | cons first rest ih => rw [firstMeaning, List.map_cons, firstMatch, converted_identity, ih]

/-- Both forms of choice mean the first match among their alternatives. -/
theorem Grammar.meaning_choice (hook : Hook σ) {grammar : Grammar H}
    {choices : List (Grammar H × Conversion H)} (found : grammar.choices? = some choices)
    : grammar.meaning hook
      = (do
          enter hook grammar.entry
          let start ← position
          firstMatch hook start choices) := by
  cases grammar with
  | oneOf id alternatives =>
      obtain rfl := Option.some.inj found
      simp only [meaning, firstMeaning_eq_firstMatch]
  | either id left right ofLeft ofRight =>
      obtain rfl := Option.some.inj found
      simp only [meaning, firstMatch]
  | _ => cases found

/-- The meanings of alternatives are record-free if the meanings of their grammars are, by induction
on the alternatives. -/
theorem recordFree_firstMatch (hook : Hook σ) (start : Position)
    (choices : List (Grammar H × Conversion H))
    (each : ∀ choice ∈ choices, RecordFree (choice.1.meaning hook))
    : RecordFree (firstMatch hook start choices) := by
  induction choices with
  | nil =>
      rw [firstMatch]
      exact recordFree_pure none
  | cons first rest ih =>
      rw [firstMatch]
      exact recordFree_orReturn start (recordFree_converted first.2 (each first (by simp)))
        (ih fun choice member => each choice (List.mem_cons_of_mem _ member))

/-- What a choice means is free of the record if what its alternatives mean is. -/
theorem Grammar.recordFree_meaning_choice (hook : Hook σ) {grammar : Grammar H}
    {choices : List (Grammar H × Conversion H)} (found : grammar.choices? = some choices)
    (each : ∀ choice ∈ choices, RecordFree (choice.1.meaning hook))
    : RecordFree (grammar.meaning hook) := by
  rw [meaning_choice hook found]
  exact (recordFree_enter hook _).bind fun _ =>
    recordFree_position.bind fun start => recordFree_firstMatch hook start choices each

/-- The meaning of a grammar has nothing to do with the record at hand, by induction on the
grammar. -/
theorem Grammar.recordFree_meaning (hook : Hook σ) (grammar : Grammar H)
    : RecordFree (grammar.meaning hook) := by
  induction grammar with
  | literal id text ignoreCase =>
      rw [meaning]
      exact (recordFree_enter hook _).bind fun _ =>
        (recordFree_takeText text ignoreCase).bind fun _ => recordFree_pure _
  | pattern id test min max =>
      rw [meaning]
      exact (recordFree_enter hook _).bind fun _ =>
        (recordFree_takeWhile _ _ _).bind fun _ => recordFree_pure _
  | map id source transform ih =>
      rw [meaning]
      exact (recordFree_enter hook _).bind fun _ => recordFree_converted transform ih
  | oneOf id alternatives ih =>
      refine recordFree_meaning_choice hook rfl fun choice member => ?_
      obtain ⟨alternative, inside, rfl⟩ := List.mem_map.mp member
      exact ih alternative inside
  | either id left right ofLeft ofRight ihLeft ihRight =>
      refine recordFree_meaning_choice hook rfl fun choice member => ?_
      simp only [List.mem_cons, List.not_mem_nil, or_false] at member
      rcases member with rfl | rfl
      · exact ihLeft
      · exact ihRight
  | staged id source generated ih =>
      rw [meaning]
      exact ih
  | foreign id name parser =>
      rw [meaning]
      exact recordFree_yield _
  | scripted id name emission =>
      rw [meaning]
      exact recordFree_pure none

end StagedParser
