import StagedParser.Proofs.Grammar.Interpretation
import StagedParser.Stock

/-! How far the parsers of the stock can be trusted with a record.
All but the silent one ignore the record they are handed. Under a still hook three of them keep the
contract: the one that overruns, the one that takes, and the one that throws.
-/

namespace StagedParser

open Parsing

variable {σ : Type}

/-- A parser that announces itself goes on only if the hook lets it. -/
theorem Conduct.run_announce (hook : Hook σ) (entry : Entry) (next : Conduct)
    : (Conduct.announce entry next).run hook = Parsing.enter hook entry >>= fun _ => next.run hook := by
  funext scene
  cases entered : Parsing.enter hook entry scene with
  | error fault after =>
      have attempted : attempt (Parsing.enter hook entry) scene = .ok (.error fault) after := by
        simp only [attempt, entered]
      rw [run_bind_error entered, announce, run, run_bind_ok attempted]
      rfl
  | ok _ after =>
      have attempted : attempt (Parsing.enter hook entry) scene = .ok (.ok ()) after := by
        simp only [attempt, entered]
      rw [run_bind_ok entered, announce, run, run_bind_ok attempted]

namespace Stock

/-- What follows the announcement of a parser other than the silent one ignores the record. -/
theorem ignoresRecord_act (hook : Hook σ) (parser : Parser) (loud : ∀ count, parser ≠ .silent count)
    : IgnoresRecord (parser.act.run hook) := by
  cases parser with
  | overrun count => exact fun scene record => .failed ..
  | stale count => exact fun scene record => .failed ..
  | take count => exact fun scene record => .matched ..
  | liar count => exact fun scene record => .matched ..
  | silent count => exact absurd rfl (loud count)
  | thrower count => exact fun scene record => .faulted ..

/-- The parsers of the stock ignore the record, except for the silent one. -/
theorem ignoresRecord_conduct (hook : Hook σ) (parser : Parser)
    (loud : ∀ count, parser ≠ .silent count) (entry : Entry)
    : IgnoresRecord ((host.conduct parser entry).run hook) := by
  change IgnoresRecord ((Conduct.announce entry parser.act).run hook)
  rw [Conduct.run_announce]
  exact IgnoresRecord.bind (recordFree_enter hook entry) fun _ => ignoresRecord_act hook parser loud

/-- Whether a parser of the stock keeps the contract. -/
def Parser.isHonest : Parser → Bool
  | .overrun _ | .take _ | .thrower _ => true
  | .stale _ | .liar _ | .silent _ => false

/-- The honest parsers of the stock keep the contract under a still hook. -/
theorem keepsContract_conduct {hook : Hook σ} (still : hook.Still) (parser : Parser)
    (honest : parser.isHonest = true) (entry : Entry)
    : KeepsContract ((host.conduct parser entry).run hook) := by
  refine ⟨ignoresRecord_conduct hook parser ?_ entry, fun scene => ?_⟩
  · intro count equal
    rw [equal] at honest
    cases honest
  · change Ending.Settles _ _ ((Conduct.announce entry parser.act).run hook scene)
    rw [Conduct.run_announce]
    refine settlesFrom_announced still entry ?_ scene rfl
    intro later stands
    rw [← stands]
    cases parser with
    | overrun count => rfl
    | take count => exact ⟨_, rfl⟩
    | thrower count => rfl
    | stale count => cases honest
    | liar count => cases honest
    | silent count => cases honest

-----------------------------------------------------------------------------------------
-- A grammar of the stock with every kind of node
-----------------------------------------------------------------------------------------

/-- A grammar with two parsers of the stock and a node of every other kind, two of them staged. -/
def sample (first second : Parser) : Grammar host :=
  .oneOf 0
    [ .foreign 1 first.name first,
      .map 2 (.foreign 3 second.name second) (.given .length),
      .staged 4
        (.either 5 (.literal 6 (Text.ofString "a") true) (.oneOf 7 []) .identity (.given .fail)) true,
      .staged 8 (.pattern 9 (.test ⟨0, .digit⟩) 1 3) false ]

/-- The sample is unscripted, by its nodes. -/
theorem sample_unscripted (first second : Parser) : (sample first second).Unscripted := by
  intro node member id name emission
  simp only [sample, Grammar.nodes, nodesOfAll, List.mem_cons, List.mem_append, List.not_mem_nil,
    or_false] at member
  rcases member with rfl | rfl | (rfl | rfl) | (rfl | rfl | rfl | rfl) | rfl | rfl <;> simp

/-- The parsers from outside in the sample are the two given ones. -/
theorem sample_foreigns {hook : Hook σ} {property : Parsing σ Bool → Prop} {first second : Parser}
    (holdsFirst : ∀ entry, property ((host.conduct first entry).run hook))
    (holdsSecond : ∀ entry, property ((host.conduct second entry).run hook))
    : (sample first second).ForeignsSatisfy hook property := by
  intro id name parser member
  simp only [sample, Grammar.nodes, nodesOfAll, List.mem_cons, List.mem_append, List.not_mem_nil,
    or_false, reduceCtorEq, false_or] at member
  rcases member with ⟨rfl, rfl, rfl⟩ | ⟨rfl, rfl, rfl⟩
  · exact holdsFirst _
  · exact holdsSecond _

/-- A hook that notes the entries, may move the cursor, and raises a fault at the entry with an
identity. -/
def strictHook (stopAt : Nat) (moves : List Move) : Hook (List Entry) where
  react entry _ entries :=
    ⟨entries ++ [entry], moves,
      if entry.id = stopAt then some (.failure (Text.ofString "stop")) else none⟩

end Stock

end StagedParser
