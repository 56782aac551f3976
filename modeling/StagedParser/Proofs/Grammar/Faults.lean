import StagedParser.Proofs.Parsing.Surroundings

/-! Faults are never swallowed.
A fault that the entry hook, a test or a function raises is how the whole parse ends: no parser is
announced after it, and the record at hand is as it was. Up to there the parse goes as it goes where
the fault is not raised.
-/

namespace StagedParser

variable {H : Host} {α : Type}

-----------------------------------------------------------------------------------------
-- Grammars in surroundings
-----------------------------------------------------------------------------------------

/-- A host with its tests and functions as the surroundings have them. -/
def Host.within (H : Host) (around : Surroundings H) : Host :=
  { H with accepts := around.accepts, apply := around.apply }

def Conversion.within (around : Surroundings H) : Conversion H → Conversion (H.within around)
  | .identity => .identity
  | .given function => .given function

mutual

/-- A grammar with its tests and functions as the surroundings have them. -/
def Grammar.within (around : Surroundings H) : Grammar H → Grammar (H.within around)
  | .literal id text ignoreCase => .literal id text ignoreCase
  | .pattern id test min max => .pattern id test min max
  | .map id source transform => .map id (source.within around) (transform.within around)
  | .oneOf id alternatives => .oneOf id (allWithin around alternatives)
  | .either id left right ofLeft ofRight =>
    .either id (left.within around) (right.within around) (ofLeft.within around)
      (ofRight.within around)
  | .staged id source generated => .staged id (source.within around) generated
  | .foreign id name parser => .foreign id name parser
  | .scripted id name emission => .scripted id name emission

def allWithin (around : Surroundings H) : List (Grammar H) → List (Grammar (H.within around))
  | [] => []
  | first :: rest => first.within around :: allWithin around rest

end

/-- The surroundings that a host itself makes, with an entry hook. -/
def Surroundings.own (H : Host) (refuses : Nat → Option Fault) : Surroundings H :=
  ⟨refuses, H.accepts, H.apply⟩

/-- Grammars are put into surroundings one by one. -/
theorem allWithin_eq_map (around : Surroundings H) (grammars : List (Grammar H))
    : allWithin around grammars = grammars.map (Grammar.within around) := by
  induction grammars with
  | nil => rw [allWithin, List.map_nil]
  | cons first rest ih => rw [allWithin, List.map_cons, ih]

/-- The nodes of grammars in some surroundings are their nodes in these surroundings if that holds for
each of them, by induction on the list. -/
theorem nodesOfAll_allWithin (around : Surroundings H) (grammars : List (Grammar H))
    (each
      : ∀ grammar ∈ grammars,
          (grammar.within around).nodes = grammar.nodes.map (Grammar.within around))
    : nodesOfAll (allWithin around grammars)
      = (nodesOfAll grammars).map (Grammar.within around) := by
  induction grammars with
  | nil => simp [allWithin, nodesOfAll]
  | cons first rest ih =>
      have here := each first List.mem_cons_self
      have later := ih fun grammar member => each grammar (List.mem_cons_of_mem _ member)
      simp [allWithin, nodesOfAll, here, later]

namespace Grammar

/-- Surroundings change no names. -/
theorem name_within (around : Surroundings H) (grammar : Grammar H)
    : (grammar.within around).name = grammar.name := by
  induction grammar with
  | staged id source generated ih => rw [within, name, name, ih]
  | _ => simp only [within, name]

/-- Nor do they change entries. -/
theorem entry_within (around : Surroundings H) (grammar : Grammar H)
    : (grammar.within around).entry = grammar.entry := by
  rw [entry, entry, name_within]
  cases grammar <;> simp only [within, id]

/-- The nodes of a grammar in some surroundings, by induction on the grammar. -/
theorem nodes_within (around : Surroundings H) (grammar : Grammar H)
    : (grammar.within around).nodes = grammar.nodes.map (within around) := by
  induction grammar with
  | literal | pattern | foreign | scripted => simp [within, nodes]
  | map id source transform ih => simp [within, nodes, ih]
  | staged id source generated ih => simp [within, nodes, ih]
  | either id left right ofLeft ofRight ihLeft ihRight => simp [within, nodes, ihLeft, ihRight]
  | oneOf id alternatives ih =>
      have inside := nodesOfAll_allWithin around alternatives ih
      simp [within, nodes, inside]

/-- A grammar in the surroundings of its own host is the grammar itself, by induction on it. -/
theorem within_own (refuses : Nat → Option Fault) (grammar : Grammar H)
    : grammar.within (.own H refuses) = grammar := by
  have conversions (conversion : Conversion H)
      : conversion.within (.own H refuses) = conversion := by
    cases conversion <;> rfl
  induction grammar with
  | literal | pattern | foreign | scripted => rw [within]; rfl
  | map id source transform ih => rw [within, ih, conversions]; rfl
  | staged id source generated ih => rw [within, ih]; rfl
  | either id left right ofLeft ofRight ihLeft ihRight =>
      rw [within, ihLeft, ihRight, conversions, conversions]; rfl
  | oneOf id alternatives ih =>
      have each : alternatives.map (within (.own H refuses)) = alternatives.map fun same => same :=
        List.map_congr_left ih
      rw [within, allWithin_eq_map, each, List.map_id']
      rfl

/-- An unscripted grammar is so in all surroundings. -/
theorem Unscripted.within {grammar : Grammar H} (unscripted : grammar.Unscripted)
    (around : Surroundings H)
    : (grammar.within around).Unscripted := by
  intro node member id name emission same
  rw [nodes_within, List.mem_map] at member
  obtain ⟨inner, inside, rfl⟩ := member
  cases inner <;> rw [Grammar.within] at same <;> cases same
  exact unscripted _ inside id name emission rfl

/-- What parsers from outside satisfy they satisfy in all surroundings. -/
theorem ForeignsSatisfy.within {σ : Type} {hook : Hook σ} {property : Parsing σ Bool → Prop}
    {grammar : Grammar H} (foreigns : grammar.ForeignsSatisfy hook property) (around : Surroundings H)
    : (grammar.within around).ForeignsSatisfy hook property := by
  intro id name parser member
  rw [nodes_within, List.mem_map] at member
  obtain ⟨inner, inside, same⟩ := member
  cases inner <;> rw [Grammar.within] at same <;> cases same
  exact foreigns id name parser inside

/-- The parsers from outside in a grammar do not catch the faults of the entry hook. -/
def LetsFaultsThrough (grammar : Grammar H) : Prop :=
  ∀ id name parser,
    .foreign id name parser ∈ grammar.nodes → (H.conduct parser ⟨id, name⟩).LetsFaultsThrough

/-- A grammar that lets faults through has children that do. -/
theorem LetsFaultsThrough.child {child grammar : Grammar H} (through : grammar.LetsFaultsThrough)
    (member : child ∈ grammar.children)
    : child.LetsFaultsThrough :=
  fun id name parser inside => through id name parser (nodes_subset_of_mem_children member inside)

end Grammar

-----------------------------------------------------------------------------------------
-- Meanings
-----------------------------------------------------------------------------------------

namespace Parsing

variable {marked : Question H → Prop} {base : Surroundings H}

/-- Converting asks what the work asks, and then the function. -/
theorem Consults.converted {work : Surroundings H → Parsing (List Entry) (Option Value)}
    (consults : Consults marked base work) (conversion : Conversion H)
    : Consults marked base fun around => converted (conversion.within around) (work around) := by
  refine consults.bind fun value => ?_
  cases value with
  | none => exact consults_pure none
  | some value =>
      cases conversion with
      | identity => exact consults_pure (some value)
      | given function => exact (consults_apply function value).bind fun _ => consults_pure _

/-- Trying two pieces of work asks what they ask. -/
theorem Consults.orReturn {first second : Surroundings H → Parsing (List Entry) (Option Value)}
    (left : Consults marked base first) (right : Consults marked base second) (start : Position)
    : Consults marked base fun around => orReturn start (first around) (second around) := by
  refine left.bind fun value => ?_
  cases value with
  | some value => exact consults_pure (some value)
  | none => exact (consults_move (.moveTo start)).bind fun _ => right

/-- What a parser yields asks what the parser asks. -/
theorem Consults.yield {parser : Surroundings H → Parsing (List Entry) Bool}
    (consults : Consults marked base parser)
    : Consults marked base fun around => yield (parser around) := by
  refine (consults.onRecord none).bind fun (matched, own) => ?_
  cases matched with
  | false => exact consults_pure none
  | true => exact (consults_given own.read).bind fun _ => consults_pure _

/-- Reporting asks what the work asks. -/
theorem Consults.report {work : Surroundings H → Parsing (List Entry) (Option Value)}
    (consults : Consults marked base work)
    : Consults marked base fun around => report (work around) := by
  refine consults_position_bind fun start => consults.bind fun value => ?_
  cases value with
  | none => exact consults_pure false
  | some value => exact consults_of_notes_eq fun _ => rfl

end Parsing

open Parsing

variable {marked : Question H → Prop} {base : Surroundings H}

/-- Alternatives ask in turn, by induction on the alternatives. -/
theorem consults_firstMeaning (start : Position) (alternatives : List (Grammar H))
    (each
      : ∀ alternative ∈ alternatives,
          Consults marked base fun around => (alternative.within around).meaning around.hook)
    : Consults marked base fun around =>
        firstMeaning around.hook start (allWithin around alternatives) := by
  induction alternatives with
  | nil =>
      simp only [allWithin, firstMeaning]
      exact consults_pure none
  | cons first rest ih =>
      simp only [allWithin, firstMeaning]
      refine (each first List.mem_cons_self).orReturn ?_ start
      exact ih fun alternative member => each alternative (List.mem_cons_of_mem _ member)

/-- A grammar is announced under one entry in all surroundings. -/
theorem Grammar.consults_announced (grammar : Grammar H)
    {next : Surroundings H → Parsing (List Entry) α} (consults : Consults marked base next)
    : Consults marked base fun around =>
        enter around.hook (grammar.within around).entry >>= fun _ => next around := by
  simp only [entry_within]
  exact (consults_enter grammar.entry).bind fun _ => consults

/-- What a grammar asks of its surroundings decides how it ends, by induction on the grammar. -/
theorem Grammar.consults_meaning (grammar : Grammar H) (through : grammar.LetsFaultsThrough)
    : Consults marked base fun around => (grammar.within around).meaning around.hook := by
  induction grammar with
  | literal id text ignoreCase =>
      simp only [within, meaning]
      refine consults_announced (.literal id text ignoreCase) ?_
      exact Consults.bind (consults_of_notes_eq fun _ => rfl) fun _ => consults_pure _
  | pattern id test min max =>
      simp only [within, meaning]
      refine consults_announced (.pattern id test min max) ?_
      exact (consults_takeWhile test min max).bind fun _ => consults_pure _
  | map id source transform ih =>
      simp only [within, meaning]
      refine consults_announced (.map id source transform) ?_
      exact (ih (through.child mem_children_map)).converted transform
  | oneOf id alternatives ih =>
      simp only [within, meaning]
      refine consults_announced (.oneOf id alternatives) (consults_position_bind fun start => ?_)
      exact consults_firstMeaning start alternatives fun alternative member =>
        ih alternative member (through.child member)
  | either id left right ofLeft ofRight ihLeft ihRight =>
      have consultsLeft := ihLeft (through.child left_mem_children_either)
      have consultsRight := ihRight (through.child right_mem_children_either)
      simp only [within, meaning]
      refine consults_announced (.either id left right ofLeft ofRight)
        (consults_position_bind fun start => ?_)
      refine (consultsLeft.converted ofLeft).orReturn ?_ start
      exact (consultsRight.converted ofRight).orReturn (consults_pure none) start
  | staged id source generated ih =>
      simp only [within, meaning]
      exact ih (through.child mem_children_staged)
  | foreign id name parser =>
      simp only [within, meaning]
      exact (consults_conduct (through id name parser (self_mem_nodes _))).yield
  | scripted id name emission =>
      simp only [within, meaning]
      exact consults_pure none

-----------------------------------------------------------------------------------------
-- Parsing
-----------------------------------------------------------------------------------------

/-- The hook that keeps the list of entries in order and raises a fault at the announcement with a
number. -/
def Hook.refusingAt (number : Nat) (fault : Fault) : Hook (List Entry) :=
  .refusing fun count => if count = number then some fault else none

namespace Grammar

/-- A grammar whose faults all come to the surface: no parser in it emits code of its own, and those
from outside keep the contract, whichever announcements are refused, and do not catch faults. -/
structure Forthright (grammar : Grammar H) : Prop where
  unscripted : grammar.Unscripted
  keeps : ∀ refuses, grammar.ForeignsSatisfy (Hook.refusing refuses) KeepsContract
  through : grammar.LetsFaultsThrough

/-- A staged forthright grammar is forthright. -/
theorem Forthright.staged {grammar : Grammar H} (forthright : grammar.Forthright) (id : Nat)
    (generated : Bool)
    : (Grammar.staged id grammar generated).Forthright where
  unscripted node member := by
    rcases List.mem_cons.mp member with rfl | inside
    · simp
    · exact forthright.unscripted node inside
  keeps refuses foreignId name parser member :=
    forthright.keeps refuses foreignId name parser (List.mem_of_ne_of_mem (by simp) member)
  through foreignId name parser member :=
    forthright.through foreignId name parser (List.mem_of_ne_of_mem (by simp) member)

section Runs

variable {parser : Grammar H} (forthright : parser.Forthright)

include forthright

/-- A forthright grammar keeps the contract in all surroundings. -/
theorem Forthright.keepsContract (around : Surroundings H)
    : KeepsContract ((parser.within around).parse around.hook) := by
  have still : around.hook.Still := Hook.still_of_moves_eq_nil fun _ _ _ => rfl
  exact keepsContract_of_unscripted still _ (forthright.unscripted.within around)
    ((forthright.keeps around.refuses).within around)

/-- There it reports what it means. -/
theorem Forthright.report_meaning (around : Surroundings H)
    : report ((parser.within around).meaning around.hook)
      = (parser.within around).parse around.hook := by
  have still : around.hook.Still := Hook.still_of_moves_eq_nil fun _ _ _ => rfl
  exact report_meaning_eq_parse still _ (forthright.unscripted.within around)
    ((forthright.keeps around.refuses).within around)

/-- What a grammar asks of its surroundings decides how it parses. -/
theorem Forthright.decided (marked : Question H → Prop) (base : Surroundings H)
    (scene : Scene (List Entry))
    : Ending.Decided marked base scene.notes fun around =>
        (parser.within around).parse around.hook scene := by
  have consults : Consults marked base fun around => (parser.within around).meaning around.hook :=
    parser.consults_meaning forthright.through
  simpa only [forthright.report_meaning] using consults.report.decided scene

/-- A fault of a forthright grammar leaves the record as it was. -/
theorem Forthright.record_of_error {around : Surroundings H} {fault : Fault}
    {scene after : Scene (List Entry)}
    (stops : (parser.within around).parse around.hook scene = .error fault after)
    : after.record = scene.record := by
  have settles := (forthright.keepsContract around).settles scene
  rw [stops] at settles
  exact settles

end Runs

/-- In the surroundings of its own a grammar parses as it does. -/
theorem parse_within_own (parser : Grammar H) (refuses : Nat → Option Fault)
    : (parser.within (.own H refuses)).parse (.refusing refuses) = parser.parse (.refusing refuses) :=
  congrArg (fun same : Grammar H => same.parse (.refusing refuses)) (parser.within_own refuses)

/-- Faults are never swallowed, whether a grammar is interpreted or staged. Let the entry hook refuse
the announcement with a number. If the grammar makes no such announcement where nothing is refused,
it parses as it does there; otherwise it ends with the fault of the hook, having announced what it
announces there up to that number, with the record as it was.

Likewise for tests and functions. In surroundings that agree outside of marked questions a grammar
parses alike, or else comes to the same marked question, after the same announcements, and a fault
that is raised there is how the parse ends: nothing more is announced, and the record is as it was.
So with the calls marked that raise faults, either they play no part in a parse or it ends with the
fault of the first of them. In the surroundings that its own host makes the grammar is itself. -/
theorem fault_ends_parse (grammar : Grammar H) (forthright : grammar.Forthright) (id : Nat)
    : ∀ parser ∈ [grammar, .staged id grammar true], ∀ cursor record,
        (∀ number fault,
          let recorded := parser.parse Hook.recorder ⟨cursor, record, []⟩
          let refused := parser.parse (Hook.refusingAt number fault) ⟨cursor, record, []⟩
          let trace := (Ending.scene recorded).notes
          (trace.length ≤ number → refused = recorded)
          ∧ (number < trace.length
            → ∃ stop, refused = .error fault ⟨stop, record, trace.take (number + 1)⟩))
        ∧ (∀ marked base,
            let run (around : Surroundings H) :=
              (parser.within around).parse around.hook ⟨cursor, record, []⟩
            (∀ around, base.AgreesOutside marked around → run around = run base)
            ∨ ∃ question stop entries,
                marked question
                ∧ ∀ around,
                    base.AgreesOutside marked around
                    → entries <+: (Ending.scene (run around)).notes
                      ∧ ∀ fault,
                          around.Raises fault question
                          → run around = .error fault ⟨stop, record, entries⟩)
        ∧ ∀ refuses,
            (parser.within (.own H refuses)).parse (.refusing refuses)
            = parser.parse (.refusing refuses) := by
  intro parser member cursor record
  have forthright : parser.Forthright := by
    simp only [List.mem_cons, List.not_mem_nil, or_false] at member
    rcases member with rfl | rfl
    · exact forthright
    · exact forthright.staged id true
  refine ⟨fun number fault => ?_, fun marked base => ?_, parser.parse_within_own⟩
  · -- The two hooks answer differently at one announcement only, which is the question to be marked.
    let own : Surroundings H := .own H fun _ => none
    let refusing : Surroundings H := .own H fun count => if count = number then some fault else none
    have agrees : own.AgreesOutside (· = .entry number) refusing := by
      refine ⟨fun count unmarked => if_neg fun same => ?_, fun _ _ _ => rfl, fun _ _ _ => rfl⟩
      exact unmarked (congrArg Question.entry same)
    have itself : (parser.within own).parse own.hook = parser.parse Hook.recorder :=
      parser.parse_within_own _
    have itselfRefusing
        : (parser.within refusing).parse refusing.hook = parser.parse (.refusingAt number fault) :=
      parser.parse_within_own _
    have decided := forthright.decided (· = .entry number) own ⟨cursor, record, []⟩
    obtain ⟨same, cut⟩ := decided.refused agrees (if_pos rfl)
    rw [itself, itselfRefusing] at same
    rw [itself, itselfRefusing] at cut
    refine ⟨same, fun announced => ?_⟩
    obtain ⟨after, stops, noted⟩ := cut announced
    have kept : after.record = record := by
      rw [← itselfRefusing] at stops
      exact forthright.record_of_error stops
    exact ⟨after.cursor, stops.trans (by rw [← noted, ← kept])⟩
  · cases forthright.decided marked base ⟨cursor, record, []⟩ with
    | same ending all _ =>
        exact .inl fun around agrees => (all around agrees).trans (all base (.refl marked base)).symm
    | asked question after isMarked _ all =>
        refine .inr ⟨question, after.cursor, after.notes, isMarked, fun around agrees => ?_⟩
        obtain ⟨noted, stops⟩ := all around agrees
        refine ⟨noted, fun fault raises => ?_⟩
        have kept : after.record = record := forthright.record_of_error (stops fault raises)
        exact (stops fault raises).trans (by rw [← kept])

end Grammar

/-- The parsers of the stock announce themselves and nothing else. -/
theorem Stock.letsFaultsThrough_conduct (parser : Parser) (entry : Entry)
    : (host.conduct parser entry).LetsFaultsThrough := by
  refine ⟨fun _ => rfl, ?_⟩
  change parser.act.LetsFaultsThrough
  cases parser <;> simp [Parser.act, takeAndFinish, Conduct.LetsFaultsThrough]

/-- The sample of honest parsers is forthright. -/
theorem Stock.sample_forthright {first second : Parser} (honest : first.isHonest = true)
    (alsoHonest : second.isHonest = true)
    : (sample first second).Forthright where
  unscripted := sample_unscripted first second
  keeps refuses := by
    have still : (Hook.refusing refuses).Still := Hook.still_of_moves_eq_nil fun _ _ _ => rfl
    exact sample_foreigns (keepsContract_conduct still first honest)
      (keepsContract_conduct still second alsoHonest)
  through id name parser _ := letsFaultsThrough_conduct parser _

/-- The third parser of a sample is refused. Where it is not, a fourth one is announced, and its match
is converted. -/
theorem Grammar.fault_ends_parse_sample
    : let grammar := Stock.sample (.overrun 2) (.take 1)
      let start := Cursor.start (Buffer.ofText (Text.ofString "ab") (by decide))
      let fault := Fault.failure (Text.ofString "stop")
      let recorded := grammar.parse Hook.recorder ⟨start, none, []⟩
      let trace := (Ending.scene recorded).notes
      grammar.Forthright
      ∧ trace.map Entry.id = [0, 1, 2, 3]
      ∧ ∃ stop,
          grammar.parse (Hook.refusingAt 2 fault) ⟨start, none, []⟩
          = .error fault ⟨stop, none, trace.take 3⟩ := by
  intro grammar start fault recorded trace
  have forthright : grammar.Forthright := Stock.sample_forthright rfl rfl
  have announced : trace.map Entry.id = [0, 1, 2, 3] := by decide +kernel
  have long : 2 < trace.length := by
    rw [← List.length_map Entry.id, announced]
    decide
  obtain ⟨refused, _⟩ := grammar.fault_ends_parse forthright 10 grammar (by simp) start none
  exact ⟨forthright, announced, (refused 2 fault).2 long⟩

end StagedParser
