import StagedParser.Proofs.Cursor.Canonical
import StagedParser.Proofs.Grammar.Interpretation
import StagedParser.Stock

/-! The denotation of a grammar, as a function of a text and an offset alone.
A self-contained grammar whose tests and functions never fail parses as it denotes: from the canonical
position of an offset to that of the end of the match, or back to where it started.
-/

namespace StagedParser

variable {H : Host} {σ : Type}

-----------------------------------------------------------------------------------------
-- Denotations
-----------------------------------------------------------------------------------------

/-- What the symbols of a host stand for where they never fail. -/
structure Sense (H : Host) where
  accept : H.Test → CodeUnit → Bool
  convert : H.Transform → Value → Value

/-- The value that a conversion makes of a value. -/
def Sense.converted (sense : Sense H) : Conversion H → Value → Value
  | .identity, value => value
  | .given function, value => sense.convert function value

/-- A match with its value converted. -/
def Sense.convertMatch (sense : Sense H) (conversion : Conversion H)
    (found : Option (Nat × Value)) : Option (Nat × Value) :=
  found.map fun (stop, value) => (stop, sense.converted conversion value)

namespace Grammar

/-- The test of a grammar's root, if it has one. -/
def tests : Grammar H → List H.Test
  | .pattern _ test _ _ => [test]
  | _ => []

/-- The conversions of a grammar's root. -/
def conversions : Grammar H → List (Conversion H)
  | .map _ _ transform => [transform]
  | .either _ _ _ ofLeft ofRight => [ofLeft, ofRight]
  | _ => []

/-- A grammar without parsers from outside and without parsers that emit code of their own. -/
def SelfContained (grammar : Grammar H) : Prop :=
  ∀ node ∈ grammar.nodes,
    (∀ id name parser, node ≠ .foreign id name parser)
    ∧ ∀ id name emission, node ≠ .scripted id name emission

end Grammar

/-- The tests and functions in a grammar never fail, and give what a sense says. -/
structure Sense.Fits (sense : Sense H) (grammar : Grammar H) : Prop where
  accepts
    : ∀ node ∈ grammar.nodes, ∀ test ∈ node.tests, ∀ unit,
        H.accepts test unit = .ok (sense.accept test unit)
  applies
    : ∀ node ∈ grammar.nodes, ∀ conversion ∈ node.conversions, ∀ value,
        conversion.apply value = .ok (sense.converted conversion value)

mutual

/-- What a grammar denotes at an offset of a text: no match, or the offset after it and its value. -/
def Grammar.denotes (sense : Sense H) (text : Text) (start : Nat)
    : Grammar H → Option (Nat × Value)
  | .literal _ literal ignoreCase =>
    if Text.beginsWith (text.drop start) literal ignoreCase then
      some (start + literal.length, .text ((text.drop start).take literal.length))
    else
      none
  | .pattern _ test min max =>
    let run := Text.run (sense.accept test) max (text.drop start)
    if min ≤ run.length then some (start + run.length, .text run) else none
  | .map _ source transform => sense.convertMatch transform (source.denotes sense text start)
  | .oneOf _ alternatives => denotesFirst sense text start alternatives
  | .either _ left right ofLeft ofRight =>
    (sense.convertMatch ofLeft (left.denotes sense text start)).or
      (sense.convertMatch ofRight (right.denotes sense text start))
  | .staged _ source _ => source.denotes sense text start
  | .foreign .. | .scripted .. => none

/-- What the first alternative that matches denotes. -/
def denotesFirst (sense : Sense H) (text : Text) (start : Nat)
    : List (Grammar H) → Option (Nat × Value)
  | [] => none
  | first :: rest => (first.denotes sense text start).or (denotesFirst sense text start rest)

end

mutual

/-- The parsers that are announced, in order, when a grammar is tried at an offset of a text. -/
def Grammar.trace (sense : Sense H) (text : Text) (start : Nat) (grammar : Grammar H) : List Entry :=
  match grammar with
  | .literal .. | .pattern .. => [grammar.entry]
  | .map _ source _ => grammar.entry :: source.trace sense text start
  | .oneOf _ alternatives => grammar.entry :: traceFirst sense text start alternatives
  | .either _ left right _ _ =>
    grammar.entry ::
      (left.trace sense text start ++
        if (left.denotes sense text start).isSome then [] else right.trace sense text start)
  | .staged _ source _ => source.trace sense text start
  | .foreign .. | .scripted .. => []

/-- The parsers that are announced when alternatives are tried until one matches. -/
def traceFirst (sense : Sense H) (text : Text) (start : Nat) : List (Grammar H) → List Entry
  | [] => []
  | first :: rest =>
    first.trace sense text start ++
      if (first.denotes sense text start).isSome then [] else traceFirst sense text start rest

end

/-- A hook that takes notes and does nothing else. -/
def Hook.TakesNotes (hook : Hook σ) : Prop :=
  ∀ entry cursor notes,
    (hook.react entry cursor notes).moves = [] ∧ (hook.react entry cursor notes).fault = none

/-- The notes of a hook after entries that were all announced at one cursor. -/
def Hook.notesAfter (hook : Hook σ) (cursor : Cursor) (entries : List Entry) (notes : σ) : σ :=
  entries.foldl (fun notes entry => (hook.react entry cursor notes).notes) notes

open Parsing

-----------------------------------------------------------------------------------------
-- Meanings at canonical positions
-----------------------------------------------------------------------------------------

/-- At the canonical position of an offset some work yields the value of a match and stops at its end,
or yields nothing and stops where it started; on the way it announces the entries. -/
def ReadsAs (hook : Hook σ) (buffer : Buffer) (start : Nat) (work : Parsing σ (Option Value))
    (found : Option (Nat × Value)) (entries : List Entry) : Prop :=
  ∀ record notes,
    work ⟨buffer.cursorAt start, record, notes⟩
    = .ok (found.map Prod.snd)
        ⟨buffer.cursorAt (found.elim start Prod.fst), record,
          hook.notesAfter (buffer.cursorAt start) entries notes⟩

section Pieces

variable {hook : Hook σ} {buffer : Buffer} {start : Nat} {work : Parsing σ (Option Value)}
  {found : Option (Nat × Value)} {entries : List Entry}

/-- A hook that only takes notes leaves everything else as it is. -/
theorem enter_of_takesNotes (takesNotes : hook.TakesNotes) (entry : Entry) (scene : Scene σ)
    : enter hook entry scene
      = .ok () { scene with notes := (hook.react entry scene.cursor scene.notes).notes } := by
  obtain ⟨unmoved, quiet⟩ := takesNotes entry scene.cursor scene.notes
  simp only [enter, unmoved, quiet]
  rfl

/-- An announcement is noted before what follows. -/
theorem readsAs_announced (takesNotes : hook.TakesNotes) (entry : Entry)
    (reads : ReadsAs hook buffer start work found entries)
    : ReadsAs hook buffer start (enter hook entry >>= fun _ => work) found (entry :: entries) := by
  intro record notes
  rw [run_bind_ok (enter_of_takesNotes takesNotes entry _)]
  exact reads record _

/-- A conversion reads as the converted match. -/
theorem readsAs_converted {sense : Sense H} {conversion : Conversion H}
    (applies : ∀ value, conversion.apply value = .ok (sense.converted conversion value))
    (reads : ReadsAs hook buffer start work found entries)
    : ReadsAs hook buffer start (converted conversion work) (sense.convertMatch conversion found)
        entries := by
  intro record notes
  rw [converted, run_bind_ok (reads record notes)]
  cases found with
  | none => rfl
  | some found =>
      obtain ⟨stop, value⟩ := found
      simp only [Option.map_some, applies]
      rfl

/-- After a first attempt without a match the second starts from the same place. -/
theorem readsAs_orReturn (inside : start ≤ buffer.size) {second : Parsing σ (Option Value)}
    {other : Option (Nat × Value)} {more : List Entry}
    (reads : ReadsAs hook buffer start work found entries)
    (readsSecond : ReadsAs hook buffer start second other more)
    : ReadsAs hook buffer start (orReturn (buffer.positionAt start) work second) (found.or other)
        (entries ++ if found.isSome then [] else more) := by
  intro record notes
  cases found with
  | some found =>
      rw [orReturn_of_matched second (reads record notes)]
      simp
  | none =>
      let after : Scene σ := ⟨buffer.cursorAt start, record,
        hook.notesAfter (buffer.cursorAt start) entries notes⟩
      have moved := Cursor.moveTo_positionAt buffer (buffer.positionAt start) inside
      have back : returnTo (buffer.positionAt start) after = .ok () after := by
        have applied : after.cursor.apply (.moveTo (buffer.positionAt start)) = .ok after.cursor :=
          moved
        simp only [returnTo, move, applied]
      have continued : (returnTo (buffer.positionAt start) >>= fun _ => second) after = _ :=
        (run_bind_ok back).trans (readsSecond record after.notes)
      rw [orReturn_of_failed second (reads record notes)]
      refine continued.trans ?_
      simp [after, Hook.notesAfter]

/-- The first alternative that matches is found, by induction on the alternatives. -/
theorem readsAs_firstMeaning (inside : start ≤ buffer.size) {sense : Sense H}
    (alternatives : List (Grammar H))
    (each
      : ∀ alternative ∈ alternatives,
          ReadsAs hook buffer start (alternative.meaning hook)
            (alternative.denotes sense buffer.text start) (alternative.trace sense buffer.text start))
    : ReadsAs hook buffer start (firstMeaning hook (buffer.positionAt start) alternatives)
        (denotesFirst sense buffer.text start alternatives)
        (traceFirst sense buffer.text start alternatives) := by
  induction alternatives with
  | nil =>
      rw [firstMeaning, denotesFirst, traceFirst]
      exact fun record notes => rfl
  | cons first rest ih =>
      rw [firstMeaning, denotesFirst, traceFirst]
      exact readsAs_orReturn inside (each first (by simp))
        (ih fun alternative member => each alternative (List.mem_cons_of_mem first member))

/-- Taking a text is taking it with the cursor. -/
theorem takeText_of_eq {cursor after : Cursor} {text : Text} {ignoreCase : Bool} {taken : Option Text}
    (took : cursor.takeText text ignoreCase = (taken, after)) (record : MatchRecord) (notes : σ)
    : takeText text ignoreCase ⟨cursor, record, notes⟩ = .ok taken ⟨after, record, notes⟩ := by
  simp only [takeText, took]

/-- So is taking a run, if no fault stops it. -/
theorem takeWhile_of_eq {cursor after : Cursor} {test : CodeUnit → Except Fault Bool} {min max : Int}
    {taken : Option Text} (took : cursor.takeWhile test min max = (.ok taken, after))
    (record : MatchRecord) (notes : σ)
    : takeWhile test min max ⟨cursor, record, notes⟩ = .ok taken ⟨after, record, notes⟩ := by
  simp only [takeWhile, took]

/-- A literal reads as the text it takes, if the rest of the buffer begins with it. -/
theorem readsAs_literal (inside : start ≤ buffer.size) (literal : Text) (ignoreCase : Bool)
    : ReadsAs hook buffer start (do return (← takeText literal ignoreCase).map .text)
        (if Text.beginsWith (buffer.text.drop start) literal ignoreCase then
          some (start + literal.length, .text ((buffer.text.drop start).take literal.length))
        else
          none)
        [] := by
  intro record notes
  have took := Cursor.takeText_cursorAt buffer inside literal ignoreCase
  cases begins : Text.beginsWith (buffer.text.drop start) literal ignoreCase with
  | true =>
      rw [begins, if_pos rfl] at took
      exact run_bind_ok (takeText_of_eq took record notes)
  | false =>
      rw [begins, if_neg Bool.false_ne_true] at took
      exact run_bind_ok (takeText_of_eq took record notes)

/-- A pattern reads as the longest run, if it is long enough. -/
theorem readsAs_pattern (inside : start ≤ buffer.size) {test : CodeUnit → Except Fault Bool}
    {accept : CodeUnit → Bool} (total : ∀ unit, test unit = .ok (accept unit)) (min max : Nat)
    : ReadsAs hook buffer start (do return (← takeWhile test min max).map .text)
        (let run := Text.run accept max (buffer.text.drop start)
        if min ≤ run.length then some (start + run.length, .text run) else none)
        [] := by
  intro record notes
  have took := Cursor.takeWhile_cursorAt_of_total buffer total inside min max
  dsimp only at took ⊢
  generalize Text.run accept max (buffer.text.drop start) = run at took ⊢
  by_cases long : min ≤ run.length
  · rw [if_pos long] at took ⊢
    exact run_bind_ok (takeWhile_of_eq took record notes)
  · rw [if_neg long] at took ⊢
    exact run_bind_ok (takeWhile_of_eq took record notes)

end Pieces

/-- A conversion keeps it whether there is a match. -/
theorem isSome_convertMatch (sense : Sense H) (conversion : Conversion H)
    (found : Option (Nat × Value))
    : (sense.convertMatch conversion found).isSome = found.isSome :=
  Option.isSome_map

/-- A sense that fits a grammar fits its children. -/
theorem Sense.Fits.child {sense : Sense H} {child grammar : Grammar H} (fits : sense.Fits grammar)
    (member : child ∈ grammar.children)
    : sense.Fits child where
  accepts node inside := fits.accepts node (Grammar.nodes_subset_of_mem_children member inside)
  applies node inside := fits.applies node (Grammar.nodes_subset_of_mem_children member inside)

/-- The children of a self-contained grammar are self-contained. -/
theorem Grammar.SelfContained.child {child grammar : Grammar H} (contained : grammar.SelfContained)
    (member : child ∈ grammar.children)
    : child.SelfContained :=
  fun node inside => contained node (nodes_subset_of_mem_children member inside)

/-- A staged self-contained grammar is self-contained. -/
theorem Grammar.SelfContained.staged {grammar : Grammar H} (contained : grammar.SelfContained)
    (id : Nat) (generated : Bool)
    : (Grammar.staged id grammar generated).SelfContained := by
  intro node member
  rcases List.mem_cons.mp member with rfl | inside
  · simp
  · exact contained node inside

/-- A sense that fits a grammar fits the staged one. -/
theorem Sense.Fits.staged {sense : Sense H} {grammar : Grammar H} (fits : sense.Fits grammar)
    (id : Nat) (generated : Bool)
    : sense.Fits (.staged id grammar generated) := by
  constructor
  · intro node member
    rcases List.mem_cons.mp member with rfl | inside
    · simp [Grammar.tests]
    · exact fits.accepts node inside
  · intro node member
    rcases List.mem_cons.mp member with rfl | inside
    · simp [Grammar.conversions]
    · exact fits.applies node inside

/-- A self-contained grammar has no parsers from outside that could break the contract. -/
theorem Grammar.SelfContained.report_meaning {hook : Hook σ} (still : hook.Still)
    {grammar : Grammar H} (contained : grammar.SelfContained)
    : report (grammar.meaning hook) = grammar.parse hook := by
  have unscripted : grammar.Unscripted := fun node member => (contained node member).2
  have foreigns : grammar.ForeignsSatisfy hook KeepsContract := fun id name parser member =>
    absurd rfl ((contained _ member).1 id name parser)
  exact grammar.report_meaning_eq_parse still unscripted foreigns

/-- At canonical positions a grammar means what it denotes. Witness: induction on the grammar. -/
theorem Grammar.meaning_readsAs {hook : Hook σ} (takesNotes : hook.TakesNotes) {sense : Sense H}
    (grammar : Grammar H) (contained : grammar.SelfContained) (fits : sense.Fits grammar)
    {buffer : Buffer} {start : Nat} (inside : start ≤ buffer.size)
    : ReadsAs hook buffer start (grammar.meaning hook) (grammar.denotes sense buffer.text start)
        (grammar.trace sense buffer.text start) := by
  induction grammar with
  | literal id literal ignoreCase =>
      rw [meaning, denotes, trace]
      exact readsAs_announced takesNotes _ (readsAs_literal inside literal ignoreCase)
  | pattern id test min max =>
      have total := fits.accepts _ (self_mem_nodes _) test (by simp [tests])
      rw [meaning, denotes, trace]
      exact readsAs_announced takesNotes _ (readsAs_pattern inside total min max)
  | map id source transform ih =>
      have applies := fits.applies _ (self_mem_nodes _) transform (by simp [conversions])
      rw [meaning, denotes, trace]
      exact readsAs_announced takesNotes _
        (readsAs_converted applies
          (ih (contained.child mem_children_map) (fits.child mem_children_map)))
  | oneOf id alternatives ih =>
      rw [meaning, denotes, trace]
      refine readsAs_announced takesNotes _ ?_
      exact readsAs_firstMeaning inside alternatives fun alternative member =>
        ih alternative member (contained.child member) (fits.child member)
  | either id left right ofLeft ofRight ihLeft ihRight =>
      have appliesLeft := fits.applies _ (self_mem_nodes _) ofLeft (by simp [conversions])
      have appliesRight := fits.applies _ (self_mem_nodes _) ofRight (by simp [conversions])
      have readsLeft := readsAs_converted appliesLeft
        (ihLeft (contained.child left_mem_children_either) (fits.child left_mem_children_either))
      have readsRight := readsAs_converted appliesRight
        (ihRight (contained.child right_mem_children_either) (fits.child right_mem_children_either))
      have failure : ReadsAs hook buffer start (pure none) none [] := fun record notes => rfl
      have both := readsAs_orReturn inside readsLeft (readsAs_orReturn inside readsRight failure)
      simp only [Option.or_none, ite_self, List.append_nil, isSome_convertMatch] at both
      rw [meaning, denotes, trace]
      exact readsAs_announced takesNotes _ both
  | staged id source generated ih =>
      rw [meaning, denotes, trace]
      exact ih (contained.child mem_children_staged) (fits.child mem_children_staged)
  | foreign id name parser =>
      exact absurd rfl ((contained _ (self_mem_nodes _)).1 id name parser)
  | scripted id name emission =>
      exact absurd rfl ((contained _ (self_mem_nodes _)).2 id name emission)

-----------------------------------------------------------------------------------------
-- Parsing
-----------------------------------------------------------------------------------------

/-- From the canonical position of an offset, a self-contained grammar whose tests and functions never
fail parses as it denotes: on a match the record is set from there to the canonical position of the
end, where the cursor then stands; without one, the record stays as it was and the cursor is back.
The hook has taken notes of the trace of the grammar. -/
theorem Grammar.parse_eq_denotes {hook : Hook σ} (takesNotes : hook.TakesNotes) {sense : Sense H}
    (grammar : Grammar H) (contained : grammar.SelfContained) (fits : sense.Fits grammar)
    (buffer : Buffer) {start : Nat} (inside : start ≤ buffer.size) (record : MatchRecord) (notes : σ)
    : grammar.parse hook ⟨buffer.cursorAt start, record, notes⟩
      = let notesAfter :=
          hook.notesAfter (buffer.cursorAt start) (grammar.trace sense buffer.text start) notes
        match grammar.denotes sense buffer.text start with
        | some (stop, value) =>
          .ok true
            ⟨buffer.cursorAt stop, some ⟨buffer.positionAt start, buffer.positionAt stop, value⟩,
              notesAfter⟩
        | none => .ok false ⟨buffer.cursorAt start, record, notesAfter⟩ := by
  have still : hook.Still := Hook.still_of_moves_eq_nil fun entry cursor notes =>
    (takesNotes entry cursor notes).1
  have unscripted : grammar.Unscripted := fun node member => (contained node member).2
  have foreigns : grammar.ForeignsSatisfy hook KeepsContract := fun id name parser member =>
    absurd rfl ((contained _ member).1 id name parser)
  have reads := grammar.meaning_readsAs takesNotes contained fits inside record notes
  rw [← grammar.report_meaning_eq_parse still unscripted foreigns, report, run_position_bind,
    run_bind_ok reads]
  cases grammar.denotes sense buffer.text start with
  | none => rfl
  | some found => rfl

/-- The sense that a host itself gives its symbols; what it says of those that fail does not matter. -/
def Sense.ofHost (H : Host) : Sense H where
  accept test unit := (H.accepts test unit).toOption.getD false
  convert function value := (H.apply function value).toOption.getD value

/-- A self-contained grammar of the stock: a word with a mark after it, or digits in a list, or a
bracket. -/
def Stock.tokens : Grammar Stock.host :=
  .oneOf 0
    [ .map 1 (.literal 2 (Text.ofString "ab") true) (.given .bang),
      .either 3 (.pattern 4 (.test ⟨0, .digit⟩) 1 2) (.literal 5 (Text.ofString "(") false)
        (.given .wrap) .identity ]

/-- The grammar of tokens is self-contained, by its nodes. -/
theorem Stock.tokens_selfContained : tokens.SelfContained := by
  intro node member
  simp only [tokens, Grammar.nodes, nodesOfAll, List.mem_cons, List.mem_append, List.not_mem_nil,
    or_false] at member
  rcases member with rfl | (rfl | rfl) | rfl | rfl | rfl <;> simp

/-- The tests and functions of the tokens never fail. Witness: there is one test, and there are three
conversions. -/
theorem Stock.fits_tokens : (Sense.ofHost host).Fits tokens := by
  constructor
  · intro node member test inside unit
    have listed : test ∈ tokens.nodes.flatMap Grammar.tests :=
      List.mem_flatMap.mpr ⟨node, member, inside⟩
    change test ∈ [(.test ⟨0, .digit⟩ : Function)] at listed
    obtain rfl := List.mem_singleton.mp listed
    rfl
  · intro node member conversion inside value
    have listed : conversion ∈ tokens.nodes.flatMap Grammar.conversions :=
      List.mem_flatMap.mpr ⟨node, member, inside⟩
    change conversion ∈ [(.given .bang : Conversion host), .given .wrap, .identity] at listed
    simp only [List.mem_cons, List.not_mem_nil, or_false] at listed
    rcases listed with rfl | rfl | rfl
    · cases value <;> rfl
    · rfl
    · rfl

/-- A choice between two texts. -/
def Stock.twoTexts (first second : Text) : Grammar Stock.host :=
  .oneOf 0 [.literal 1 first false, .literal 2 second false]

/-- A choice between two texts is self-contained, by its nodes. -/
theorem Stock.twoTexts_selfContained (first second : Text)
    : (twoTexts first second).SelfContained := by
  intro node member
  simp only [twoTexts, Grammar.nodes, nodesOfAll, List.mem_cons, List.mem_append, List.not_mem_nil,
    or_false] at member
  rcases member with rfl | rfl | rfl <;> simp

/-- A choice between texts has neither tests nor conversions. -/
theorem Stock.fits_twoTexts (first second : Text)
    : (Sense.ofHost host).Fits (twoTexts first second) := by
  constructor
  · intro node member test inside
    have listed : test ∈ (twoTexts first second).nodes.flatMap Grammar.tests :=
      List.mem_flatMap.mpr ⟨node, member, inside⟩
    cases listed
  · intro node member conversion inside
    have listed : conversion ∈ (twoTexts first second).nodes.flatMap Grammar.conversions :=
      List.mem_flatMap.mpr ⟨node, member, inside⟩
    cases listed

/-- The tokens of the stock at the second line of a text: the digits there, at most two of them. -/
theorem Grammar.parse_eq_denotes_tokens
    : let buffer := Buffer.ofText (Text.ofString "x\n427") (by decide)
      Hook.recorder.TakesNotes
      ∧ Stock.tokens.SelfContained
      ∧ (Sense.ofHost Stock.host).Fits Stock.tokens
      ∧ 2 ≤ buffer.size
      ∧ ∃ entries,
          Stock.tokens.parse Hook.recorder ⟨buffer.cursorAt 2, none, []⟩
            = .ok true
                ⟨buffer.cursorAt 4,
                  some ⟨⟨2, 2, 1⟩, ⟨4, 2, 3⟩, .list [.text (Text.ofString "42")]⟩, entries⟩
          ∧ entries.map Entry.id = [0, 1, 2, 3, 4] := by
  intro buffer
  have takesNotes : Hook.recorder.TakesNotes := fun _ _ _ => ⟨rfl, rfl⟩
  have parsed := parse_eq_denotes takesNotes Stock.tokens Stock.tokens_selfContained
    Stock.fits_tokens buffer (by decide : 2 ≤ buffer.size) none []
  exact ⟨takesNotes, Stock.tokens_selfContained, Stock.fits_tokens, by decide, _, parsed, rfl⟩

end StagedParser
