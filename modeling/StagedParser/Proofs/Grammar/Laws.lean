import StagedParser.Proofs.Grammar.Choice

/-! Laws of choice.
Without an entry hook a choice of two with conversions is a choice among maps, and a choice inside a
choice is as good as its alternatives in its place. Both hold for interpreted grammars and for
generated code, whatever the parsers from outside do.
-/

namespace StagedParser

variable {H : Host} {σ α : Type}

open Parsing

/-- The silent hook never moves the cursor. -/
theorem Hook.still_silent : Hook.silent.Still :=
  Hook.still_of_moves_eq_nil fun _ _ _ => rfl

namespace Parsing

/-- Announcing to the silent hook does nothing. -/
theorem enter_silent (entry : Entry) : enter Hook.silent entry = pure () :=
  rfl

-----------------------------------------------------------------------------------------
-- Parsers that mind their record
-----------------------------------------------------------------------------------------

/-- A parser that sets its record when it matches, to whatever it likes, leaves it as it was when it
fails or stops, and acts the same whatever the record holds. -/
structure MindsRecord (parser : Parsing σ Bool) : Prop where
  ignores : IgnoresRecord parser
  spares : SparesRecord parser
  sparesOnFault
    : ∀ scene fault after, parser scene = .error fault after → after.record = scene.record

/-- A parser that minds its record can be given the record at hand instead of a new one, by the ways
in which it ends on either. -/
theorem MindsRecord.converting_identity {parser : Parsing σ Bool} (minds : MindsRecord parser)
    : converting (.identity : Conversion H) parser = parser := by
  funext scene
  have alike := minds.ignores scene none
  generalize direct : parser scene = ending at alike
  generalize apart : parser { scene with record := none } = other at alike
  cases alike with
  | matched cursor found notes =>
      have own : onRecord none parser scene = .ok (true, some found) ⟨cursor, scene.record, notes⟩ := by
        simp only [onRecord, apart]
      rw [converting, run_bind_ok own]
      rfl
  | failed cursor left right notes =>
      have kept : left = scene.record := minds.spares _ _ direct
      rw [converting_of_failed _ apart, kept]
  | faulted fault cursor left right notes =>
      have kept : left = scene.record := minds.sparesOnFault _ _ _ direct
      have own : onRecord none parser scene = .error fault ⟨cursor, scene.record, notes⟩ := by
        simp only [onRecord, apart]
      rw [converting, run_bind_error own, kept]

end Parsing

namespace Stock

/-- Whether a parser of the stock minds its record. -/
def Parser.isCareful : Parser → Bool
  | .overrun _ | .take _ | .liar _ | .thrower _ => true
  | .stale _ | .silent _ => false

/-- Without an entry hook, a parser of the stock only acts. -/
theorem parse_foreign_silent (id : Nat) (name : Text) (parser : host.Foreign)
    : (Grammar.foreign id name parser).parse Hook.silent = (Parser.act parser).run Hook.silent := by
  rw [Grammar.parse]
  exact Conduct.run_announce Hook.silent ⟨id, name⟩ (Parser.act parser)

/-- The careful parsers of the stock mind their record. -/
theorem mindsRecord_foreign (id : Nat) (name : Text) (parser : host.Foreign)
    (careful : Parser.isCareful parser = true)
    : MindsRecord ((Grammar.foreign id name parser).parse Hook.silent) := by
  rw [parse_foreign_silent]
  cases parser with
  | overrun count =>
      refine ⟨ignoresRecord_act Hook.silent _ (by simp), ?_, ?_⟩
      · rintro scene after ⟨⟩
        rfl
      · rintro scene fault after ⟨⟩
  | take count | liar count =>
      refine ⟨ignoresRecord_act Hook.silent _ (by simp), ?_, ?_⟩
      · rintro scene after ⟨⟩
      · rintro scene fault after ⟨⟩
  | thrower count =>
      refine ⟨ignoresRecord_act Hook.silent _ (by simp), ?_, ?_⟩
      · rintro scene after ⟨⟩
      · rintro scene fault after ⟨⟩
        rfl
  | stale count | silent count => cases careful

end Stock

-----------------------------------------------------------------------------------------
-- Two forms of choice
-----------------------------------------------------------------------------------------

namespace Grammar

/-- Without an entry hook, a map converts what its source yields. -/
theorem parse_map_silent (id : Nat) (source : Grammar H) (transform : Conversion H)
    : (map id source transform).parse Hook.silent
      = converting transform (source.parse Hook.silent) := by
  rw [parse, enter_silent, pure_bind]

/-- So it does in meaning. -/
theorem meaning_map_silent (id : Nat) (source : Grammar H) (transform : Conversion H)
    : (map id source transform).meaning Hook.silent
      = converted transform (source.meaning Hook.silent) := by
  rw [meaning, enter_silent, pure_bind]

/-- Without an entry hook, a choice between two tries one and then the other. -/
theorem parse_pair_silent (id : Nat) (first second : Grammar H)
    : (oneOf id [first, second]).parse Hook.silent
      = position >>= fun start =>
          orElse start (first.parse Hook.silent) <|
            orElse start (second.parse Hook.silent) (return false) := by
  have tried (start : Position)
      : parseFirst Hook.silent start [first, second]
        = orElse start (first.parse Hook.silent)
            (orElse start (second.parse Hook.silent) (return false)) := by
    rw [parseFirst_cons, parseFirst_cons, parseFirst]
  rw [parse, enter_silent, pure_bind]
  simp only [tried]

/-- So does a choice of two, with its conversions. -/
theorem parse_either_silent (id : Nat) (left right : Grammar H) (ofLeft ofRight : Conversion H)
    : (either id left right ofLeft ofRight).parse Hook.silent
      = position >>= fun start =>
          orElse start (converting ofLeft (left.parse Hook.silent)) <|
            orElse start (converting ofRight (right.parse Hook.silent)) (return false) := by
  rw [parse_either, enter_silent, pure_bind]

/-- Without an entry hook, a choice means its first match. -/
theorem meaning_choice_silent {grammar : Grammar H} {choices : List (Grammar H × Conversion H)}
    (found : grammar.choices? = some choices)
    : grammar.meaning Hook.silent
      = position >>= fun start => firstMatch Hook.silent start choices := by
  rw [meaning_choice Hook.silent found, enter_silent, pure_bind]

/-- A node of a grammar is the grammar or a node of a child. -/
theorem mem_nodes {node grammar : Grammar H}
    : node ∈ grammar.nodes ↔ node = grammar ∨ ∃ child ∈ grammar.children, node ∈ child.nodes := by
  cases grammar <;> simp [nodes, children, mem_nodesOfAll]

/-- A grammar that is not scripted itself is unscripted if its children are. -/
theorem unscripted_of_children {grammar : Grammar H}
    (own : ∀ id name emission, grammar ≠ .scripted id name emission)
    (each : ∀ child ∈ grammar.children, child.Unscripted)
    : grammar.Unscripted := by
  intro node member
  rcases mem_nodes.mp member with rfl | ⟨child, among, inside⟩
  · exact own
  · exact each child among node inside

/-- A map of an unscripted grammar is unscripted. -/
theorem unscripted_map {source : Grammar H} (unscripted : source.Unscripted) (id : Nat)
    (transform : Conversion H)
    : (map id source transform).Unscripted := by
  refine unscripted_of_children (by simp) fun child member => ?_
  rw [List.mem_singleton.mp member]
  exact unscripted

/-- So is a choice between unscripted grammars. -/
theorem unscripted_oneOf {alternatives : List (Grammar H)}
    (each : ∀ alternative ∈ alternatives, alternative.Unscripted) (id : Nat)
    : (oneOf id alternatives).Unscripted :=
  unscripted_of_children (by simp) each

/-- So is a choice of two. -/
theorem unscripted_either {left right : Grammar H} (unscriptedLeft : left.Unscripted)
    (unscriptedRight : right.Unscripted) (id : Nat) (ofLeft ofRight : Conversion H)
    : (either id left right ofLeft ofRight).Unscripted := by
  refine unscripted_of_children (by simp) fun child member => ?_
  rcases List.mem_cons.mp member with rfl | later
  · exact unscriptedLeft
  · rw [List.mem_singleton.mp later]
    exact unscriptedRight

/-- Staged parsers of grammars with one meaning do the same. -/
theorem parse_staged_eq {grammar other : Grammar H} {hook : Hook σ} (unscripted : grammar.Unscripted)
    (unscriptedOther : other.Unscripted) {scene : Scene σ}
    (same : grammar.meaning hook scene = other.meaning hook scene) (id otherId : Nat)
    : (staged id grammar true).parse hook scene = (staged otherId other true).parse hook scene := by
  rw [parse_staged id unscripted, parse_staged otherId unscriptedOther, report_eq_reported,
    report_eq_reported, same]

/-- A choice of two with conversions means the same as one between two maps. -/
theorem meaning_either_eq_oneOf (left right : Grammar H) (ofLeft ofRight : Conversion H)
    (id listed first second : Nat)
    : (either id left right ofLeft ofRight).meaning Hook.silent
      = (oneOf listed [map first left ofLeft, map second right ofRight]).meaning Hook.silent := by
  rw [meaning_choice_silent rfl, meaning_choice_silent rfl]
  simp only [List.map_cons, List.map_nil, firstMatch, meaning_map_silent, converted_identity]

/-- Without conversions it means the same as one between both sides. -/
theorem meaning_plain_either_eq_oneOf (left right : Grammar H) (id listed : Nat)
    : (either id left right .identity .identity).meaning Hook.silent
      = (oneOf listed [left, right]).meaning Hook.silent := by
  rw [meaning_choice_silent rfl, meaning_choice_silent rfl]
  rfl

/-- Without an entry hook, a choice of two with conversions does the same as a choice between the maps
of its alternatives by these conversions: it ends with the same verdict or fault and leaves the same
cursor and record, whatever its alternatives do to theirs. So do the staged parsers of the two, though
code for a map calls its conversion and code for a choice leaves out the identity. Without conversions
the choice of two does the same as the choice between its alternatives themselves, provided that these
mind their record where they are handed the one of the choice; staged parsers hand them new ones. -/
theorem either_eq_oneOf (left right : Grammar H) (ofLeft ofRight : Conversion H)
    (id listed first second : Nat)
    : (either id left right ofLeft ofRight).parse Hook.silent
        = (oneOf listed [map first left ofLeft, map second right ofRight]).parse Hook.silent
      ∧ (MindsRecord (left.parse Hook.silent)
          → MindsRecord (right.parse Hook.silent)
          → (either id left right .identity .identity).parse Hook.silent
            = (oneOf listed [left, right]).parse Hook.silent)
      ∧ (left.Unscripted
          → right.Unscripted
          → ∀ i j,
              (staged i (either id left right ofLeft ofRight) true).parse Hook.silent
                = (staged j (oneOf listed [map first left ofLeft, map second right ofRight])
                    true).parse Hook.silent
              ∧ (staged i (either id left right .identity .identity) true).parse Hook.silent
                = (staged j (oneOf listed [left, right]) true).parse Hook.silent) := by
  refine ⟨?_, ?_, ?_⟩
  · rw [parse_either_silent, parse_pair_silent, parse_map_silent, parse_map_silent]
  · intro mindsLeft mindsRight
    rw [parse_either_silent, parse_pair_silent, mindsLeft.converting_identity,
      mindsRight.converting_identity]
  · intro unscriptedLeft unscriptedRight i j
    have pair := unscripted_either unscriptedLeft unscriptedRight id
    have listedUnscripted {one other : Grammar H} (unscripted : one.Unscripted)
        (unscriptedOther : other.Unscripted)
        : (oneOf listed [one, other]).Unscripted :=
      unscripted_oneOf (by simp [unscripted, unscriptedOther]) listed
    constructor
    · funext scene
      refine parse_staged_eq (pair _ _) ?_ ?_ i j
      · exact listedUnscripted (unscripted_map unscriptedLeft _ _) (unscripted_map unscriptedRight _ _)
      · rw [meaning_either_eq_oneOf]
    · funext scene
      refine parse_staged_eq (pair _ _) (listedUnscripted unscriptedLeft unscriptedRight) ?_ i j
      rw [meaning_plain_either_eq_oneOf]

/-- A parser from outside is unscripted. -/
theorem unscripted_foreign (id : Nat) (name : Text) (parser : H.Foreign)
    : (foreign id name parser).Unscripted :=
  unscripted_of_children (by simp) (by simp [children])

/-- A choice between a parser that runs ahead and one that makes up its record, with conversions by
the identity and by a function. -/
theorem either_eq_oneOf_sample
    : let left : Grammar Stock.host := foreign 1 (Text.ofString "Overrun") (.overrun 2)
      let right : Grammar Stock.host := foreign 2 (Text.ofString "Liar") (.liar 1)
      left.Unscripted
      ∧ right.Unscripted
      ∧ MindsRecord (left.parse Hook.silent)
      ∧ MindsRecord (right.parse Hook.silent)
      ∧ (either 0 left right .identity .identity).parse Hook.silent
        = (oneOf 3 [left, right]).parse Hook.silent
      ∧ (staged 6 (either 0 left right .identity (.given .wrap)) true).parse Hook.silent
        = (staged 7 (oneOf 3 [map 4 left .identity, map 5 right (.given .wrap)])
            true).parse Hook.silent := by
  intro left right
  have unscriptedLeft : left.Unscripted := unscripted_foreign _ _ _
  have unscriptedRight : right.Unscripted := unscripted_foreign _ _ _
  have mindsLeft : MindsRecord (left.parse Hook.silent) := Stock.mindsRecord_foreign _ _ _ rfl
  have mindsRight : MindsRecord (right.parse Hook.silent) := Stock.mindsRecord_foreign _ _ _ rfl
  obtain ⟨_, plain, staged⟩ := either_eq_oneOf left right .identity (.given .wrap) 0 3 4 5
  exact ⟨unscriptedLeft, unscriptedRight, mindsLeft, mindsRight, plain mindsLeft mindsRight,
    (staged unscriptedLeft unscriptedRight 6 7).1⟩

end Grammar

-----------------------------------------------------------------------------------------
-- Choices inside choices
-----------------------------------------------------------------------------------------

namespace Parsing

section Attempts

variable {cursor : Cursor} {failure : α}

/-- Attempts are tried from the cursor they are tried from. -/
theorem Tried.stands {attempts : List (Parsing σ α)} {scene : Scene σ} {ending : Ending σ α}
    (tried : Tried cursor failure attempts scene ending)
    : scene.cursor = cursor := by
  cases tried <;> assumption

/-- Attempts from one cursor end in one way only, by induction on how they end. -/
theorem Tried.unique {attempts : List (Parsing σ α)} {scene : Scene σ} {ending other : Ending σ α}
    (tried : Tried cursor failure attempts scene ending)
    (triedOther : Tried cursor failure attempts scene other)
    : ending = other := by
  induction tried with
  | exhausted =>
      cases triedOther
      rfl
  | matched _ ended found =>
      cases triedOther with
      | matched _ endedOther _ => exact ended.symm.trans endedOther
      | faulted _ endedOther => exact ended.symm.trans endedOther
      | failed _ endedOther _ =>
          cases ended.symm.trans endedOther
          exact absurd rfl found
  | faulted _ ended =>
      cases triedOther with
      | matched _ endedOther _ => exact ended.symm.trans endedOther
      | faulted _ endedOther => exact ended.symm.trans endedOther
      | failed _ endedOther _ => cases ended.symm.trans endedOther
  | failed _ ended _ ih =>
      cases triedOther with
      | matched _ endedOther found =>
          cases ended.symm.trans endedOther
          exact absurd rfl found
      | faulted _ endedOther => cases ended.symm.trans endedOther
      | failed _ endedOther next =>
          cases ended.symm.trans endedOther
          exact ih next

/-- Attempts that did not all fail end the same with more attempts after them. -/
theorem Tried.append_of_ended {attempts : List (Parsing σ α)} {scene : Scene σ} {ending : Ending σ α}
    (tried : Tried cursor failure attempts scene ending)
    (ended : ∀ after, ending ≠ .ok failure after) (more : List (Parsing σ α))
    : Tried cursor failure (attempts ++ more) scene ending := by
  induction tried with
  | exhausted => exact absurd rfl (ended _)
  | matched stands first found => exact .matched stands first found
  | faulted stands first => exact .faulted stands first
  | failed stands first _ ih => exact .failed stands first (ih ended)

/-- After attempts that all failed, more attempts are made from the same cursor. -/
theorem Tried.append_of_failed {attempts more : List (Parsing σ α)} {scene after : Scene σ}
    {between ending : Ending σ α} (tried : Tried cursor failure attempts scene between)
    (failed : between = .ok failure after) (next : Tried cursor failure more after ending)
    : Tried cursor failure (attempts ++ more) scene ending := by
  induction tried with
  | exhausted =>
      cases failed
      exact next
  | matched _ _ found =>
      cases failed
      exact absurd rfl found
  | faulted => cases failed
  | failed stands first _ ih => exact .failed stands first (ih failed)

/-- An attempt that consists of attempts from the same cursor can be replaced by these. -/
theorem Tried.splice_first {nested : Parsing σ α} {inner rest : List (Parsing σ α)} {scene : Scene σ}
    {ending : Ending σ α} (inside : Tried cursor failure inner scene (nested scene))
    (tried : Tried cursor failure (nested :: rest) scene ending)
    : Tried cursor failure (inner ++ rest) scene ending := by
  cases tried with
  | matched _ ended found =>
      rw [ended] at inside
      refine inside.append_of_ended (fun after same => ?_) rest
      cases same
      exact found rfl
  | faulted _ ended =>
      rw [ended] at inside
      exact inside.append_of_ended (fun after same => by cases same) rest
  | @failed _ _ _ after _ _ ended next =>
      rw [ended] at inside
      -- The attempts inside are back at the start already, so returning there once more does nothing.
      have returned : { after with cursor } = after := by
        rw [← inside.cursor_of_failed rfl]
      rw [returned] at next
      exact inside.append_of_failed rfl next

/-- Wherever it stands among other attempts, an attempt that consists of attempts from the same cursor
can be replaced by these, by induction on the attempts before it. -/
theorem Tried.splice {nested : Parsing σ α} {inner : List (Parsing σ α)}
    (inside : ∀ scene, scene.cursor = cursor → Tried cursor failure inner scene (nested scene))
    {before rest : List (Parsing σ α)} {scene : Scene σ} {ending : Ending σ α}
    (tried : Tried cursor failure (before ++ nested :: rest) scene ending)
    : Tried cursor failure (before ++ (inner ++ rest)) scene ending := by
  induction before generalizing scene with
  | nil =>
      rw [List.nil_append]
      exact .splice_first (inside scene tried.stands) tried
  | cons first more ih =>
      cases tried with
      | matched stands ended found => exact .matched stands ended found
      | faulted stands ended => exact .faulted stands ended
      | failed stands ended next => exact .failed stands ended (ih next)

/-- Attempts end the same with one of them replaced by the attempts that it consists of. -/
theorem Tried.eq_of_spliced {β : Type} {attempt : β → Parsing σ α} {before inner after : List β}
    {nested : β}
    (inside
      : ∀ scene,
          scene.cursor = cursor
          → Tried cursor failure (inner.map attempt) scene (attempt nested scene))
    {scene : Scene σ} {ending other : Ending σ α}
    (tried : Tried cursor failure ((before ++ [nested] ++ after).map attempt) scene ending)
    (flat : Tried cursor failure ((before ++ inner ++ after).map attempt) scene other)
    : ending = other := by
  simp only [List.append_assoc, List.singleton_append, List.map_append, List.map_cons] at tried flat
  exact (tried.splice inside).unique flat

end Attempts

/-- Without an entry hook, a choice is its attempts. -/
theorem Ordered.tried_of_silent {entry : Entry} {failure : α} {attempts : List (Parsing Unit α)}
    {scene : Scene Unit} {ending : Ending Unit α}
    (ordered : Ordered Hook.silent entry failure attempts scene ending)
    : Tried scene.cursor failure attempts scene ending := by
  cases ordered with
  | refused announced => cases announced
  | tried announced tried =>
      cases announced
      exact tried

end Parsing

namespace Grammar

section Silent

variable {scene : Scene Unit} (reachable : scene.cursor.Reachable)

include reachable

/-- A choice between many tries its alternatives. -/
theorem tried_oneOf (id : Nat) (alternatives : List (Grammar H))
    : Tried scene.cursor false (alternatives.map (·.parse Hook.silent)) scene
        ((oneOf id alternatives).parse Hook.silent scene) :=
  (ordered_oneOf Hook.still_silent reachable id alternatives).tried_of_silent

/-- And means trying what they mean. -/
theorem tried_meaning_oneOf (id : Nat) {alternatives : List (Grammar H)}
    (each : ∀ alternative ∈ alternatives, alternative.Unscripted)
    : Tried scene.cursor none (alternatives.map (·.meaning Hook.silent)) scene
        ((oneOf id alternatives).meaning Hook.silent scene) := by
  have tried := (ordered_meaning Hook.still_silent reachable rfl
    (unscripted_oneOf each id)).tried_of_silent
  have attempts : (alternatives.map fun grammar => (grammar, (.identity : Conversion H))).map
        (fun choice => converted choice.2 (choice.1.yieldStaged Hook.silent))
      = alternatives.map (·.meaning Hook.silent) := by
    rw [List.map_map]
    refine List.map_congr_left fun alternative member => ?_
    rw [← yieldStaged_eq_meaning Hook.silent (each alternative member)]
    exact converted_identity _
  rwa [attempts] at tried

end Silent

/-- Without an entry hook and from a reachable cursor, a choice that stands among the alternatives of
another one can be replaced by its own alternatives: verdict or fault, cursor and record are the same,
for the interpreted choices and for the staged ones, whatever the alternatives do. The choice inside
may be without alternatives. -/
theorem oneOf_flattens {scene : Scene Unit} (reachable : scene.cursor.Reachable)
    (before inner after : List (Grammar H)) (id nested flat : Nat)
    : (oneOf id (before ++ [oneOf nested inner] ++ after)).parse Hook.silent scene
        = (oneOf flat (before ++ inner ++ after)).parse Hook.silent scene
      ∧ ((∀ grammar ∈ before ++ inner ++ after, grammar.Unscripted)
          → ∀ i j,
              (staged i (oneOf id (before ++ [oneOf nested inner] ++ after)) true).parse
                  Hook.silent scene
                = (staged j (oneOf flat (before ++ inner ++ after)) true).parse
                    Hook.silent scene) := by
  constructor
  · refine Tried.eq_of_spliced (fun later stands => ?_) (tried_oneOf reachable id _)
      (tried_oneOf reachable flat _)
    rw [← stands] at reachable ⊢
    exact tried_oneOf reachable nested inner
  · intro each i j
    have eachInner : ∀ grammar ∈ inner, grammar.Unscripted := fun grammar member =>
      each grammar (by simp [member])
    have eachNested : ∀ grammar ∈ before ++ [oneOf nested inner] ++ after, grammar.Unscripted := by
      intro grammar member
      simp only [List.mem_append, List.mem_singleton] at member
      rcases member with (earlier | rfl) | later
      · exact each grammar (by simp [earlier])
      · exact unscripted_oneOf eachInner nested
      · exact each grammar (by simp [later])
    refine parse_staged_eq (unscripted_oneOf eachNested id) (unscripted_oneOf each flat) ?_ i j
    refine Tried.eq_of_spliced (fun later stands => ?_) (tried_meaning_oneOf reachable id eachNested)
      (tried_meaning_oneOf reachable flat each)
    rw [← stands] at reachable ⊢
    exact tried_meaning_oneOf reachable nested eachInner

end Grammar

namespace Stock

/-- A parser that runs a unit ahead and claims a match without setting its record. -/
def pretender : Grammar host :=
  .foreign 3 (Text.ofString "Silent") (.silent 1)

end Stock

/-- A choice between parsers that fail or claim a match without setting their record, inside of a
choice that begins with one that overruns, entered before the end of a line. -/
theorem Grammar.oneOf_flattens_sample
    : let scene : Scene Unit := ⟨Stock.lineEnd.cursor, none, ()⟩
      let nested := oneOf 0 ([Stock.overrunner] ++ [oneOf 4 [Stock.staleWriter, Stock.pretender]] ++ [])
      let flat := oneOf 5 ([Stock.overrunner] ++ [Stock.staleWriter, Stock.pretender] ++ [])
      scene.cursor.Reachable
      ∧ (∀ grammar ∈ [Stock.overrunner] ++ [Stock.staleWriter, Stock.pretender] ++ [],
          grammar.Unscripted)
      ∧ nested.parse Hook.silent scene = flat.parse Hook.silent scene
      ∧ (staged 6 nested true).parse Hook.silent scene
        = (staged 7 flat true).parse Hook.silent scene := by
  intro scene nested flat
  have reachable : scene.cursor.Reachable := Stock.reachable_lineEnd
  have each : ∀ grammar ∈ [Stock.overrunner] ++ [Stock.staleWriter, Stock.pretender] ++ [],
      grammar.Unscripted := by
    intro grammar member
    simp only [List.append_nil, List.mem_append, List.mem_cons, List.not_mem_nil, or_false] at member
    rcases member with rfl | rfl | rfl
    all_goals exact unscripted_foreign _ _ _
  obtain ⟨interpreted, staged⟩ := oneOf_flattens reachable [Stock.overrunner]
    [Stock.staleWriter, Stock.pretender] [] 0 4 5
  exact ⟨reachable, each, interpreted, staged each 6 7⟩

end StagedParser
