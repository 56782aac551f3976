import StagedParser.Proofs.Store.Programs

/-! Parsing on a store.
A grammar that stands in a store parses there, in any context and on any record, as the grammar itself
parses in the scene that the site shows: what it leaves behind, apart from scanner, record and notes,
is new. Grammars are put into a store without changing what stands there already.
-/

namespace StagedParser

open Code

variable {H : Host} {σ : Type}

namespace Store

-----------------------------------------------------------------------------------------
-- Grammars that stand in a store
-----------------------------------------------------------------------------------------

mutual

/-- A grammar stands at an address: a parser of its kind is there, and what the grammar is made of
stands at the addresses that this parser refers to, which come before its own.
-/
inductive Stands (parsers : List (Parser H)) : Grammar H → Address → Prop
  | literal {id : Nat} {text : Text} {ignoreCase : Bool} {address : Address}
    (found
      : parsers[address]?
        = some ⟨(Grammar.literal id text ignoreCase : Grammar H).entry, .literal text ignoreCase⟩)
    : Stands parsers (.literal id text ignoreCase) address
  | pattern {id : Nat} {test : H.Test} {min max : Nat} {address : Address}
    (found : parsers[address]? = some ⟨(Grammar.pattern id test min max).entry, .pattern test min max⟩)
    : Stands parsers (.pattern id test min max) address
  | map {id : Nat} {inner : Grammar H} {transform : Conversion H} {address source : Address}
    (found : parsers[address]? = some ⟨(Grammar.map id inner transform).entry, .map source transform⟩)
    (stands : Stands parsers inner source) (below : source < address)
    : Stands parsers (.map id inner transform) address
  | oneOf {id : Nat} {alternatives : List (Grammar H)} {address : Address} {addresses : List Address}
    (found : parsers[address]? = some ⟨(Grammar.oneOf id alternatives).entry, .oneOf addresses⟩)
    (stand : StandBelow parsers address alternatives addresses)
    : Stands parsers (.oneOf id alternatives) address
  | either {id : Nat} {first second : Grammar H} {ofLeft ofRight : Conversion H}
    {address left right : Address}
    (found
      : parsers[address]?
        = some ⟨(Grammar.either id first second ofLeft ofRight).entry,
            .either left right ofLeft ofRight⟩)
    (standsLeft : Stands parsers first left) (belowLeft : left < address)
    (standsRight : Stands parsers second right) (belowRight : right < address)
    : Stands parsers (.either id first second ofLeft ofRight) address
  | relay {id : Nat} {inner : Grammar H} {address source : Address}
    (found : parsers[address]? = some ⟨(Grammar.staged id inner false).entry, .relay source⟩)
    (stands : Stands parsers inner source) (below : source < address)
    : Stands parsers (.staged id inner false) address
  | generated {id : Nat} {inner : Grammar H} {address : Address}
    (found
      : parsers[address]?
        = some ⟨(Grammar.staged id inner true).entry, .generated inner.name inner.program⟩)
    : Stands parsers (.staged id inner true) address
  | foreign {id : Nat} {name : Text} {parser : H.Foreign} {address : Address}
    (found : parsers[address]? = some ⟨(Grammar.foreign id name parser).entry, .foreign parser⟩)
    : Stands parsers (.foreign id name parser) address
  | scripted {id : Nat} {name : Text} {emission : Emission} {address : Address}
    (found
      : parsers[address]? = some ⟨(Grammar.scripted id name emission : Grammar H).entry, .never⟩)
    : Stands parsers (.scripted id name emission) address

/-- Grammars stand at addresses that come before a given one. -/
inductive StandBelow (parsers : List (Parser H))
    : (bound : Address) → List (Grammar H) → List Address → Prop
  | nil {bound : Address} : StandBelow parsers bound [] []
  | cons {bound : Address} {first : Grammar H} {rest : List (Grammar H)} {address : Address}
    {more : List Address} (stands : Stands parsers first address) (below : address < bound)
    (others : StandBelow parsers bound rest more)
    : StandBelow parsers bound (first :: rest) (address :: more)

end

/-- What stands in a store is there. -/
theorem Stands.inside {parsers : List (Parser H)} {grammar : Grammar H} {address : Address}
    (stands : Stands parsers grammar address)
    : address < parsers.length := by
  cases stands <;> exact (List.getElem?_eq_some_iff.mp (by assumption)).1

-----------------------------------------------------------------------------------------
-- Parsing
-----------------------------------------------------------------------------------------

section Parsing

variable {site : Site H σ} {watch : Entry → Work H Unit} {hook : Hook σ}

/-- Parsing at an address looks up the parser there. -/
theorem mirrors_parseWithin_succ {depth : Nat} {record address : Address} {parser : Parser H}
    (found : site.parsers[address]? = some parser) {parsing : Parsing σ Bool}
    (runs
      : Mirrors (site.on record)
          (runParser ⟨site.scanner, watch⟩ (parseWithin ⟨site.scanner, watch⟩ depth) address record
            parser)
          parsing)
    : Mirrors (site.on record) (parseWithin ⟨site.scanner, watch⟩ (depth + 1) address record) parsing := by
  intro store scene shows
  have read : parserRegion.read address store = .ok parser store :=
    parserRegion.read_eq (show store.parsers[address]? = some parser from shows.parsers ▸ found)
  rw [parseWithin, run_bind_ok read]
  exact runs store scene shows

mutual

/-- Parsing at the address of a grammar mirrors parsing with the grammar, on every record, if chains
of calls may be longer than the address.
Witness: by the kinds of grammars; each part stands before the whole, so the calls that are left are
enough for it.
-/
theorem Stands.mirrors_parseWithin
    (watches : ∀ record entry, Mirrors (site.on record) (watch entry) (Parsing.enter hook entry))
    {grammar : Grammar H} {address : Address} (stands : Stands site.parsers grammar address)
    {depth : Nat} (enough : address < depth) (record : Address)
    : Mirrors (site.on record) (parseWithin ⟨site.scanner, watch⟩ depth address record)
        (grammar.parse hook) := by
  obtain ⟨depth, rfl⟩ : ∃ less, depth = less + 1 := Nat.exists_eq_add_one.mpr (Nat.zero_lt_of_lt enough)
  have bound : address ≤ depth := Nat.le_of_lt_succ enough
  cases stands with
  | literal found =>
      rw [Grammar.parse]
      refine mirrors_parseWithin_succ found ((watches record _).bind fun _ => ?_)
      refine mirrors_position.bind fun start => (mirrors_takeText _ _).bind fun taken => ?_
      exact mirrors_settle start taken
  | pattern found =>
      rw [Grammar.parse]
      refine mirrors_parseWithin_succ found ((watches record _).bind fun _ => ?_)
      refine mirrors_position.bind fun start => (mirrors_takeWhile _ _ _).bind fun taken => ?_
      exact mirrors_settle start taken
  | map found stands below =>
      rw [Grammar.parse]
      refine mirrors_parseWithin_succ found ((watches record _).bind fun _ => ?_)
      exact mirrors_converting _ fun own =>
        stands.mirrors_parseWithin watches (Nat.lt_of_lt_of_le below bound) own
  | oneOf found stand =>
      rw [Grammar.parse]
      refine mirrors_parseWithin_succ found ((watches record _).bind fun _ => ?_)
      exact mirrors_position.bind fun start =>
        stand.mirrors_parseFirst watches bound record start
  | either found standsLeft belowLeft standsRight belowRight =>
      rw [Grammar.parse]
      refine mirrors_parseWithin_succ found ((watches record _).bind fun _ => ?_)
      have left (own : Address) := standsLeft.mirrors_parseWithin watches
        (Nat.lt_of_lt_of_le belowLeft bound) own
      have right (own : Address) := standsRight.mirrors_parseWithin watches
        (Nat.lt_of_lt_of_le belowRight bound) own
      let here := site.on record
      refine mirrors_position.bind fun start => ?_
      refine (@mirrors_converting H σ here _ _ _ left).bind fun matched => ?_
      cases matched with
      | true => exact mirrors_pure true
      | false =>
          refine (mirrors_move _).bind fun _ => ?_
          refine (@mirrors_converting H σ here _ _ _ right).bind fun matched => ?_
          cases matched with
          | true => exact mirrors_pure true
          | false => exact (mirrors_move _).bind fun _ => mirrors_pure false
  | relay found stands below =>
      rw [Grammar.parse]
      exact mirrors_parseWithin_succ found
        (stands.mirrors_parseWithin watches (Nat.lt_of_lt_of_le below bound) record)
  | @generated id inner address found =>
      rw [Grammar.parse]
      refine mirrors_parseWithin_succ found ?_
      cases generated : inner.program with
      | error fault =>
          rw [generated] at found
          exact mirrors_throw fault
      | ok program =>
          rw [generated] at found
          exact @mirrors_runProgram H σ (site.on record) watch hook watches _ _ _ _ found
            (Grammar.areTidy_of_program generated)
  | foreign found =>
      rw [Grammar.parse]
      exact mirrors_parseWithin_succ found (mirrors_conduct (watches record) _)
  | scripted found =>
      rw [Grammar.parse]
      exact mirrors_parseWithin_succ found (mirrors_pure false)

/-- So does parsing with the first of several grammars that matches, by induction on them. -/
theorem StandBelow.mirrors_parseFirst
    (watches : ∀ record entry, Mirrors (site.on record) (watch entry) (Parsing.enter hook entry))
    {bound : Address} {grammars : List (Grammar H)} {addresses : List Address}
    (stand : StandBelow site.parsers bound grammars addresses) {depth : Nat} (enough : bound ≤ depth)
    (record : Address) (start : Position)
    : Mirrors (site.on record)
        (Store.parseFirst ⟨site.scanner, watch⟩ start
          (parseWithin ⟨site.scanner, watch⟩ depth · record) addresses)
        (StagedParser.parseFirst hook start grammars) := by
  cases stand with
  | nil => exact mirrors_pure false
  | cons stands below others =>
      rw [StagedParser.parseFirst]
      refine (stands.mirrors_parseWithin watches (Nat.lt_of_lt_of_le below enough) record).bind
        fun matched => ?_
      cases matched with
      | true => exact mirrors_pure true
      | false =>
          exact (mirrors_move _).bind fun _ =>
            others.mirrors_parseFirst watches enough record start

end

/-- Parsing at the address of a grammar mirrors parsing with the grammar, whatever else is in the store.
Witness: parsers are called in descending order of their addresses, so no chain of calls runs out.
-/
theorem Stands.mirrors_parse
    (watches : ∀ record entry, Mirrors (site.on record) (watch entry) (Parsing.enter hook entry))
    {grammar : Grammar H} {address : Address} (stands : Stands site.parsers grammar address)
    (record : Address)
    : Mirrors (site.on record) (parse ⟨site.scanner, watch⟩ address record) (grammar.parse hook) :=
  stands.mirrors_parseWithin watches (Nat.lt_succ_self address) record

end Parsing

-----------------------------------------------------------------------------------------
-- Putting grammars into a store
-----------------------------------------------------------------------------------------

mutual

/-- What stands in a store still stands when parsers are added. -/
theorem Stands.append {parsers : List (Parser H)} (more : List (Parser H)) {grammar : Grammar H}
    {address : Address} (stands : Stands parsers grammar address)
    : Stands (parsers ++ more) grammar address := by
  have kept {parser : Parser H} (found : parsers[address]? = some parser)
      : (parsers ++ more)[address]? = some parser := by
    rw [List.getElem?_append_left stands.inside, found]
  cases stands with
  | literal found => exact .literal (kept found)
  | pattern found => exact .pattern (kept found)
  | map found stands below => exact .map (kept found) (stands.append more) below
  | oneOf found stand => exact .oneOf (kept found) (stand.append more)
  | either found standsLeft belowLeft standsRight belowRight =>
      exact .either (kept found) (standsLeft.append more) belowLeft (standsRight.append more) belowRight
  | relay found stands below => exact .relay (kept found) (stands.append more) below
  | generated found => exact .generated (kept found)
  | foreign found => exact .foreign (kept found)
  | scripted found => exact .scripted (kept found)

/-- So does whatever stands below an address, by induction on the grammars. -/
theorem StandBelow.append {parsers : List (Parser H)} (more : List (Parser H)) {bound : Address}
    {grammars : List (Grammar H)} {addresses : List Address}
    (stand : StandBelow parsers bound grammars addresses)
    : StandBelow (parsers ++ more) bound grammars addresses := by
  cases stand with
  | nil => exact .nil
  | cons stands below others => exact .cons (stands.append more) below (others.append more)

end

/-- A later store to which nothing was added but parsers. -/
def Extended (before after : Store H) : Prop :=
  ∃ more, after = { before with parsers := before.parsers ++ more }

namespace Extended

variable {before between after : Store H}

/-- A store extends itself by no parser. -/
theorem refl (store : Store H) : Extended store store :=
  ⟨[], by simp⟩

/-- Extensions compose, as lists of parsers do. -/
theorem trans (first : Extended before between) (second : Extended between after)
    : Extended before after := by
  obtain ⟨more, rfl⟩ := first
  obtain ⟨others, rfl⟩ := second
  exact ⟨more ++ others, by simp⟩

/-- What stands in a store stands in its extensions. -/
theorem stands (extended : Extended before after) {grammar : Grammar H} {address : Address}
    (stands : Stands before.parsers grammar address)
    : Stands after.parsers grammar address := by
  obtain ⟨more, rfl⟩ := extended
  exact stands.append more

/-- So do grammars below an address. -/
theorem standBelow (extended : Extended before after) {bound : Address} {grammars : List (Grammar H)}
    {addresses : List Address} (stand : StandBelow before.parsers bound grammars addresses)
    : StandBelow after.parsers bound grammars addresses := by
  obtain ⟨more, rfl⟩ := extended
  exact stand.append more

end Extended

/-- Adding a parser always succeeds, and the parser is found at the address that is returned. -/
theorem run_addParser (store : Store H) (parser : Parser H)
    : ∃ after,
        parserRegion.add parser store = .ok store.parsers.length after
        ∧ Extended store after
        ∧ after.parsers[store.parsers.length]? = some parser :=
  ⟨_, rfl, ⟨[parser], rfl⟩, List.getElem?_concat_length⟩

mutual

/-- Every grammar can be put into every store, and stands there then; nothing but parsers is added.
Witness: by the kinds of grammars; the parts of a grammar are put there first, and stay.
-/
theorem run_place (grammar : Grammar H) (store : Store H)
    : ∃ address after,
        place grammar store = .ok address after
        ∧ Extended store after
        ∧ Stands after.parsers grammar address := by
  cases grammar with
  | literal id text ignoreCase =>
      obtain ⟨after, added, extended, found⟩ := run_addParser store _
      exact ⟨_, after, by rw [place, added], extended, .literal found⟩
  | pattern id test min max =>
      obtain ⟨after, added, extended, found⟩ := run_addParser store _
      exact ⟨_, after, by rw [place, added], extended, .pattern found⟩
  | map id source transform =>
      obtain ⟨inner, between, placed, grown, stands⟩ := run_place source store
      obtain ⟨after, added, extended, found⟩ := run_addParser between _
      refine ⟨_, after, ?_, grown.trans extended, .map found (extended.stands stands) stands.inside⟩
      rw [place, run_bind_ok placed, added]
  | oneOf id alternatives =>
      obtain ⟨addresses, between, placed, grown, stand⟩ := run_placeAll alternatives store
      obtain ⟨after, added, extended, found⟩ := run_addParser between _
      refine ⟨_, after, ?_, grown.trans extended, .oneOf found (extended.standBelow stand)⟩
      rw [place, run_bind_ok placed, added]
  | either id left right ofLeft ofRight =>
      obtain ⟨first, middle, placed, grown, standsFirst⟩ := run_place left store
      obtain ⟨second, between, placedNext, further, standsSecond⟩ := run_place right middle
      have standsLeft := further.stands standsFirst
      obtain ⟨after, added, extended, found⟩ := run_addParser between _
      refine ⟨_, after, ?_, (grown.trans further).trans extended, .either found
        (extended.stands standsLeft) standsLeft.inside (extended.stands standsSecond)
        standsSecond.inside⟩
      rw [place, run_bind_ok placed, run_bind_ok placedNext, added]
  | staged id source generated =>
      cases generated with
      | true =>
          obtain ⟨after, added, extended, found⟩ := run_addParser store _
          exact ⟨_, after, by rw [place, added], extended, .generated found⟩
      | false =>
          obtain ⟨inner, between, placed, grown, stands⟩ := run_place source store
          obtain ⟨after, added, extended, found⟩ := run_addParser between _
          refine ⟨_, after, ?_, grown.trans extended,
            .relay found (extended.stands stands) stands.inside⟩
          rw [place, run_bind_ok placed, added]
  | foreign id name parser =>
      obtain ⟨after, added, extended, found⟩ := run_addParser store _
      exact ⟨_, after, by rw [place, added], extended, .foreign found⟩
  | scripted id name emission =>
      obtain ⟨after, added, extended, found⟩ := run_addParser store _
      exact ⟨_, after, by rw [place, added], extended, .scripted found⟩

/-- So can several grammars, one after another, all of them before the next free address. -/
theorem run_placeAll (grammars : List (Grammar H)) (store : Store H)
    : ∃ addresses after,
        placeAll grammars store = .ok addresses after
        ∧ Extended store after
        ∧ StandBelow after.parsers after.parsers.length grammars addresses := by
  cases grammars with
  | nil => exact ⟨[], store, by rw [placeAll]; rfl, .refl store, .nil⟩
  | cons first rest =>
      obtain ⟨address, between, placed, grown, stands⟩ := run_place first store
      obtain ⟨addresses, after, placedRest, further, stand⟩ := run_placeAll rest between
      have standsLater := further.stands stands
      refine ⟨_, after, ?_, grown.trans further, .cons standsLater standsLater.inside stand⟩
      rw [placeAll, run_bind_ok placed, run_bind_ok placedRest]
      rfl

end

end Store

end StagedParser
