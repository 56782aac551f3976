import StagedParser.Proofs.Code.Writes
import StagedParser.Proofs.Grammar.Interpretation
import StagedParser.Proofs.Stock.Contract

/-! Fragments can be spliced anywhere.
Whatever happened at a workbench before and whatever happens there later, the locals of a fragment are
given to nobody else. So its code can be run among any other locals: it leaves them alone, tells in its
own ones what parsing by its grammar comes to, and does to cursor and hook what parsing does.
-/

namespace StagedParser

open Code

variable {H : Host} {σ : Type} {table : List (Constant H)}

-----------------------------------------------------------------------------------------
-- Histories of workbenches
-----------------------------------------------------------------------------------------

namespace Workbench

/-- What may happen at a workbench from its state at the start on, and the names that are given out
meanwhile: names are requested, constants bound, scopes opened and closed, and fragments made. -/
inductive Passes (start : Workbench H) : List Name → Workbench H → Prop
  | begun : Passes start [] start
  | declare {given : List Name} {between after : Workbench H} {base : Text} {name : Name}
    (earlier : Passes start given between) (took : Emit.declare base between = .ok name after)
    : Passes start (given ++ [name]) after
  | constant {given : List Name} {between after : Workbench H} {wanted : Constant H} {slot : Nat}
    (earlier : Passes start given between) (bound : Emit.constant wanted between = .ok slot after)
    : Passes start given after
  | opened {given : List Name} {between : Workbench H} (earlier : Passes start given between)
    : Passes start given { between with supply := between.supply.openScope }
  | closed {given : List Name} {between : Workbench H} (earlier : Passes start given between)
    : Passes start given
        { between with supply := { between.supply with scopes := between.supply.scopes.tail } }
  | child {given : List Name} {between after : Workbench H} {grammar : Grammar H} {fragment : Fragment}
    (earlier : Passes start given between) (unscripted : grammar.Unscripted)
    (made : Emit.inScope grammar.emit between = .ok fragment after)
    : Passes start (given ++ fragment.names) after

end Workbench

/-- A name that was requested outside of all scopes or in one of the allowed ones. -/
structure Name.From (allowed : Nat → Prop) (name : Name) : Prop where
  requested : name.mark ≠ .verbatim
  scope : ∀ scope, name.mark = .inScope scope → allowed scope

/-- A name is requested in the innermost scope, and requests open and close nothing. -/
theorem Emit.of_declare {base : Text} {name : Name} {before after : Workbench H}
    (took : Emit.declare base before = .ok name after)
    : after.supply.scopeCount = before.supply.scopeCount
      ∧ after.supply.scopes.map Name.Scope.id = before.supply.scopes.map Name.Scope.id
      ∧ name.From (· ∈ before.supply.scopes.map Name.Scope.id) := by
  rw [Emit.declare, Name.Supply.request] at took
  by_cases valid : Name.isIdentifier base = true
  · rw [if_pos valid] at took
    cases opened : before.supply.scopes with
    | nil =>
        rw [opened] at took
        cases took
        exact ⟨rfl, by simp, ⟨by simp, by simp⟩⟩
    | cons current outer =>
        rw [opened] at took
        cases took
        exact ⟨rfl, by simp, ⟨by simp, by simp⟩⟩
  · rw [if_neg valid] at took
    cases took

/-- Binding a constant gives out no name. -/
theorem Emit.of_constant {wanted : Constant H} {slot : Nat} {before after : Workbench H}
    (bound : Emit.constant wanted before = .ok slot after)
    : after.supply = before.supply := by
  rw [Emit.constant] at bound
  split at bound
  · cases bound
    rfl
  · cases bound
    rfl

/-- The locals of an emitted fragment come from its scopes and are told apart by their texts. -/
theorem Emitted.names_inside {grammar : Grammar H} {first last : Nat} {fragment : Fragment}
    (emitted : Emitted table grammar first last fragment) {name : Name} (member : name ∈ fragment.names)
    : Inside first last name ∧ name.Plain := by
  have bound : (declared fragment.spliced).Sublist (binders fragment.spliced) :=
    sublist_binders _ fun statement => List.sublist_append_left _ _
  rw [← fragment.declared_spliced] at member
  have distinct := emitted.form.distinct
  exact ⟨distinct.inside name (bound.subset member), distinct.plain name (bound.subset member)⟩

/-- What is known of a fragment that was made on some workbench. -/
structure Grammar.Made (grammar : Grammar H) (before after : Workbench H) (fragment : Fragment)
    : Prop where
  extended : before.Extends after
  emitted
    : ∀ table,
        after.constants <+: table
        → Emitted table grammar before.supply.scopeCount after.supply.scopeCount fragment

/-- For an unscripted grammar a fragment is always made. -/
theorem Grammar.exists_made (grammar : Grammar H) (unscripted : grammar.Unscripted)
    (bench : Workbench H)
    : ∃ fragment after,
        Emit.inScope grammar.emit bench = .ok fragment after
        ∧ grammar.Made bench after fragment := by
  obtain ⟨fragment, after, made, extended, emitted⟩ :=
    Emit.emit_inScope_yields (grammar.emits_of_unscripted unscripted) bench
  exact ⟨fragment, after, made, extended, emitted⟩

/-- What is generated for an unscripted grammar is made for it. -/
theorem Grammar.made_of_unscripted {grammar : Grammar H} (unscripted : grammar.Unscripted)
    {before after : Workbench H} {fragment : Fragment}
    (made : Emit.inScope grammar.emit before = .ok fragment after)
    : grammar.Made before after fragment := by
  obtain ⟨_, _, same, known⟩ := grammar.exists_made unscripted before
  cases same.symm.trans made
  exact known

/-- The names of what was made are plain, and of scopes that were opened for it. -/
theorem Grammar.Made.names_inside {grammar : Grammar H} {before after : Workbench H}
    {fragment : Fragment} (made : grammar.Made before after fragment) {name : Name}
    (member : name ∈ fragment.names)
    : Inside before.supply.scopeCount after.supply.scopeCount name ∧ name.Plain :=
  (made.emitted after.constants (List.prefix_refl _)).names_inside member

namespace Workbench.Passes

variable {start later : Workbench H} {given : List Name}

/-- Scopes are never counted back, by induction on what happens. -/
theorem scopeCount_le (passes : Passes start given later)
    : start.supply.scopeCount ≤ later.supply.scopeCount := by
  induction passes with
  | begun => exact Nat.le_refl _
  | declare earlier took ih => exact (Emit.of_declare took).1 ▸ ih
  | constant earlier bound ih => exact Emit.of_constant bound ▸ ih
  | opened earlier ih => exact Nat.le_succ_of_le ih
  | closed earlier ih => exact ih
  | child earlier unscripted made ih =>
      exact Nat.le_trans ih (Grammar.made_of_unscripted unscripted made).extended.scopeCount

/-- If the scopes that are open at the start and those that are opened later are allowed, names are
given out in allowed scopes only, and only such are open at the end. Witness: induction on what
happens. -/
theorem within_allowed {allowed : Nat → Prop} (passes : Passes start given later)
    (already : ∀ number ∈ start.supply.scopes.map Name.Scope.id, allowed number)
    (fresh
      : ∀ number,
          start.supply.scopeCount ≤ number → number < later.supply.scopeCount → allowed number)
    : (∀ number ∈ later.supply.scopes.map Name.Scope.id, allowed number)
      ∧ ∀ name ∈ given, name.From allowed := by
  induction passes with
  | begun => exact ⟨already, by simp⟩
  | @declare given between after base name earlier took ih =>
      obtain ⟨count, numbers, requested, scope⟩ := Emit.of_declare took
      obtain ⟨opened, names⟩ := ih (count ▸ fresh)
      refine ⟨numbers ▸ opened, fun other member => ?_⟩
      rcases List.mem_append.mp member with before | now
      · exact names other before
      · rw [List.mem_singleton.mp now]
        exact ⟨requested, fun number mark => opened number (scope number mark)⟩
  | constant earlier bound ih =>
      rw [Emit.of_constant bound] at fresh ⊢
      exact ih fresh
  | @opened given between earlier ih =>
      have counted := earlier.scopeCount_le
      obtain ⟨opened, names⟩ := ih fun number above below =>
        fresh number above (Nat.lt_succ_of_lt below)
      refine ⟨fun number member => ?_, names⟩
      rcases List.mem_cons.mp member with rfl | outer
      · exact fresh _ counted (Nat.lt_succ_self _)
      · exact opened number outer
  | @closed given between earlier ih =>
      obtain ⟨opened, names⟩ := ih fresh
      refine ⟨fun number member => opened number ?_, names⟩
      exact List.mem_of_mem_tail (List.map_tail ▸ member)
  | @child given between after grammar fragment earlier unscripted made ih =>
      have counted := earlier.scopeCount_le
      have known := Grammar.made_of_unscripted unscripted made
      obtain ⟨opened, names⟩ := ih fun number above below =>
        fresh number above (Nat.lt_of_lt_of_le below known.extended.scopeCount)
      refine ⟨known.extended.scopes ▸ opened, fun name member => ?_⟩
      rcases List.mem_append.mp member with before | now
      · exact names name before
      · obtain ⟨⟨scope, mark, above, below⟩, plain⟩ := known.names_inside now
        refine ⟨plain.requested, fun number same => ?_⟩
        obtain rfl : scope = number := by simpa [mark] using same
        exact fresh scope (Nat.le_trans counted above) below

end Workbench.Passes

-----------------------------------------------------------------------------------------
-- Runs of fragments
-----------------------------------------------------------------------------------------

namespace Code

/-- A run of a fragment mirrors parsing by its grammar, from given locals and with a given record at
hand. Both end with the same cursor and the same notes of the hook, in a match, without one, or with the
same fault. The fragment's success tells which, and after a match its value is that of the match, and
reading it changes nothing. The record and all locals but those of the fragment are left alone. -/
inductive Fragment.Mirrors (table : List (Constant H)) (fragment : Fragment) (before : Locals)
    (record : MatchRecord) : Ending σ Bool → Ending σ (Flow × Locals) → Prop
  | matched (cursor : Cursor) (found : Match) (notes : σ) (after : Locals)
    (success : after.get? fragment.success = some (.value (.flag true)))
    (value : fragment.value.eval table after = (pure (.value found.value) : Parsing σ Datum))
    (kept : ∀ name, name ∉ fragment.names → after.get? name = before.get? name)
    : Mirrors table fragment before record (.ok true ⟨cursor, some found, notes⟩)
        (.ok (.next, after) ⟨cursor, record, notes⟩)
  | failed (cursor : Cursor) (left : MatchRecord) (notes : σ) (after : Locals)
    (success : after.get? fragment.success = some (.value (.flag false)))
    (kept : ∀ name, name ∉ fragment.names → after.get? name = before.get? name)
    : Mirrors table fragment before record (.ok false ⟨cursor, left, notes⟩)
        (.ok (.next, after) ⟨cursor, record, notes⟩)
  | faulted (fault : Fault) (cursor : Cursor) (left : MatchRecord) (notes : σ)
    : Mirrors table fragment before record (.error fault ⟨cursor, left, notes⟩)
        (.error fault ⟨cursor, record, notes⟩)

/-- To splice a fragment is to declare its locals and to run its body. -/
theorem Fragment.runAll_spliced (fragment : Fragment) (hook : Hook σ) (table : List (Constant H))
    (locals : Locals)
    : runAll hook table locals fragment.spliced
      = runAll hook table (locals.declare fragment.locals) fragment.body := by
  rw [spliced]
  split
  · next none => rw [List.isEmpty_iff.mp none, Locals.declare, List.foldl_nil]
  · funext scene
    exact runAll_cons_of_next _ (by rw [Stmt.run]; rfl)

end Code

section Runs

variable {grammar : Grammar H} {first last : Nat} {fragment : Fragment} {hook : Hook σ}
  {locals after : Locals} {scene later : Scene σ}

/-- A run of an emitted fragment leaves all locals but its own alone. -/
theorem Emitted.kept (emitted : Emitted table grammar first last fragment) {flow : Flow}
    (ran : runAll hook table locals fragment.spliced scene = .ok (flow, after) later) {name : Name}
    (absent : name ∉ fragment.names)
    : after.get? name = locals.get? name := by
  refine (runAll_assigned _ ran).get?_eq fun member => absent ?_
  rw [fragment.written_spliced, List.mem_append] at member
  rcases member with own | inner
  · exact List.mem_append_left _ own
  · exact emitted.writesOwn inner

/-- A local of a fragment can be read after a run of the fragment. -/
theorem Code.Fragment.eval_name {name : Name} (member : name ∈ fragment.locals) {flow : Flow}
    (ran : runAll hook table locals fragment.spliced scene = .ok (flow, after) later)
    : ∃ datum, (Atom.name name).eval table after = (pure datum : Parsing σ Datum) := by
  rw [fragment.runAll_spliced] at ran
  obtain ⟨_, declared⟩ := locals.held_of_declare member
  obtain ⟨datum, held⟩ := (runAll_assigned _ ran).held declared
  exact ⟨datum, by rw [Atom.eval, held]⟩

/-- After a match the value of a fragment can be read, if parsers from outside set their record when
they match. Witness: only those leave their value in a record, by induction on what was emitted. -/
theorem Emitted.value_readable (emitted : Emitted table grammar first last fragment)
    (foreigns : grammar.ForeignsSatisfy hook Parsing.IgnoresRecord) {flow : Flow}
    (ran : runAll hook table locals fragment.spliced scene = .ok (flow, after) later)
    (success : after.get? fragment.success = some (.value (.flag true)))
    : ∃ datum, fragment.value.eval table after = (pure datum : Parsing σ Datum) := by
  induction emitted with
  | reading leaf bound => exact Fragment.eval_name (by simp [readingFragment]) ran
  | map emitted bound boundFunction ih => exact Fragment.eval_name (by simp [mapFragment]) ran
  | empty bound => exact ⟨_, rfl⟩
  | choice choices nonempty bound each conversions consecutive ih =>
      exact Fragment.eval_name (by simp [Emit.Choice.fragment]) ran
  | staged emitted ih => exact ih (foreigns.child Grammar.mem_children_staged) ran success
  | @foreign id name parser scope maker self boundMaker boundSelf =>
      have alike :=
        foreigns id name parser (Grammar.self_mem_nodes _) { scene with record := none } none
      rw [runAll_foreign boundMaker boundSelf] at ran
      obtain ⟨⟨matched, own⟩, between, called, continued⟩ := of_run_bind ran
      cases continued
      rw [foreignFragment, Locals.get?_set_self] at success
      cases success
      simp only [Parsing.onRecord] at called
      generalize (H.conduct parser ⟨id, name⟩).run hook { scene with record := none } = ending
        at alike called
      cases alike with
      | matched cursor found notes =>
          cases called
          refine ⟨.value found.value, ?_⟩
          have differ : Name.within scope "delegateResult" ≠ Name.within scope "delegateSuccess" :=
            within_ne scope (by decide)
          simp only [foreignFragment, Atom.eval, Locals.get?_set_of_ne _ _ differ, Locals.get?_set_self]
          rfl
      | failed cursor left right notes => cases called
      | faulted fault cursor left right notes => cases called

/-- A run of an emitted fragment mirrors parsing by its grammar, if parsers from outside ignore the
record they are given and set it when they match. -/
theorem Emitted.mirrors (emitted : Emitted table grammar first last fragment)
    (unscripted : grammar.Unscripted)
    (foreigns : grammar.ForeignsSatisfy hook Parsing.IgnoresRecord) (locals : Locals) (scene : Scene σ)
    : fragment.Mirrors table locals scene.record (grammar.parse hook scene)
        (runAll hook table (locals.declare fragment.locals) fragment.body scene) := by
  obtain ⟨ignores, yields⟩ := grammar.interpreted_of_unscripted hook unscripted foreigns
  have alike := ignores scene none
  have run := emitted.simulates hook locals scene
  rw [← yields] at run
  rw [← fragment.runAll_spliced]
  generalize grammar.parse hook scene = parsed at alike ⊢
  generalize unset : grammar.parse hook { scene with record := none } = ending at alike
  generalize ran : runAll hook table locals fragment.spliced scene = result at run ⊢
  cases alike with
  | matched cursor found notes =>
      rw [Parsing.yield_of_matched scene unset] at run
      cases run with
      | matched after value _ success holds same =>
          exact .matched cursor found notes after success (holds after fun _ _ => rfl)
            fun name absent => emitted.kept ran absent
  | failed cursor left right notes =>
      rw [Parsing.yield_of_failed scene unset] at run
      cases run with
      | failed after _ success same =>
          exact .failed cursor left notes after success fun name absent => emitted.kept ran absent
  | faulted fault cursor left right notes =>
      rw [Parsing.yield_of_faulted scene unset] at run
      cases run with
      | faulted => exact .faulted fault cursor left notes
      | unreadable after _ _ success holds same =>
          -- The value of a match would be a fault, but it can be read.
          obtain ⟨datum, readable⟩ := emitted.value_readable foreigns ran success
          have unreadable := congrFun (readable.symm.trans (holds after fun _ _ => rfl)) scene
          cases unreadable

end Runs

-----------------------------------------------------------------------------------------
-- Names that are given to nobody else
-----------------------------------------------------------------------------------------

/-- A name from other scopes than those of a fragment is no local of it, and no text of one. -/
theorem Grammar.Made.text_not_mem {grammar : Grammar H} {before after : Workbench H}
    {fragment : Fragment} (made : grammar.Made before after fragment) {name : Name}
    (elsewhere
      : name.From fun number => number < before.supply.scopeCount ∨ after.supply.scopeCount ≤ number)
    : name.text ∉ fragment.names.map Name.text := by
  intro member
  obtain ⟨own, listed, same⟩ := List.mem_map.mp member
  obtain ⟨⟨scope, mark, above, below⟩, plain⟩ := made.names_inside listed
  obtain rfl := Name.eq_of_text_eq plain.requested elsewhere.requested same
  have outside := elsewhere.scope scope mark
  omega

/-- Nobody is given a name of a fragment, neither before the fragment is made nor later. -/
theorem Grammar.Made.texts_not_mem {grammar : Grammar H} {bench after later : Workbench H}
    {given more : List Name} {fragment : Fragment} (history : ({} : Workbench H).Passes given bench)
    (made : grammar.Made bench after fragment) (future : after.Passes more later)
    : ∀ name ∈ given ++ more, name.text ∉ fragment.names.map Name.text := by
  obtain ⟨opened, before⟩ := history.within_allowed (by simp) fun _ _ below => below
  have still
      : ∀ number ∈ after.supply.scopes.map Name.Scope.id,
          number < bench.supply.scopeCount ∨ after.supply.scopeCount ≤ number := by
    rw [made.extended.scopes]
    exact fun number member => .inl (opened number member)
  obtain ⟨_, since⟩ := future.within_allowed still fun _ above _ => .inr above
  intro name member
  apply made.text_not_mem
  rcases List.mem_append.mp member with earlier | afterwards
  · obtain ⟨requested, scope⟩ := before name earlier
    exact ⟨requested, fun number mark => .inl (scope number mark)⟩
  · exact since name afterwards

/-- Fragments are self-contained. An unscripted grammar can be made into a fragment on a workbench with
any history. The code of the fragment writes no locals but those that it declares itself, at any depth.
Their texts differ from those of all names that were given out before and of all that are given out
later, and from those of the locals of any fragment that is made later, be it of the same grammar.
Running the body, once the fragment's own locals are declared, among any locals and with any later table
of constants, mirrors parsing by the grammar, if parsers from outside keep as much of the contract as to
ignore the record they are given and to set it when they match. -/
theorem Grammar.fragment_self_contained (grammar : Grammar H) (unscripted : grammar.Unscripted)
    {given : List Name} {bench : Workbench H} (history : ({} : Workbench H).Passes given bench)
    : ∃ fragment after,
        Emit.inScope grammar.emit bench = .ok fragment after
        ∧ written fragment.body ⊆ fragment.names
        ∧ (∀ more later,
            after.Passes more later
            → (∀ name ∈ given ++ more, name.text ∉ fragment.names.map Name.text)
              ∧ ∀ other : Grammar H,
                  other.Unscripted
                  → ∃ second last,
                      Emit.inScope other.emit later = .ok second last
                      ∧ ∀ name ∈ second.names, name.text ∉ fragment.names.map Name.text)
        ∧ ∀ (σ : Type) (hook : Hook σ) (table : List (Constant H)) (locals : Locals) (scene : Scene σ),
            grammar.ForeignsSatisfy hook Parsing.IgnoresRecord
            → after.constants <+: table
            → fragment.Mirrors table locals scene.record (grammar.parse hook scene)
                (runAll hook table (locals.declare fragment.locals) fragment.body scene) := by
  obtain ⟨fragment, after, compiled, made⟩ := grammar.exists_made unscripted bench
  refine ⟨fragment, after, compiled, ?_, ?_, ?_⟩
  · exact (made.emitted after.constants (List.prefix_refl _)).writesOwn
  · intro more later future
    refine ⟨made.texts_not_mem history future, fun other plain => ?_⟩
    obtain ⟨second, last, next, _⟩ := other.exists_made plain later
    refine ⟨second, last, next, fun name member => ?_⟩
    refine made.texts_not_mem history (future.child plain next) name ?_
    exact List.mem_append_right _ (List.mem_append_right _ member)
  · intro σ hook table locals scene foreigns extended
    exact (made.emitted table extended).mirrors unscripted foreigns locals scene

/-- The sample of the stock is made into a fragment twice, where one name was requested before. The
second fragment shares no name with the first or with the one that was requested, and runs as the sample
parses, with a parser that leaves stale records, one that lies, and a hook that moves the cursor. -/
theorem Grammar.fragment_self_contained_sample
    : let grammar := Stock.sample (.stale 1) (.liar 1)
      let hook := Stock.strictHook 9 [.advance 1]
      let requested := Name.within 0 "orSuccess"
      ∃ (first : Fragment) (bench : Workbench Stock.host),
        ({} : Workbench Stock.host).Passes (requested :: first.names) bench
        ∧ grammar.Unscripted
        ∧ grammar.ForeignsSatisfy hook Parsing.IgnoresRecord
        ∧ ∃ second after,
            Emit.inScope grammar.emit bench = .ok second after
            ∧ (∀ name ∈ requested :: first.names, name.text ∉ second.names.map Name.text)
            ∧ ∀ locals scene,
                second.Mirrors after.constants locals scene.record (grammar.parse hook scene)
                  (runAll hook after.constants (locals.declare second.locals) second.body scene) := by
  intro grammar hook requested
  have unscripted : grammar.Unscripted := Stock.sample_unscripted _ _
  have foreigns : grammar.ForeignsSatisfy hook Parsing.IgnoresRecord :=
    Stock.sample_foreigns (Stock.ignoresRecord_conduct hook _ (by simp))
      (Stock.ignoresRecord_conduct hook _ (by simp))
  let inside : Workbench Stock.host := { supply := Name.Supply.openScope {} }
  have opened : ({} : Workbench Stock.host).Passes [] inside := .opened .begun
  have took : Emit.declare (Text.ofString "orSuccess") inside = .ok requested _ := rfl
  have named := opened.declare took
  obtain ⟨first, bench, made, _⟩ := grammar.exists_made unscripted _
  have history := named.child unscripted made
  obtain ⟨second, after, compiled, _, apart, mirrors⟩ :=
    fragment_self_contained grammar unscripted history
  have others := (apart [] after .begun).1
  rw [List.append_nil] at others
  exact ⟨first, bench, history, unscripted, foreigns, second, after, compiled, others,
    fun locals scene => mirrors _ hook after.constants locals scene foreigns (List.prefix_refl _)⟩

end StagedParser
