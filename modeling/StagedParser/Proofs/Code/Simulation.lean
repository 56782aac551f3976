import StagedParser.Proofs.Code.Emission
import StagedParser.Proofs.Code.Running

/-! Emitted code does what its grammar means.
Running a fragment leaves the scene that the meaning leaves, and in the fragment's own names whether
there was a match and its value; names of other scopes keep what they held. Nothing is assumed of
parsers from outside: a match whose record was never set shows when its value is read.
-/

namespace StagedParser

namespace Code

open Parsing

variable {H : Host} {σ : Type} {hook : Hook σ} {table : List (Constant H)}

-----------------------------------------------------------------------------------------
-- How a run of a fragment ends
-----------------------------------------------------------------------------------------

/-- Reading a fragment's value gives a result, and will as long as the fragment's own names, those of
the scopes from `first` up to `last`, are left alone. -/
def Fragment.Holds (σ : Type) (table : List (Constant H)) (fragment : Fragment) (first last : Nat)
    (locals : Locals) (result : Except Fault Value) : Prop :=
  ∀ later : Locals,
    (∀ name, Inside first last name → later.get? name = locals.get? name)
    → fragment.value.eval table later = (ofResult (result.map .value) : Parsing σ Datum)

/-- How a run of a fragment ends when the meaning of its grammar ends in a given way. -/
inductive FragmentRun (table : List (Constant H)) (fragment : Fragment) (first last : Nat)
    (before : Locals) : Ending σ (Option Value) → Ending σ (Flow × Locals) → Prop
  | faulted (fault : Fault) (scene : Scene σ)
    : FragmentRun table fragment first last before (.error fault scene) (.error fault scene)
  | failed (after : Locals) (scene : Scene σ)
    (flag : after.get? fragment.success = some (.value (.flag false)))
    (same : SameOutside first last before after)
    : FragmentRun table fragment first last before (.ok none scene) (.ok (.next, after) scene)
  | matched (after : Locals) (value : Value) (scene : Scene σ)
    (flag : after.get? fragment.success = some (.value (.flag true)))
    (holds : fragment.Holds σ table first last after (.ok value))
    (same : SameOutside first last before after)
    : FragmentRun table fragment first last before (.ok (some value) scene)
        (.ok (.next, after) scene)
  /-- A match without a value: the fault comes when the value is read. -/
  | unreadable (after : Locals) (fault : Fault) (scene : Scene σ)
    (flag : after.get? fragment.success = some (.value (.flag true)))
    (holds : fragment.Holds σ table first last after (.error fault))
    (same : SameOutside first last before after)
    : FragmentRun table fragment first last before (.error fault scene) (.ok (.next, after) scene)

/-- A fragment simulates the meaning of a grammar: from any locals and any scene it ends as the
meaning does. -/
def Simulates (hook : Hook σ) (table : List (Constant H)) (fragment : Fragment) (first last : Nat)
    (meaning : Parsing σ (Option Value)) : Prop :=
  ∀ (locals : Locals) (scene : Scene σ),
    FragmentRun table fragment first last locals (meaning scene)
      (runAll hook table locals fragment.spliced scene)

/-- A name of a scope is inside every range from it on. -/
theorem inside_within {scope last : Nat} (base : String) (above : scope < last)
    : Inside scope last (.within scope base) :=
  ⟨scope, rfl, Nat.le_refl scope, above⟩

/-- It is inside no range that begins later. -/
theorem not_inside_within {scope first last : Nat} (base : String) (below : scope < first)
    : ¬ Inside first last (.within scope base) := by
  intro inside
  obtain ⟨other, mark, above, _⟩ := inside
  injection mark with equal
  omega

/-- Names of one scope with different bases are different. -/
theorem within_ne (scope : Nat) {left right : String}
    (differ : Text.ofString left ≠ Text.ofString right)
    : Name.within scope left ≠ Name.within scope right := by
  intro equal
  injection equal with _ bases
  exact differ bases

/-- A value that a local of the fragment holds can be read. -/
theorem Fragment.holds_name {fragment : Fragment} {first last : Nat} {locals : Locals} {name : Name}
    {value : Value} (shape : fragment.value = .name name) (inside : Inside first last name)
    (held : locals.get? name = some (.value value))
    : fragment.Holds σ table first last locals (.ok value) := by
  intro later same
  rw [shape, Atom.eval, same name inside, held]
  rfl

/-- A run that starts after changes to the fragment's own names is a run from before them. -/
theorem FragmentRun.frame {fragment : Fragment} {first last : Nat} {before between : Locals}
    {meaning : Ending σ (Option Value)} {ending : Ending σ (Flow × Locals)}
    (changed : SameOutside first last before between)
    (run : FragmentRun table fragment first last between meaning ending)
    : FragmentRun table fragment first last before meaning ending := by
  cases run with
  | faulted fault scene => exact .faulted fault scene
  | failed after scene flag same => exact .failed after scene flag (changed.trans same)
  | matched after value scene flag holds same =>
      exact .matched after value scene flag holds (changed.trans same)
  | unreadable after fault scene flag holds same =>
      exact .unreadable after fault scene flag holds (changed.trans same)

/-- A fragment that declares names of its own and announces a parser simulates the announcement and
what follows it, if the rest of its code simulates what follows. -/
theorem simulates_announced {fragment : Fragment} {slot first last : Nat} {entry : Entry}
    {next : Parsing σ (Option Value)} (names : List Name) (rest : List Stmt)
    (shape : fragment.spliced = .declare names :: .enter slot :: rest)
    (bound : table[slot]? = some (.parser entry))
    (inside : ∀ name ∈ names, Inside first last name)
    (runs
      : ∀ (locals : Locals) (scene : Scene σ),
          FragmentRun table fragment first last locals (next scene)
            (runAll hook table locals rest scene))
    : Simulates hook table fragment first last (enter hook entry >>= fun _ => next) := by
  intro locals scene
  have announced {declared : Locals} : (Stmt.enter slot).run hook table declared
      = enter hook entry >>= fun _ => pure (.next, declared) := by
    rw [Stmt.run, bound]
  rw [shape, runAll_cons_of_next (.enter slot :: rest) (by rw [Stmt.run]; rfl)]
  cases entered : enter hook entry scene with
  | error fault later =>
      rw [run_bind_error entered,
        runAll_cons_of_fault rest (by rw [announced, run_bind_error entered])]
      exact .faulted fault later
  | ok _ later =>
      rw [run_bind_ok entered,
        runAll_cons_of_next rest (by rw [announced, run_bind_ok entered]; rfl)]
      exact (runs _ later).frame (SameOutside.declare locals inside)

-----------------------------------------------------------------------------------------
-- Parsers that read the cursor, and parsers from outside
-----------------------------------------------------------------------------------------

/-- A leaf and the call in its code read the cursor alike. -/
theorem reading_reads {grammar : Grammar H} {success value : String} {method : Method}
    {arguments : List Atom} (leaf : Reading table grammar success value method arguments)
    (hook : Hook σ)
    : ∃ read : Parsing σ (Option Text),
        grammar.meaning hook
          = (enter hook grammar.entry >>= fun _ => read >>= fun text => pure (text.map .text))
        ∧ method.call table arguments = read >>= fun text => pure (taken text) := by
  cases leaf with
  | literal id text ignoreCase =>
      exact ⟨takeText text ignoreCase, by rw [Grammar.meaning], rfl⟩
  | pattern id test min max bound =>
      exact ⟨takeWhile (H.accepts test) min max, by rw [Grammar.meaning], by
        rw [Method.call, bound]⟩

/-- A leaf has two different names. -/
theorem reading_names_ne {grammar : Grammar H} {success value : String} {method : Method}
    {arguments : List Atom} (leaf : Reading table grammar success value method arguments)
    : Text.ofString value ≠ Text.ofString success := by
  cases leaf <;> decide

/-- A leaf notes whether its call took anything. -/
theorem run_assign_notNull {locals : Locals} {name : Name} {text : Option Text} (target : Name)
    (scene : Scene σ) (held : locals.get? name = some (taken text))
    : (Stmt.assign target (.notNull (.name name))).run hook table locals scene
      = .ok (.next, locals.set target (.value (.flag text.isSome))) scene := by
  simp only [Stmt.run, Expr.eval, Atom.eval, held, pure_bind]
  cases text <;> rfl

/-- The code of a leaf does what the leaf means: it announces, calls, and notes whether anything
was taken. -/
theorem simulates_reading {grammar : Grammar H} {success value : String} {method : Method}
    {arguments : List Atom} {scope slot : Nat}
    (leaf : Reading table grammar success value method arguments)
    (bound : table[slot]? = some (.parser grammar.entry))
    : Simulates hook table (readingFragment scope slot success value method arguments)
        scope (scope + 1) (grammar.meaning hook) := by
  obtain ⟨read, meaning, call⟩ := reading_reads leaf hook
  have differ := within_ne scope (reading_names_ne leaf)
  have insideValue := inside_within value (Nat.lt_succ_self scope)
  have insideSuccess := inside_within success (Nat.lt_succ_self scope)
  rw [meaning]
  refine simulates_announced [.within scope success, .within scope value] _ rfl bound
    (by simp [insideSuccess, insideValue]) fun locals scene => ?_
  have assigned
      : (Stmt.assign (.within scope value) (.onCursor method arguments)).run hook table locals
        = read >>= fun text => pure (.next, locals.set (.within scope value) (taken text)) := by
    simp only [Stmt.run, Expr.eval, call, bind_assoc, pure_bind]
  cases took : read scene with
  | error fault later =>
      rw [run_bind_error took,
        runAll_cons_of_fault _ (by rw [assigned, run_bind_error took])]
      exact .faulted fault later
  | ok text later =>
      rw [run_bind_ok took, runAll_cons_of_next _ (by rw [assigned, run_bind_ok took]; rfl),
        runAll_cons_of_next _ (run_assign_notNull _ later (Locals.get?_set_self ..)), runAll]
      have changed := ((SameOutside.refl scope (scope + 1) locals).set insideValue
        (taken text)).set insideSuccess (.value (.flag text.isSome))
      cases text with
      | none => exact .failed _ later (Locals.get?_set_self ..) changed
      | some text =>
          refine .matched _ (.text text) later (Locals.get?_set_self ..) ?_ changed
          refine Fragment.holds_name rfl insideValue ?_
          rw [Locals.get?_set_of_ne _ _ differ, Locals.get?_set_self]
          rfl

/-- A value that a record of the fragment holds can be read, unless the record is unset. -/
theorem Fragment.holds_valueOf {fragment : Fragment} {first last : Nat} {locals : Locals}
    {name : Name} {record : MatchRecord} (shape : fragment.value = .valueOf name)
    (inside : Inside first last name) (held : locals.get? name = some (.record record))
    : fragment.Holds σ table first last locals (record.read.map (·.value)) := by
  intro later same
  rw [shape, Atom.eval, same name inside, held]
  cases record <;> rfl

/-- The code of a parser from outside calls it with a new record, and keeps the record and the
verdict. -/
theorem runAll_foreign {id : Nat} {name : Text} {parser : H.Foreign} {scope maker self : Nat}
    (boundMaker : table[maker]? = some .recordMaker)
    (boundSelf : table[self]? = some (.foreign ⟨id, name⟩ parser)) (locals : Locals)
    : let success := Name.within scope "delegateSuccess"
      let record := Name.within scope "delegateResult"
      let fresh := (locals.declare [success, record]).set record (.record none)
      runAll hook table locals (foreignFragment scope maker self).spliced
      = onRecord none ((H.conduct parser ⟨id, name⟩).run hook) >>= fun (matched, own) =>
          pure (.next, (fresh.set record (.record own)).set success (.value (.flag matched))) := by
  intro success record fresh
  have made (scene : Scene σ)
      : (Stmt.assign record (.newRecord maker)).run hook table (locals.declare [success, record]) scene
        = .ok (.next, fresh) scene := by
    simp only [Stmt.run, Expr.eval, boundMaker]
    rfl
  change runAll hook table locals
    [ .declare [success, record],
      .assign record (.newRecord maker),
      .assign success (.parse self record) ] = _
  funext scene
  rw [runAll_cons_of_next _ (by rw [Stmt.run]; rfl), runAll_cons_of_next _ (made scene)]
  simp only [runAll, Stmt.run, Expr.eval, boundSelf, fresh, Locals.get?_set_self, bind_assoc, pure_bind]

/-- The fragment of a parser from outside simulates what the parser yields. -/
theorem simulates_foreign {id : Nat} {name : Text} {parser : H.Foreign} {scope maker self : Nat}
    (boundMaker : table[maker]? = some .recordMaker)
    (boundSelf : table[self]? = some (.foreign ⟨id, name⟩ parser))
    : Simulates hook table (foreignFragment scope maker self)
        scope (scope + 1) (yield ((H.conduct parser ⟨id, name⟩).run hook)) := by
  intro locals scene
  let success := Name.within scope "delegateSuccess"
  let record := Name.within scope "delegateResult"
  let work := (H.conduct parser ⟨id, name⟩).run hook
  let fresh := (locals.declare [success, record]).set record (.record none)
  have insideSuccess : Inside scope (scope + 1) success := inside_within _ (Nat.lt_succ_self scope)
  have insideRecord : Inside scope (scope + 1) record := inside_within _ (Nat.lt_succ_self scope)
  have differ : record ≠ success := within_ne scope (by decide)
  have changed (own : MatchRecord) (matched : Bool)
      : SameOutside scope (scope + 1) locals
          ((fresh.set record (.record own)).set success (.value (.flag matched))) := by
    have declared : SameOutside scope (scope + 1) locals (locals.declare [success, record]) :=
      SameOutside.declare locals (by simp [insideSuccess, insideRecord])
    exact ((declared.set insideRecord _).set insideRecord _).set insideSuccess _
  rw [runAll_foreign boundMaker boundSelf]
  cases ended : work { scene with record := none } with
  | error fault later =>
      have own : onRecord none work scene = .error fault { later with record := scene.record } := by
        simp only [onRecord, ended]
      rw [yield_of_faulted scene ended, run_bind_error own]
      exact .faulted ..
  | ok matched later =>
      obtain ⟨cursor, left, notes⟩ := later
      have own : onRecord none work scene = .ok (matched, left) ⟨cursor, scene.record, notes⟩ := by
        simp only [onRecord, ended]
      rw [run_bind_ok own]
      have held : ((fresh.set record (.record left)).set success (.value (.flag matched))).get? record
          = some (.record left) := by
        rw [Locals.get?_set_of_ne _ _ differ, Locals.get?_set_self]
      cases matched with
      | false =>
          rw [yield_of_failed scene ended]
          exact .failed _ _ (Locals.get?_set_self ..) (changed left false)
      | true =>
          cases left with
          | none =>
              rw [yield_of_unset scene ended]
              exact .unreadable _ _ _ (Locals.get?_set_self ..)
                (Fragment.holds_valueOf rfl insideRecord held) (changed none true)
          | some found =>
              rw [yield_of_matched scene ended]
              exact .matched _ _ _ (Locals.get?_set_self ..)
                (Fragment.holds_valueOf rfl insideRecord held) (changed (some found) true)

-----------------------------------------------------------------------------------------
-- Conversions of a fragment's value
-----------------------------------------------------------------------------------------

/-- An expression that converts the value of a fragment: it gives the converted value, or the fault
of reading or converting it, as long as the fragment's own names are left alone. -/
def Evaluates (hook : Hook σ) (table : List (Constant H)) (first last : Nat) (locals : Locals)
    (expression : Expr) (result : Except Fault Value) : Prop :=
  ∀ later : Locals,
    (∀ name, Inside first last name → later.get? name = locals.get? name)
    → expression.eval hook table later
      = ofResult result >>= fun value => pure (.value value, later)

/-- A call of a conversion converts the value that a fragment holds. -/
theorem evaluates_call {fragment : Fragment} {first last slot : Nat} {locals : Locals}
    {result : Except Fault Value} {conversion : Conversion H}
    (bound : table[slot]? = some (.conversion conversion))
    (holds : fragment.Holds σ table first last locals result)
    : Evaluates hook table first last locals (.call slot fragment.value)
        (result >>= conversion.apply) := by
  intro later same
  have read : fragment.value.evalValue table later = (ofResult result : Parsing σ Value) := by
    rw [Atom.evalValue, holds later same]
    cases result <;> rfl
  simp only [Expr.eval, bound, read]
  cases result <;> rfl

/-- The code of a conversion converts the value that a fragment holds. -/
theorem evaluates_converted {fragment : Fragment} {first last : Nat} {locals : Locals}
    {result : Except Fault Value} {conversion : Conversion H} {expression : Expr}
    (converted : Converted table fragment.value conversion expression)
    (holds : fragment.Holds σ table first last locals result)
    : Evaluates hook table first last locals expression (result >>= conversion.apply) := by
  cases converted with
  | given bound => exact evaluates_call bound holds
  | identity =>
      intro later same
      simp only [Expr.eval, holds later same]
      cases result <;> rfl

/-- After a match the code notes the success and then the converted value, unless there is a fault in
reading or converting it. -/
theorem runAll_note_match {first last : Nat} {locals : Locals} {expression : Expr}
    {result : Except Fault Value}
    (evaluates : Evaluates hook table first last locals expression result)
    {success : Name} (outside : ¬ Inside first last success) (value : Name) (rest : List Stmt)
    : runAll hook table locals
          (.assign success (.atom (.flag true)) :: .assign value expression :: rest)
      = ofResult result >>= fun converted =>
          runAll hook table
            ((locals.set success (.value (.flag true))).set value (.value converted)) rest := by
  have evaluated := evaluates (locals.set success (.value (.flag true))) fun name inside =>
    Locals.get?_set_of_ne locals _ fun equal => outside (equal ▸ inside)
  funext scene
  rw [runAll_cons_of_next _ (by rw [Stmt.run, Expr.eval]; rfl)]
  cases result with
  | ok converted => exact runAll_cons_of_next rest (by rw [Stmt.run, evaluated]; rfl)
  | error fault => exact runAll_cons_of_fault rest (by rw [Stmt.run, evaluated]; rfl)

/-- Code that runs a fragment and converts its value follows the conversion of what the fragment
simulates: it stops with the same fault, or goes on where there was no match, or goes on with the
match noted. -/
theorem converting_cases {fragment : Fragment} {first last : Nat}
    {meaning : Parsing σ (Option Value)} {conversion : Conversion H} {expression : Expr}
    (simulates : Simulates hook table fragment first last meaning)
    (converts
      : ∀ locals result,
          fragment.Holds σ table first last locals result
          → Evaluates hook table first last locals expression (result >>= conversion.apply))
    {success : Name} (outside : ¬ Inside first last success) (value : Name)
    (yes no rest : List Stmt) (locals : Locals) (scene : Scene σ)
    : (∃ fault later,
        converted conversion meaning scene = .error fault later
        ∧ runAll hook table locals (fragment.converting success value expression yes no rest) scene
          = .error fault later)
      ∨ (∃ after later,
          converted conversion meaning scene = .ok none later
          ∧ SameOutside first last locals after
          ∧ runAll hook table locals (fragment.converting success value expression yes no rest) scene
            = runAll hook table after (no ++ rest) later)
      ∨ (∃ after found later,
          converted conversion meaning scene = .ok (some found) later
          ∧ SameOutside first last locals after
          ∧ runAll hook table locals (fragment.converting success value expression yes no rest) scene
            = runAll hook table
                ((after.set success (.value (.flag true))).set value (.value found))
                (yes ++ rest) later) := by
  have run := simulates locals scene
  rw [converted]
  generalize ended : meaning scene = ending at run
  generalize ran : runAll hook table locals fragment.spliced scene = result at run
  cases run with
  | faulted fault later =>
      exact .inl ⟨fault, later, run_bind_error ended, runAll_append_of_fault _ ran⟩
  | failed after later flag same =>
      refine .inr (.inl ⟨after, later, run_bind_ok ended, same, ?_⟩)
      rw [Fragment.converting, runAll_append_of_next _ ran, runAll_branch _ _ _ flag]
      rfl
  | unreadable after fault later flag holds same =>
      refine .inl ⟨fault, later, run_bind_error ended, ?_⟩
      rw [Fragment.converting, runAll_append_of_next _ ran, runAll_branch _ _ _ flag]
      exact congrFun (runAll_note_match (converts after _ holds) outside value (yes ++ rest)) later
  | matched after found later flag holds same =>
      have continued
          : runAll hook table locals (fragment.converting success value expression yes no rest) scene
            = (ofResult (conversion.apply found) >>= fun converted =>
                runAll hook table
                  ((after.set success (.value (.flag true))).set value (.value converted))
                  (yes ++ rest)) later := by
        rw [Fragment.converting, runAll_append_of_next _ ran, runAll_branch _ _ _ flag]
        exact congrFun (runAll_note_match (converts after _ holds) outside value (yes ++ rest)) later
      rw [run_bind_ok ended, continued]
      dsimp only
      cases conversion.apply found with
      | error fault => exact .inl ⟨fault, later, rfl, rfl⟩
      | ok result => exact .inr (.inr ⟨after, result, later, rfl, same, rfl⟩)

/-- The fragment of a mapped grammar simulates it if the fragment of its source does. -/
theorem simulates_map {id : Nat} {source : Grammar H} {transform : Conversion H} {inner : Fragment}
    {scope last slot function : Nat} (above : scope < last)
    (simulates : Simulates hook table inner (scope + 1) last (source.meaning hook))
    (bound : table[slot]? = some (.parser (Grammar.map id source transform).entry))
    (boundFunction : table[function]? = some (.conversion transform))
    : Simulates hook table (mapFragment scope slot function inner)
        scope last ((Grammar.map id source transform).meaning hook) := by
  have insideSuccess := inside_within "thenSuccess" above
  have insideValue := inside_within "thenValue" above
  have outside : ¬ Inside (scope + 1) last (.within scope "thenSuccess") :=
    not_inside_within _ (Nat.lt_succ_self scope)
  have differ : Name.within scope "thenSuccess" ≠ Name.within scope "thenValue" :=
    within_ne scope (by decide)
  rw [Grammar.meaning]
  let no : List Stmt := [.assign (.within scope "thenSuccess") (.atom (.flag false))]
  refine simulates_announced [.within scope "thenSuccess", .within scope "thenValue"] _ rfl bound
    (by simp [insideSuccess, insideValue]) fun locals scene => ?_
  have cases := converting_cases simulates (fun _ _ => evaluates_call boundFunction) outside
    (.within scope "thenValue") [] no [] locals scene
  obtain ⟨fault, later, ended, ran⟩ | ⟨after, later, ended, same, ran⟩
    | ⟨after, found, later, ended, same, ran⟩ := cases
  · rw [ended, ran]
    exact .faulted fault later
  · have changed := same.mono (Nat.le_succ scope) (Nat.le_refl last)
    rw [ended, ran]
    exact .failed _ later (Locals.get?_set_self ..) (changed.set insideSuccess _)
  · have changed := same.mono (Nat.le_succ scope) (Nat.le_refl last)
    have flag := Locals.get?_set_of_ne (after.set (.within scope "thenSuccess") (.value (.flag true)))
      (.value found) differ
    rw [ended, ran]
    refine .matched _ found later (flag.trans (Locals.get?_set_self ..)) ?_
      ((changed.set insideSuccess _).set insideValue _)
    exact Fragment.holds_name rfl insideValue (Locals.get?_set_self ..)

-----------------------------------------------------------------------------------------
-- Choices
-----------------------------------------------------------------------------------------

/-- The code of a choice without alternatives announces it and fails. -/
theorem simulates_empty {id scope slot : Nat}
    (bound : table[slot]? = some (.parser (Grammar.oneOf id [] : Grammar H).entry))
    : Simulates hook table (emptyFragment scope slot)
        scope (scope + 1) ((Grammar.oneOf id [] : Grammar H).meaning hook) := by
  have insideSuccess := inside_within "orSuccess" (Nat.lt_succ_self scope)
  rw [Grammar.meaning]
  refine simulates_announced [.within scope "orSuccess"] _ rfl bound (by simp [insideSuccess])
    fun locals scene => ?_
  rw [run_position_bind, firstMeaning, runAll_cons_of_next _ (by rw [Stmt.run, Expr.eval]; rfl), runAll]
  exact .failed _ scene (Locals.get?_set_self ..)
    ((SameOutside.refl scope (scope + 1) locals).set insideSuccess _)

/-- How a run of the code of alternatives ends when the meaning of the alternatives ends in a given
way: a match leaves the choice at once. -/
inductive ChoiceRun (choice : Emit.Choice) (first last : Nat) (before : Locals)
    : Ending σ (Option Value) → Ending σ (Flow × Locals) → Prop
  | faulted (fault : Fault) (scene : Scene σ)
    : ChoiceRun choice first last before (.error fault scene) (.error fault scene)
  | failed (after : Locals) (scene : Scene σ)
    (flag : after.get? choice.success = some (.value (.flag false)))
    (same : SameOutside first last before after)
    : ChoiceRun choice first last before (.ok none scene) (.ok (.next, after) scene)
  | matched (after : Locals) (value : Value) (scene : Scene σ)
    (flag : after.get? choice.success = some (.value (.flag true)))
    (held : after.get? choice.value = some (.value value))
    (same : SameOutside first last before after)
    : ChoiceRun choice first last before (.ok (some value) scene)
        (.ok (.leave choice.label, after) scene)

/-- A run of alternatives that starts after changes to the choice's own names is a run from before
them. -/
theorem ChoiceRun.frame {choice : Emit.Choice} {first last : Nat} {before between : Locals}
    {meaning : Ending σ (Option Value)} {ending : Ending σ (Flow × Locals)}
    (changed : SameOutside first last before between)
    (run : ChoiceRun choice first last between meaning ending)
    : ChoiceRun choice first last before meaning ending := by
  cases run with
  | faulted fault scene => exact .faulted fault scene
  | failed after scene flag same => exact .failed after scene flag (changed.trans same)
  | matched after value scene flag held same =>
      exact .matched after value scene flag held (changed.trans same)

/-- Returning to the start of a choice moves the cursor to the position that its local holds. -/
theorem runAll_moveTo {name : Name} {start : Position} {locals : Locals} (rest : List Stmt)
    (held : locals.get? name = some (.position start))
    : runAll hook table locals (.moveTo (.name name) :: rest)
      = returnTo start >>= fun _ => runAll hook table locals rest := by
  simp only [runAll, Stmt.run, Atom.evalPosition, Atom.eval, held, bind_assoc, pure_bind]
  rfl

/-- The code of alternatives tries them in order from the start of their choice, by induction on the
alternatives. -/
theorem runAll_alternatives {scope slot last : Nat} {start : Position}
    (alternatives : List (EmittedAlternative H))
    (each
      : ∀ a ∈ alternatives,
          a.first < a.last
          ∧ Simulates hook table a.fragment a.first a.last (a.grammar.meaning hook)
          ∧ Converted table a.fragment.value a.conversion a.converted)
    {first : Nat} (later : scope < first) (consecutive : Consecutive first alternatives last)
    {locals : Locals}
    (held : locals.get? (Emit.Choice.within scope slot).start = some (.position start))
    (scene : Scene σ)
    : ChoiceRun (.within scope slot) scope last locals
        (firstMatch hook start (alternatives.map fun a => (a.grammar, a.conversion)) scene)
        (runAll hook table locals
          (alternatives.flatMap (·.code (.within scope slot))
            ++ [.assign (Emit.Choice.within scope slot).success (.atom (.flag false))])
          scene) := by
  induction alternatives generalizing first locals scene with
  | nil =>
      have above : scope < last := Nat.lt_of_lt_of_le later (Nat.le_of_eq consecutive)
      rw [List.map_nil, firstMatch, List.flatMap_nil, List.nil_append,
        runAll_cons_of_next _ (by rw [Stmt.run, Expr.eval]; rfl), runAll]
      exact .failed _ scene (Locals.get?_set_self ..)
        ((SameOutside.refl scope last locals).set (inside_within _ above) _)
  | cons a rest ih =>
      obtain ⟨starts, restConsecutive⟩ := consecutive
      obtain ⟨above, simulates, conversion⟩ := each a (by simp)
      have eachRest := fun b member => each b (List.mem_cons_of_mem a member)
      have below : a.last ≤ last :=
        consecutive_le (fun b member => (eachRest b member).1) restConsecutive
      have outside (base : String) : ¬ Inside a.first a.last (.within scope base) :=
        not_inside_within base (by omega)
      let choice := Emit.Choice.within scope slot
      let more := rest.flatMap (·.code choice) ++ [.assign choice.success (.atom (.flag false))]
      have shape : (a :: rest).flatMap (·.code choice)
            ++ [.assign choice.success (.atom (.flag false))]
          = a.fragment.converting choice.success choice.value a.converted [.leave choice.label] []
              (.moveTo (.name choice.start) :: more) := by
        simp [EmittedAlternative.code, Fragment.converting, more]
      have outsideSuccess : ¬ Inside a.first a.last choice.success := outside "orSuccess"
      have cases := converting_cases simulates (fun _ _ => evaluates_converted conversion)
        outsideSuccess choice.value [.leave choice.label] []
        (.moveTo (.name choice.start) :: more) locals scene
      rw [List.map_cons, firstMatch, shape]
      obtain ⟨fault, after, ended, ran⟩ | ⟨after, between, ended, same, ran⟩
        | ⟨after, found, between, ended, same, ran⟩ := cases
      · rw [orReturn_of_faulted _ ended, ran]
        exact .faulted fault after
      · have changed : SameOutside scope last locals after := same.mono (by omega) below
        have stillHeld : after.get? choice.start = some (.position start) :=
          (same _ (outside "orStart")).trans held
        rw [orReturn_of_failed _ ended, ran, List.nil_append, runAll_moveTo more stillHeld]
        cases moved : returnTo start between with
        | error fault stopped =>
            rw [run_bind_error moved, run_bind_error moved]
            exact .faulted fault stopped
        | ok _ returned =>
            rw [run_bind_ok moved, run_bind_ok moved]
            exact (ih eachRest (by omega) restConsecutive stillHeld returned).frame changed
      · have changed : SameOutside scope last locals after := same.mono (by omega) below
        have insideSuccess : Inside scope last choice.success := inside_within _ (by omega)
        have insideValue : Inside scope last choice.value := inside_within _ (by omega)
        have differ : choice.success ≠ choice.value := within_ne scope (by decide)
        rw [orReturn_of_matched _ ended, ran]
        refine .matched _ found between ?_ (Locals.get?_set_self ..)
          ((changed.set insideSuccess _).set insideValue _)
        rw [Locals.get?_set_of_ne _ _ differ, Locals.get?_set_self]

/-- The fragment of a choice simulates it if the fragments of its alternatives simulate them. -/
theorem simulates_choice {grammar : Grammar H} {alternatives : List (EmittedAlternative H)}
    {scope last slot : Nat}
    (choices : grammar.choices? = some (alternatives.map fun a => (a.grammar, a.conversion)))
    (bound : table[slot]? = some (.parser grammar.entry))
    (each
      : ∀ a ∈ alternatives,
          a.first < a.last
          ∧ Simulates hook table a.fragment a.first a.last (a.grammar.meaning hook)
          ∧ Converted table a.fragment.value a.conversion a.converted)
    (consecutive : Consecutive (scope + 1) alternatives last)
    : Simulates hook table
        ((Emit.Choice.within scope slot).fragment
          (alternatives.flatMap (·.code (.within scope slot))))
        scope last (grammar.meaning hook) := by
  let choice := Emit.Choice.within scope slot
  have above : scope < last := consecutive_le (fun a member => (each a member).1) consecutive
  have insideSuccess : Inside scope last choice.success := inside_within _ above
  have insideValue : Inside scope last choice.value := inside_within _ above
  have insideStart : Inside scope last choice.start := inside_within _ above
  rw [Grammar.meaning_choice hook choices]
  refine simulates_announced [choice.success, choice.value, choice.start] _ rfl bound
    (by simp [insideSuccess, insideValue, insideStart]) fun locals scene => ?_
  have changed := (SameOutside.refl scope last locals).set insideStart
    (.position scene.cursor.position)
  have run := runAll_alternatives alternatives each (Nat.lt_succ_self scope) consecutive
    (Locals.get?_set_self locals choice.start (.position scene.cursor.position)) scene
  rw [run_position_bind, runAll_cons_of_next _ (by rw [Stmt.run, Expr.eval]; rfl)]
  generalize ended : firstMatch hook scene.cursor.position _ scene = ending at run ⊢
  generalize ran : runAll hook table _ _ scene = result at run
  cases run with
  | faulted fault later =>
      rw [runAll_cons_of_fault _ (by rw [Stmt.run, run_bind_error ran])]
      exact .faulted fault later
  | failed after later flag same =>
      rw [runAll_cons_of_next _ (by rw [Stmt.run, run_bind_ok ran]; rfl), runAll]
      exact .failed after later flag (changed.trans same)
  | matched after value later flag held same =>
      rw [runAll_cons_of_next _ (run_block_of_leave ran), runAll]
      exact .matched after value later flag (Fragment.holds_name rfl insideValue held)
        (changed.trans same)

-----------------------------------------------------------------------------------------
-- Whole grammars and whole programs
-----------------------------------------------------------------------------------------

/-- A run that changes names of a range changes names of a wider one. -/
theorem FragmentRun.mono {fragment : Fragment} {outer first last : Nat} {before : Locals}
    {meaning : Ending σ (Option Value)} {ending : Ending σ (Flow × Locals)} (low : outer ≤ first)
    (run : FragmentRun table fragment first last before meaning ending)
    : FragmentRun table fragment outer last before meaning ending := by
  have more {name : Name} (inside : Inside first last name) : Inside outer last name :=
    inside.mono low (Nat.le_refl last)
  cases run with
  | faulted fault scene => exact .faulted fault scene
  | failed after scene flag same => exact .failed after scene flag (same.mono low (Nat.le_refl last))
  | matched after value scene flag holds same =>
      exact .matched after value scene flag
        (fun later kept => holds later fun name inside => kept name (more inside))
        (same.mono low (Nat.le_refl last))
  | unreadable after fault scene flag holds same =>
      exact .unreadable after fault scene flag
        (fun later kept => holds later fun name inside => kept name (more inside))
        (same.mono low (Nat.le_refl last))

end Code

open Code Parsing

variable {H : Host} {σ : Type} {table : List (Constant H)}

/-- Emitted code does what its grammar means. Witness: induction on what was emitted. -/
theorem Emitted.simulates {grammar : Grammar H} {first last : Nat} {fragment : Fragment}
    (emitted : Emitted table grammar first last fragment) (hook : Hook σ)
    : Simulates hook table fragment first last (grammar.meaning hook) := by
  induction emitted with
  | reading leaf bound => exact simulates_reading leaf bound
  | map emitted bound boundFunction ih =>
      exact simulates_map (Nat.lt_of_succ_lt emitted.lt) ih bound boundFunction
  | empty bound => exact simulates_empty bound
  | choice choices nonempty bound each conversions consecutive ih =>
      refine simulates_choice choices bound (fun a member => ?_) consecutive
      exact ⟨(each a member).lt, ih a member, conversions a member⟩
  | staged emitted ih =>
      rw [Grammar.meaning]
      exact fun locals scene => (ih locals scene).mono (Nat.le_succ _)
  | foreign boundMaker boundSelf =>
      rw [Grammar.meaning]
      exact simulates_foreign boundMaker boundSelf

/-- The code of a whole program answers with the report of what its fragment simulates. -/
theorem answer_framed {hook : Hook σ} {fragment : Fragment} {last : Nat}
    {meaning : Parsing σ (Option Value)}
    (simulates : Simulates hook table fragment 0 last meaning)
    : answer hook table fragment.framed
      = report meaning >>= fun matched => pure (.value (.flag matched)) := by
  funext scene
  let start := scene.cursor.position
  let locals : Locals := Locals.set [] .start (.position start)
  let finish : List Stmt :=
    [ .branch fragment.success
        [.report (.name .start) .position fragment.value, .answer (.flag true)] [],
      .answer (.flag false) ]
  have begun : runAll hook table [] fragment.framed scene
      = runAll hook table locals (fragment.spliced ++ finish) scene :=
    runAll_cons_of_next _ (by rw [Stmt.run]; rfl)
  have outside : ¬ Inside 0 last .start := by
    intro inside
    obtain ⟨scope, mark, _⟩ := inside
    cases mark
  have reported {after : Locals} {later : Scene σ} {value : Except Fault Value}
      (flag : after.get? fragment.success = some (.value (.flag true)))
      (holds : fragment.Holds σ table 0 last after value) (same : SameOutside 0 last locals after)
      : runAll hook table after finish later
        = (ofResult value >>= fun found =>
            write (some ⟨start, later.cursor.position, found⟩) >>= fun _ =>
              pure (.answer (.value (.flag true)), after)) later := by
    have started : after.get? .start = some (.position start) := same .start outside
    rw [runAll_branch _ _ _ flag]
    simp only [if_true, List.cons_append, List.nil_append, runAll, Stmt.run, Atom.evalPosition,
      Atom.evalValue, holds after fun _ _ => rfl]
    simp only [Atom.eval, started, pure_bind, bind_assoc, run_position_bind]
    cases value <;> rfl
  have run := simulates locals scene
  generalize ended : meaning scene = ending at run
  generalize ran : runAll hook table locals fragment.spliced scene = result at run
  rw [answer, report, bind_assoc, run_position_bind, bind_assoc]
  cases run with
  | faulted fault later =>
      rw [run_bind_error ended, run_bind_error (begun.trans (runAll_append_of_fault _ ran))]
  | failed after later flag same =>
      have refused : runAll hook table after finish later
          = .ok (.answer (.value (.flag false)), after) later := by
        rw [runAll_branch _ _ _ flag, if_neg Bool.false_ne_true, List.nil_append, runAll, Stmt.run]
        rfl
      rw [run_bind_ok ended,
        run_bind_ok (begun.trans ((runAll_append_of_next _ ran).trans refused))]
      rfl
  | matched after value later flag holds same =>
      rw [run_bind_ok ended, run_bind_ok
        (begun.trans ((runAll_append_of_next _ ran).trans (reported flag holds same)))]
      rfl
  | unreadable after fault later flag holds same =>
      rw [run_bind_error ended, run_bind_error
        (begun.trans ((runAll_append_of_next _ ran).trans (reported flag holds same)))]

/-- An unscripted grammar has a program, and running it reports what the grammar means. -/
theorem Grammar.program_reports {grammar : Grammar H} (unscripted : grammar.Unscripted)
    : ∃ program,
        grammar.program = .ok program
        ∧ ∀ (σ : Type) (hook : Hook σ) (parser : Text),
            program.run hook parser = report (grammar.meaning hook) := by
  obtain ⟨program, fragment, last, generated, code, emitted⟩ :=
    grammar.program_of_unscripted unscripted
  refine ⟨program, generated, fun σ hook parser => ?_⟩
  have answered := answer_framed (emitted.simulates hook)
  rw [Program.run, code, answered, bind_assoc]
  exact bind_pure (report (grammar.meaning hook))

/-- A staged parser reports what its source means. -/
theorem Grammar.parse_staged (id : Nat) {source : Grammar H} (unscripted : source.Unscripted)
    (hook : Hook σ)
    : (Grammar.staged id source true).parse hook = report (source.meaning hook) := by
  obtain ⟨program, generated, reports⟩ := program_reports unscripted
  rw [parse, generated]
  exact reports σ hook source.name

end StagedParser
