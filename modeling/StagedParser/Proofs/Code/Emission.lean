import StagedParser.Program
import StagedParser.Proofs.Grammar.Meaning

/-! What emission can produce, said once.
`Emitted table grammar first last fragment` describes the fragment of a grammar whose names come
from the scopes `first … last - 1` and whose slots hold their constants in `table`. An unscripted
grammar is always emitted so, on any workbench and for any later state of its table.
-/

namespace StagedParser

open Code

variable {H : Host} {α β : Type}

/-- The name with a base in the scope with a number. -/
def Name.within (scope : Nat) (base : String) : Name :=
  ⟨.inScope scope, Text.ofString base⟩

-----------------------------------------------------------------------------------------
-- Fragments of the kinds of grammars
-----------------------------------------------------------------------------------------

/-- How the parsers that read the cursor by one call make it: their names, the method, and its
arguments. -/
inductive Reading (table : List (Constant H))
    : Grammar H → String → String → Method → List Atom → Prop
  | literal (id : Nat) (text : Text) (ignoreCase : Bool)
    : Reading table (.literal id text ignoreCase) "litSuccess" "litValue" .takeText
        [.text text, .flag ignoreCase]
  | pattern (id : Nat) (test : H.Test) (min max : Nat) {slot : Nat}
    (bound : table[slot]? = some (.conversion (.given test)))
    : Reading table (.pattern id test min max) "patSuccess" "patValue" .takeWhile
        [.slot slot, .count min, .count max]

/-- The code of a conversion: none for the identity, and a call of any other function. -/
inductive Converted (table : List (Constant H)) (value : Atom) : Conversion H → Expr → Prop
  | identity : Converted table value .identity (.atom value)
  | given {function : H.Transform} {slot : Nat}
    (bound : table[slot]? = some (.conversion (.given function)))
    : Converted table value (.given function) (.call slot value)

/-- Code that runs a fragment and converts its value: a match is noted before what follows one. -/
def Code.Fragment.converting (fragment : Fragment) (success value : Name) (expression : Expr)
    (yes no rest : List Stmt) : List Stmt :=
  fragment.spliced ++
    .branch fragment.success
      (.assign success (.atom (.flag true)) :: .assign value expression :: yes) no :: rest

/-- What follows the code of a conversion belongs to the rest of it. -/
theorem Code.Fragment.converting_append (fragment : Fragment) (success value : Name)
    (expression : Expr) (yes no rest more : List Stmt)
    : fragment.converting success value expression yes no rest ++ more
      = fragment.converting success value expression yes no (rest ++ more) := by
  simp [converting]

/-- The fragment of a parser that reads the cursor by one call. -/
def readingFragment (scope slot : Nat) (success value : String) (method : Method)
    (arguments : List Atom) : Fragment where
  locals := [.within scope success, .within scope value]
  body :=
    [ .enter slot,
      .assign (.within scope value) (.onCursor method arguments),
      .assign (.within scope success) (.notNull (.name (.within scope value))) ]
  success := .within scope success
  value := .name (.within scope value)

def mapFragment (scope slot function : Nat) (inner : Fragment) : Fragment where
  locals := [.within scope "thenSuccess", .within scope "thenValue"]
  body := .enter slot ::
    inner.converting (.within scope "thenSuccess") (.within scope "thenValue")
      (.call function inner.value) [] [.assign (.within scope "thenSuccess") (.atom (.flag false))] []
  success := .within scope "thenSuccess"
  value := .name (.within scope "thenValue")

def emptyFragment (scope slot : Nat) : Fragment where
  locals := [.within scope "orSuccess"]
  body := [.enter slot, .assign (.within scope "orSuccess") (.atom (.flag false))]
  success := .within scope "orSuccess"
  value := .absent

def foreignFragment (scope maker self : Nat) : Fragment where
  locals := [.within scope "delegateSuccess", .within scope "delegateResult"]
  body :=
    [ .assign (.within scope "delegateResult") (.newRecord maker),
      .assign (.within scope "delegateSuccess") (.parse self (.within scope "delegateResult")) ]
  success := .within scope "delegateSuccess"
  value := .valueOf (.within scope "delegateResult")

/-- An alternative of a choice and the code that was emitted for it: its scopes, its fragment, and
the expression of its converted value. -/
structure EmittedAlternative (H : Host) where
  grammar : Grammar H
  conversion : Conversion H
  first : Nat
  last : Nat
  fragment : Fragment
  converted : Expr

def EmittedAlternative.code (choice : Emit.Choice) (alternative : EmittedAlternative H)
    : List Stmt :=
  alternative.fragment.converting choice.success choice.value alternative.converted
    [.leave choice.label] [] [.moveTo (.name choice.start)]

/-- The alternatives take the scopes from `first` to `last` one after another. -/
def Consecutive (first : Nat) : List (EmittedAlternative H) → (last : Nat) → Prop
  | [], last => first = last
  | alternative :: rest, last =>
    alternative.first = first ∧ Consecutive alternative.last rest last

/-- The names of a choice in a scope, announced by the constant in a slot. -/
def Emit.Choice.within (scope slot : Nat) : Emit.Choice where
  success := .within scope "orSuccess"
  value := .within scope "orValue"
  start := .within scope "orStart"
  label := .within scope "choice"
  entrance := .enter slot

/-- The fragment that a grammar is emitted as, in the scopes from `first` up to `last`. -/
inductive Emitted (table : List (Constant H)) : Grammar H → Nat → Nat → Fragment → Prop
  | reading {grammar : Grammar H} {success value : String} {method : Method}
    {arguments : List Atom} {scope slot : Nat}
    (leaf : Reading table grammar success value method arguments)
    (bound : table[slot]? = some (.parser grammar.entry))
    : Emitted table grammar scope (scope + 1)
        (readingFragment scope slot success value method arguments)
  | map {id : Nat} {source : Grammar H} {transform : Conversion H} {inner : Fragment}
    {scope last slot function : Nat}
    (emitted : Emitted table source (scope + 1) last inner)
    (bound : table[slot]? = some (.parser (Grammar.map id source transform).entry))
    (boundFunction : table[function]? = some (.conversion transform))
    : Emitted table (.map id source transform) scope last (mapFragment scope slot function inner)
  | empty {id scope slot : Nat}
    (bound : table[slot]? = some (.parser (Grammar.oneOf id [] : Grammar H).entry))
    : Emitted table (.oneOf id []) scope (scope + 1) (emptyFragment scope slot)
  | choice {grammar : Grammar H} {alternatives : List (EmittedAlternative H)}
    {scope last slot : Nat}
    (choices : grammar.choices? = some (alternatives.map fun a => (a.grammar, a.conversion)))
    (nonempty : alternatives ≠ [])
    (bound : table[slot]? = some (.parser grammar.entry))
    (each : ∀ a ∈ alternatives, Emitted table a.grammar a.first a.last a.fragment)
    (conversions : ∀ a ∈ alternatives, Converted table a.fragment.value a.conversion a.converted)
    (consecutive : Consecutive (scope + 1) alternatives last)
    : Emitted table grammar scope last
        ((Emit.Choice.within scope slot).fragment
          (alternatives.flatMap (·.code (.within scope slot))))
  | staged {id : Nat} {source : Grammar H} {generated : Bool} {fragment : Fragment}
    {scope last : Nat} (emitted : Emitted table source (scope + 1) last fragment)
    : Emitted table (.staged id source generated) scope last fragment
  | foreign {id : Nat} {name : Text} {parser : H.Foreign} {scope maker self : Nat}
    (boundMaker : table[maker]? = some .recordMaker)
    (boundSelf : table[self]? = some (.foreign ⟨id, name⟩ parser))
    : Emitted table (.foreign id name parser) scope (scope + 1) (foreignFragment scope maker self)

/-- Alternatives one after another do not go back to earlier scopes, by induction on the
alternatives. -/
theorem consecutive_le {alternatives : List (EmittedAlternative H)} {first last : Nat}
    (above : ∀ a ∈ alternatives, a.first < a.last)
    (consecutive : Consecutive first alternatives last)
    : first ≤ last := by
  induction alternatives generalizing first with
  | nil => exact Nat.le_of_eq consecutive
  | cons a rest ih =>
      obtain ⟨starts, restConsecutive⟩ := consecutive
      have aboveFirst := above a (by simp)
      have aboveRest := ih (fun b member => above b (List.mem_cons_of_mem a member)) restConsecutive
      omega

/-- A grammar takes at least one scope, by induction on what was emitted. -/
theorem Emitted.lt {table : List (Constant H)} {grammar : Grammar H} {first last : Nat}
    {fragment : Fragment}
    (emitted : Emitted table grammar first last fragment)
    : first < last := by
  induction emitted with
  | reading leaf bound => exact Nat.lt_succ_self _
  | map emitted bound boundFunction above => exact Nat.lt_of_succ_lt above
  | empty bound => exact Nat.lt_succ_self _
  | choice choices nonempty bound each conversions consecutive above =>
      exact consecutive_le above consecutive
  | staged emitted above => exact Nat.lt_of_succ_lt above
  | foreign boundMaker boundSelf => exact Nat.lt_succ_self _

-----------------------------------------------------------------------------------------
-- What a step of emission does to the workbench
-----------------------------------------------------------------------------------------

namespace Workbench

/-- A later state of a workbench: constants keep their slots, the same scopes are open, and more
scopes may have been opened and closed in between. -/
structure Extends (before after : Workbench H) : Prop where
  constants : before.constants <+: after.constants
  scopes : after.supply.scopes.map Name.Scope.id = before.supply.scopes.map Name.Scope.id
  scopeCount : before.supply.scopeCount ≤ after.supply.scopeCount
  looseCount : after.supply.looseCount = before.supply.looseCount

/-- A later state of a workbench on which no scope was opened in between. -/
structure Keeps (before after : Workbench H) : Prop where
  later : Extends before after
  scopeCount : after.supply.scopeCount = before.supply.scopeCount

/-- The innermost open scope has the given number, and it is the last one that was opened. -/
structure StandsIn (bench : Workbench H) (scope : Nat) : Prop where
  innermost : (bench.supply.scopes.map Name.Scope.id).head? = some scope
  latest : bench.supply.scopeCount = scope + 1

/-- A workbench extends itself. -/
theorem Extends.refl (bench : Workbench H) : bench.Extends bench :=
  ⟨List.prefix_refl _, rfl, Nat.le_refl _, rfl⟩

/-- What extends an extension extends the first. -/
theorem Extends.trans {first second third : Workbench H} (left : first.Extends second)
    (right : second.Extends third)
    : first.Extends third where
  constants := left.constants.trans right.constants
  scopes := right.scopes.trans left.scopes
  scopeCount := Nat.le_trans left.scopeCount right.scopeCount
  looseCount := right.looseCount.trans left.looseCount

/-- What keeps the scopes twice keeps them. -/
theorem Keeps.trans {first second third : Workbench H} (left : first.Keeps second)
    (right : second.Keeps third)
    : first.Keeps third :=
  ⟨left.later.trans right.later, right.scopeCount.trans left.scopeCount⟩

/-- The innermost scope stays the latest one while no scope is opened. -/
theorem StandsIn.keeps {before after : Workbench H} {scope : Nat} (stands : before.StandsIn scope)
    (kept : before.Keeps after)
    : after.StandsIn scope :=
  ⟨kept.later.scopes ▸ stands.innermost, kept.scopeCount.trans stands.latest⟩

end Workbench

/-- Two constants that share a slot are one, unless they are plain values. -/
theorem Constant.eq_of_same {left right : Constant H} (same : left.same right = true)
    (notPlain : ∀ constant, right ≠ .plain constant)
    : left = right := by
  cases left <;> cases right <;> simp_all [Constant.same]

/-- A longer table holds in a slot what the shorter one held. -/
theorem Constant.held_of_prefix {bound table : List (Constant H)} (extended : bound <+: table)
    {slot : Nat} {constant : Constant H} (held : bound[slot]? = some constant)
    : table[slot]? = some constant := by
  obtain ⟨more, rfl⟩ := extended
  obtain ⟨inside, _⟩ := List.getElem?_eq_some_iff.mp held
  rw [List.getElem?_append_left inside, held]

namespace Emit

/-- A step of emission on a workbench returns, and what it returns satisfies a condition together
with the later state. -/
def Yields (bench : Workbench H) (work : Emit H α) (post : α → Workbench H → Prop) : Prop :=
  ∃ value after, work bench = .ok value after ∧ post value after

/-- Giving back a value yields it. -/
theorem Yields.pure {bench : Workbench H} {value : α} {post : α → Workbench H → Prop}
    (holds : post value bench)
    : Yields bench (Pure.pure value) post :=
  ⟨value, bench, rfl, holds⟩

/-- Steps one after another yield what the last one does. -/
theorem Yields.bind {bench : Workbench H} {work : Emit H α} {next : α → Emit H β}
    {middle : α → Workbench H → Prop} {post : β → Workbench H → Prop}
    (first : Yields bench work middle)
    (each : ∀ value after, middle value after → Yields after (next value) post)
    : Yields bench (work >>= next) post := by
  obtain ⟨value, between, ran, holds⟩ := first
  obtain ⟨result, after, continued, done⟩ := each value between holds
  refine ⟨result, after, ?_, done⟩
  change EStateM.bind work next bench = _
  simp only [EStateM.bind, ran, continued]

/-- A name is taken from the innermost scope. -/
theorem declare_yields {bench : Workbench H} {scope : Nat} (stands : bench.StandsIn scope)
    {base : String} (valid : Name.isIdentifier (Text.ofString base) = true)
    : Yields bench (declare (Text.ofString base))
        fun name after => name = .within scope base ∧ bench.Keeps after := by
  have innermost := stands.innermost
  cases opened : bench.supply.scopes with
  | nil => simp [opened] at innermost
  | cons current outer =>
      have number : current.id = scope := by simpa [opened] using innermost
      refine ⟨_, _, by simp only [declare, Name.Supply.request, valid, opened]; rfl, ?_, ?_⟩
      · rw [number]
        rfl
      · exact ⟨⟨List.prefix_refl _, by simp [opened], Nat.le_refl _, rfl⟩, rfl⟩

/-- Most fragments start with two names from the innermost scope. -/
theorem declare_pair_yields {bench : Workbench H} {scope : Nat} (stands : bench.StandsIn scope)
    {base other : String} (valid : Name.isIdentifier (Text.ofString base) = true)
    (validOther : Name.isIdentifier (Text.ofString other) = true) {next : Name → Name → Emit H α}
    {post : α → Workbench H → Prop}
    (each
      : ∀ after,
          bench.Keeps after → Yields after (next (.within scope base) (.within scope other)) post)
    : Yields bench
        (do
          let first ← declare (Text.ofString base)
          let second ← declare (Text.ofString other)
          next first second)
        post := by
  refine (declare_yields stands valid).bind ?_
  intro first between taken
  obtain ⟨rfl, kept⟩ := taken
  refine (declare_yields (stands.keeps kept) validOther).bind ?_
  intro second after taken
  obtain ⟨rfl, keptOther⟩ := taken
  exact each after (kept.trans keptOther)

/-- Outside of all scopes a name is numbered by the requests before it. -/
theorem declare_loose_yields {bench : Workbench H} (closed : bench.supply.scopes = [])
    {base : String} (valid : Name.isIdentifier (Text.ofString base) = true)
    : Yields bench (declare (Text.ofString base)) fun name after =>
        name = ⟨.loose bench.supply.looseCount, Text.ofString base⟩
        ∧ after.constants = bench.constants := by
  let supply := { bench.supply with looseCount := bench.supply.looseCount + 1 }
  refine ⟨_, { bench with supply }, ?_, rfl, rfl⟩
  simp only [declare, Name.Supply.request, valid, closed, if_true, supply]

/-- A constant that is no plain value is found in its slot from then on. -/
theorem constant_yields (bench : Workbench H) (wanted : Constant H)
    (notPlain : ∀ constant, wanted ≠ .plain constant)
    : Yields bench (constant wanted) fun slot after =>
        bench.Keeps after ∧ ∀ table, after.constants <+: table → table[slot]? = some wanted := by
  cases found : bench.slot? wanted with
  | some slot =>
      refine ⟨slot, bench, by simp only [constant, found], ⟨.refl bench, rfl⟩, ?_⟩
      intro table extended
      rw [bench.slot?_eq] at found
      obtain ⟨inside, same, _⟩ := List.findIdx?_eq_some_iff_getElem.mp found
      have held : bench.constants[slot]? = some wanted := by
        rw [List.getElem?_eq_getElem inside, Constant.eq_of_same same notPlain]
      exact Constant.held_of_prefix extended held
  | none =>
      refine ⟨bench.constants.length, _, by simp only [constant, found]; rfl, ?_, ?_⟩
      · exact ⟨⟨List.prefix_append _ _, rfl, Nat.le_refl _, rfl⟩, rfl⟩
      · intro table extended
        exact Constant.held_of_prefix extended (by simp)

/-- The announcement of a parser names the slot of the parser. -/
theorem enter_yields (bench : Workbench H) (grammar : Grammar H)
    : Yields bench (enter grammar) fun statement after =>
        bench.Keeps after
        ∧ ∃ slot, statement = .enter slot
          ∧ ∀ table, after.constants <+: table → table[slot]? = some (.ofGrammar grammar) := by
  refine (constant_yields bench (.ofGrammar grammar) ?_).bind ?_
  · cases grammar <;> simp [Constant.ofGrammar]
  · intro slot after held
    obtain ⟨kept, bound⟩ := held
    exact .pure ⟨kept, slot, rfl, bound⟩

/-- The conversion of an operand is a call of its function, unless there is nothing to convert. -/
theorem convert_yields (bench : Workbench H) (value : Atom) (conversion : Conversion H)
    : Yields bench (convert value conversion) fun expression after =>
        bench.Keeps after
        ∧ ∀ table, after.constants <+: table → Converted table value conversion expression := by
  cases conversion with
  | identity => exact .pure ⟨⟨.refl bench, rfl⟩, fun _ _ => .identity⟩
  | given function =>
      refine (constant_yields bench _ (by simp)).bind ?_
      intro slot after held
      obtain ⟨kept, bound⟩ := held
      exact .pure ⟨kept, fun table extended => .given (bound table extended)⟩

/-- The names of a choice are taken from the innermost scope. -/
theorem beginChoice_yields {bench : Workbench H} {scope : Nat} (stands : bench.StandsIn scope)
    (grammar : Grammar H)
    : Yields bench (beginChoice grammar) fun choice after =>
        bench.Keeps after
        ∧ ∃ slot, choice = .within scope slot
          ∧ ∀ table, after.constants <+: table → table[slot]? = some (.ofGrammar grammar) := by
  refine declare_pair_yields stands (by decide) (by decide) fun bench₁ kept₁ => ?_
  refine (enter_yields bench₁ grammar).bind ?_
  intro announcement bench₂ announced
  obtain ⟨kept₂, slot, rfl, bound⟩ := announced
  have standing := stands.keeps (kept₁.trans kept₂)
  refine declare_pair_yields standing (by decide) (by decide) fun bench₃ kept₃ => ?_
  refine .pure ⟨(kept₁.trans kept₂).trans kept₃, slot, rfl, fun table extended => ?_⟩
  exact bound table (kept₃.later.constants.trans extended)

/-- Work in a scope of its own starts in the next scope and leaves the open scopes as they were. -/
theorem inScope_yields {bench : Workbench H} {work : Emit H α}
    (post : α → List (Constant H) → Nat → Prop)
    (inside
      : ∀ opened : Workbench H,
          opened.StandsIn bench.supply.scopeCount
          → Yields opened work fun value after =>
              opened.Extends after ∧ post value after.constants after.supply.scopeCount)
    : Yields bench (inScope work) fun value after =>
        bench.Extends after ∧ post value after.constants after.supply.scopeCount := by
  obtain ⟨value, after, ran, extended, holds⟩ :=
    inside { bench with supply := bench.supply.openScope } ⟨rfl, rfl⟩
  refine ⟨value, { after with supply := after.supply.returnTo bench.supply }, ?_, ?_, holds⟩
  · simp only [inScope, ran]
  exact {
    constants := extended.constants
    scopes := rfl
    scopeCount := Nat.le_trans (Nat.le_succ _) extended.scopeCount
    looseCount := extended.looseCount
  }

end Emit

-----------------------------------------------------------------------------------------
-- Every unscripted grammar is emitted
-----------------------------------------------------------------------------------------

/-- The code of the given choices in the scopes from `first` up to `last`, one alternative after
another. -/
def EmittedChoices (table : List (Constant H)) (choice : Emit.Choice)
    (choices : List (Grammar H × Conversion H)) (first last : Nat) (code : List Stmt) : Prop :=
  ∃ alternatives : List (EmittedAlternative H),
    choices = alternatives.map (fun a => (a.grammar, a.conversion))
    ∧ (∀ a ∈ alternatives, Emitted table a.grammar a.first a.last a.fragment)
    ∧ (∀ a ∈ alternatives, Converted table a.fragment.value a.conversion a.converted)
    ∧ Consecutive first alternatives last
    ∧ code = alternatives.flatMap (·.code choice)

/-- An alternative in front of emitted choices makes more of them. -/
theorem EmittedChoices.cons {table : List (Constant H)} {choice : Emit.Choice}
    {choices : List (Grammar H × Conversion H)} {last : Nat} {code : List Stmt}
    (alternative : EmittedAlternative H)
    (emitted
      : Emitted table alternative.grammar alternative.first alternative.last alternative.fragment)
    (converted
      : Converted table alternative.fragment.value alternative.conversion alternative.converted)
    (rest : EmittedChoices table choice choices alternative.last last code)
    : EmittedChoices table choice ((alternative.grammar, alternative.conversion) :: choices)
        alternative.first last (alternative.code choice ++ code) := by
  obtain ⟨alternatives, rfl, each, conversions, consecutive, rfl⟩ := rest
  refine ⟨alternative :: alternatives, rfl, ?_, ?_, ⟨rfl, consecutive⟩, rfl⟩
  · exact List.forall_mem_cons.mpr ⟨emitted, each⟩
  · exact List.forall_mem_cons.mpr ⟨converted, conversions⟩

/-- A grammar is emitted on every workbench, in whichever scope the workbench stands. -/
def Grammar.Emits (grammar : Grammar H) : Prop :=
  ∀ (bench : Workbench H) (scope : Nat),
    bench.StandsIn scope
    → Emit.Yields bench grammar.emit fun fragment after =>
        bench.Extends after
        ∧ ∀ table,
            after.constants <+: table
            → Emitted table grammar scope after.supply.scopeCount fragment

namespace Emit

/-- A grammar that is emitted is emitted in a scope of its own, the next one of the workbench. -/
theorem emit_inScope_yields {grammar : Grammar H} (emits : grammar.Emits) (bench : Workbench H)
    : Yields bench (inScope grammar.emit) fun fragment after =>
        bench.Extends after
        ∧ ∀ table,
            after.constants <+: table
            → Emitted table grammar bench.supply.scopeCount after.supply.scopeCount fragment :=
  inScope_yields
    (fun fragment constants last =>
      ∀ table, constants <+: table → Emitted table grammar bench.supply.scopeCount last fragment)
    fun opened stands => emits opened _ stands

/-- The code of choices is emitted alternative by alternative: what follows the first of them may
assume its code and goes on where it ended. -/
theorem alternative_yields {grammar : Grammar H} (emits : grammar.Emits) (choice : Choice)
    (conversion : Conversion H) (bench : Workbench H)
    : Yields bench (inScope grammar.emit >>= fun fragment => alternative choice fragment conversion)
        fun code after =>
          bench.Extends after
          ∧ ∀ table choices last more,
              after.constants <+: table
              → EmittedChoices table choice choices after.supply.scopeCount last more
              → EmittedChoices table choice ((grammar, conversion) :: choices)
                  bench.supply.scopeCount last (code ++ more) := by
  refine (emit_inScope_yields emits bench).bind ?_
  intro fragment bench₁ fragmentEmitted
  obtain ⟨extended, emitted⟩ := fragmentEmitted
  refine (convert_yields bench₁ fragment.value conversion).bind ?_
  intro expression bench₂ conversionEmitted
  obtain ⟨kept, converted⟩ := conversionEmitted
  refine .pure ⟨extended.trans kept.later, fun table choices last more later rest => ?_⟩
  rw [kept.scopeCount] at rest
  exact EmittedChoices.cons
    ⟨grammar, conversion, bench.supply.scopeCount, bench₁.supply.scopeCount, fragment, expression⟩
    (emitted table (kept.later.constants.trans later)) (converted table later) rest

/-- The alternatives of a choice are emitted one after another, by induction on the alternatives. -/
theorem emitAlternatives_yields (choice : Choice) (alternatives : List (Grammar H))
    (each : ∀ alternative ∈ alternatives, alternative.Emits) (bench : Workbench H)
    : Yields bench (emitAlternatives choice alternatives) fun code after =>
        bench.Extends after
        ∧ ∀ table,
            after.constants <+: table
            → EmittedChoices table choice (alternatives.map (·, .identity))
                bench.supply.scopeCount after.supply.scopeCount code := by
  induction alternatives generalizing bench with
  | nil =>
      rw [emitAlternatives]
      exact .pure ⟨.refl bench, fun _ _ => ⟨[], rfl, by simp, by simp, rfl, rfl⟩⟩
  | cons first rest ih =>
      have emits := each first (by simp)
      have restEmits : ∀ alternative ∈ rest, alternative.Emits := fun alternative member =>
        each alternative (List.mem_cons_of_mem _ member)
      rw [emitAlternatives, ← bind_assoc]
      refine (alternative_yields emits choice .identity bench).bind ?_
      intro code bench₁ firstEmitted
      obtain ⟨extended, emitted⟩ := firstEmitted
      refine (ih restEmits bench₁).bind ?_
      intro more bench₂ restEmitted
      obtain ⟨extendedRest, emittedRest⟩ := restEmitted
      refine .pure ⟨extended.trans extendedRest, fun table later => ?_⟩
      exact emitted table _ _ _ (extendedRest.constants.trans later) (emittedRest table later)

def emitPair (choice : Choice) (left right : Grammar H) (ofLeft ofRight : Conversion H)
    : Emit H (List Stmt) := do
  let first ← inScope left.emit >>= fun fragment => alternative choice fragment ofLeft
  let second ← inScope right.emit >>= fun fragment => alternative choice fragment ofRight
  return first ++ second

/-- Emitting two alternatives yields the code of a choice between them. -/
theorem emitPair_yields (choice : Choice) {left right : Grammar H} (emitsLeft : left.Emits)
    (emitsRight : right.Emits) (ofLeft ofRight : Conversion H) (bench : Workbench H)
    : Yields bench (emitPair choice left right ofLeft ofRight) fun code after =>
        bench.Extends after
        ∧ ∀ table,
            after.constants <+: table
            → EmittedChoices table choice [(left, ofLeft), (right, ofRight)]
                bench.supply.scopeCount after.supply.scopeCount code := by
  refine (alternative_yields emitsLeft choice ofLeft bench).bind ?_
  intro first bench₁ firstEmitted
  obtain ⟨extended₁, emitted₁⟩ := firstEmitted
  refine (alternative_yields emitsRight choice ofRight bench₁).bind ?_
  intro second bench₂ secondEmitted
  obtain ⟨extended₂, emitted₂⟩ := secondEmitted
  refine .pure ⟨extended₁.trans extended₂, fun table later => ?_⟩
  have last := emitted₂ table [] _ [] later ⟨[], rfl, by simp, by simp, rfl, rfl⟩
  rw [List.append_nil] at last
  exact emitted₁ table _ _ _ (extended₂.constants.trans later) last

/-- The fragment of a parser that reads the cursor by one call, whose arguments may bind
constants. -/
theorem reading_yields {bench : Workbench H} {scope : Nat} (stands : bench.StandsIn scope)
    (grammar : Grammar H) {success value : String} (method : Method)
    (validSuccess : Name.isIdentifier (Text.ofString success) = true)
    (validValue : Name.isIdentifier (Text.ofString value) = true)
    (parser : Constant.ofGrammar grammar = .parser grammar.entry) {arguments : Emit H (List Atom)}
    (bound
      : ∀ between : Workbench H,
          Yields between arguments fun atoms after =>
            between.Keeps after
            ∧ ∀ table,
                after.constants <+: table → Reading table grammar success value method atoms)
    : Yields bench
        (reading grammar (Text.ofString success) (Text.ofString value) method arguments)
        fun fragment after =>
          bench.Extends after
          ∧ ∀ table,
              after.constants <+: table
              → Emitted table grammar scope after.supply.scopeCount fragment := by
  refine declare_pair_yields stands validSuccess validValue fun bench₁ kept₁ => ?_
  refine (enter_yields bench₁ grammar).bind ?_
  intro announcement bench₂ announced
  obtain ⟨kept₂, slot, rfl, held⟩ := announced
  refine (bound bench₂).bind ?_
  intro atoms bench₃ given
  obtain ⟨kept₃, leaf⟩ := given
  have kept := (kept₁.trans kept₂).trans kept₃
  refine .pure ⟨kept.later, fun table later => ?_⟩
  rw [(stands.keeps kept).latest]
  exact .reading (leaf table later) (parser ▸ held table (kept₃.later.constants.trans later))

end Emit

open Emit

/-- A choice with at least one alternative is emitted if the code of its alternatives is, in the
scopes after its own. -/
theorem Grammar.choice_yields {grammar : Grammar H} {choices : List (Grammar H × Conversion H)}
    (found : grammar.choices? = some choices) (nonempty : choices ≠ [])
    (parser : Constant.ofGrammar grammar = .parser grammar.entry)
    {code : Choice → Emit H (List Stmt)} {bench : Workbench H} {scope : Nat}
    (stands : bench.StandsIn scope)
    (alternatives
      : ∀ (choice : Choice) (between : Workbench H),
          Yields between (code choice) fun statements after =>
            between.Extends after
            ∧ ∀ table,
                after.constants <+: table
                → EmittedChoices table choice choices between.supply.scopeCount
                    after.supply.scopeCount statements)
    : Yields bench (beginChoice grammar >>= fun choice => choice.fragment <$> code choice)
        fun fragment after =>
          bench.Extends after
          ∧ ∀ table,
              after.constants <+: table
              → Emitted table grammar scope after.supply.scopeCount fragment := by
  refine (beginChoice_yields stands grammar).bind ?_
  intro choice bench₁ begun
  obtain ⟨kept, slot, rfl, bound⟩ := begun
  rw [map_eq_pure_bind]
  refine (alternatives _ bench₁).bind ?_
  intro statements bench₂ alternativesEmitted
  obtain ⟨extended, emitted⟩ := alternativesEmitted
  refine .pure ⟨kept.later.trans extended, fun table later => ?_⟩
  obtain ⟨parts, rfl, each, conversions, consecutive, rfl⟩ := emitted table later
  rw [(stands.keeps kept).latest] at consecutive
  exact .choice found (by simpa using nonempty)
    (parser ▸ bound table (extended.constants.trans later)) each conversions consecutive

/-- Every unscripted grammar is emitted, by induction on the grammar. -/
theorem Grammar.emits_of_unscripted (grammar : Grammar H) (unscripted : grammar.Unscripted)
    : grammar.Emits := by
  induction grammar with
  | literal id text ignoreCase =>
      intro bench scope stands
      rw [emit]
      refine reading_yields stands _ .takeText (by decide) (by decide) rfl fun between => ?_
      exact .pure ⟨⟨.refl between, rfl⟩, fun _ _ => .literal id text ignoreCase⟩
  | pattern id test min max =>
      intro bench scope stands
      rw [emit]
      refine reading_yields stands _ .takeWhile (by decide) (by decide) rfl fun between => ?_
      refine (constant_yields between (.conversion (.given test)) (by simp)).bind ?_
      intro slot after held
      obtain ⟨kept, bound⟩ := held
      exact .pure ⟨kept, fun table later => .pattern id test min max (bound table later)⟩
  | map id source transform ih =>
      intro bench scope stands
      rw [emit]
      have emits := ih (unscripted.child mem_children_map)
      refine declare_pair_yields stands (by decide) (by decide) fun bench₁ kept₁ => ?_
      refine (emit_inScope_yields emits bench₁).bind ?_
      intro inner bench₂ innerEmitted
      obtain ⟨extended, emitted⟩ := innerEmitted
      refine (enter_yields bench₂ _).bind ?_
      intro announcement bench₃ announced
      obtain ⟨kept₃, slot, rfl, bound⟩ := announced
      refine (constant_yields bench₃ (.conversion transform) (by simp)).bind ?_
      intro function bench₄ held
      obtain ⟨kept₄, boundFunction⟩ := held
      refine .pure ⟨?_, fun table later => ?_⟩
      · exact (kept₁.later.trans extended).trans (kept₃.trans kept₄).later
      · have later₃ := kept₄.later.constants.trans later
        rw [(stands.keeps kept₁).latest] at emitted
        rw [(kept₃.trans kept₄).scopeCount]
        exact .map (emitted table (kept₃.later.constants.trans later₃)) (bound table later₃)
          (boundFunction table later)
  | oneOf id alternatives ih =>
      intro bench scope stands
      cases alternatives with
      | nil =>
          rw [emit]
          refine declare_pair_yields stands (by decide) (by decide) fun bench₁ kept₁ => ?_
          refine (enter_yields bench₁ _).bind ?_
          intro announcement bench₂ announced
          obtain ⟨kept₂, slot, rfl, bound⟩ := announced
          have kept := kept₁.trans kept₂
          refine .pure ⟨kept.later, fun table later => ?_⟩
          rw [(stands.keeps kept).latest]
          exact .empty (bound table later)
      | cons first rest =>
          rw [emit]
          · refine choice_yields rfl (by simp) rfl stands fun choice between => ?_
            refine emitAlternatives_yields choice (first :: rest) (fun alternative member => ?_) between
            exact ih alternative member (unscripted.child member)
          · simp
  | either id left right ofLeft ofRight ihLeft ihRight =>
      intro bench scope stands
      have emitsLeft := ihLeft (unscripted.child left_mem_children_either)
      have emitsRight := ihRight (unscripted.child right_mem_children_either)
      have shape
          : (Grammar.either id left right ofLeft ofRight).emit
            = beginChoice (.either id left right ofLeft ofRight) >>= fun choice =>
                choice.fragment <$> emitPair choice left right ofLeft ofRight := by
        simp only [emit, emitPair, map_eq_pure_bind, bind_assoc, pure_bind]
      rw [shape]
      refine choice_yields rfl (by simp) rfl stands fun choice between => ?_
      exact emitPair_yields choice emitsLeft emitsRight ofLeft ofRight between
  | staged id source generated ih =>
      intro bench scope stands
      rw [emit]
      have emitted := emit_inScope_yields (ih (unscripted.child mem_children_staged)) bench
      rw [stands.latest] at emitted
      obtain ⟨fragment, after, ran, extended, emitted⟩ := emitted
      exact ⟨fragment, after, ran, extended, fun table later => .staged (emitted table later)⟩
  | foreign id name parser =>
      intro bench scope stands
      rw [emit]
      refine declare_pair_yields stands (by decide) (by decide) fun bench₁ kept₁ => ?_
      refine (constant_yields bench₁ .recordMaker (by simp)).bind ?_
      intro maker bench₂ heldMaker
      obtain ⟨kept₂, boundMaker⟩ := heldMaker
      refine (constant_yields bench₂ _ (by simp [Constant.ofGrammar])).bind ?_
      intro self bench₃ heldSelf
      obtain ⟨kept₃, boundSelf⟩ := heldSelf
      have kept := (kept₁.trans kept₂).trans kept₃
      refine .pure ⟨kept.later, fun table later => ?_⟩
      rw [(stands.keeps kept).latest]
      exact .foreign (boundMaker table (kept₃.later.constants.trans later)) (boundSelf table later)
  | scripted id name emission =>
      exact absurd rfl (unscripted _ (self_mem_nodes _) id name emission)

/-- The name of the position where a run of a program starts. -/
def Name.start : Name :=
  ⟨.loose 0, Text.ofString "start"⟩

/-- The code of a whole program around the fragment of its grammar. -/
def Code.Fragment.framed (fragment : Fragment) : List Stmt :=
  .define .start .position :: fragment.spliced ++
    [ .branch fragment.success
        [.report (.name .start) .position fragment.value, .answer (.flag true)] [],
      .answer (.flag false) ]

/-- An unscripted grammar has a program, which frames the fragment that the grammar is emitted as on
an empty workbench. -/
theorem Grammar.program_of_unscripted (grammar : Grammar H) (unscripted : grammar.Unscripted)
    : ∃ program fragment last,
        grammar.program = .ok program
        ∧ program.code = fragment.framed
        ∧ Emitted program.table grammar 0 last fragment := by
  have generated : Yields {} grammar.code fun code after =>
      ∃ fragment last,
        code = fragment.framed ∧ Emitted after.constants grammar 0 last fragment := by
    refine (emit_inScope_yields (grammar.emits_of_unscripted unscripted) {}).bind ?_
    intro fragment bench₁ fragmentEmitted
    obtain ⟨extended, emitted⟩ := fragmentEmitted
    refine (declare_loose_yields (by simpa using extended.scopes) (by decide)).bind ?_
    intro name bench₂ taken
    obtain ⟨rfl, same⟩ := taken
    rw [extended.looseCount]
    exact .pure ⟨fragment, bench₁.supply.scopeCount, rfl, emitted _ (same ▸ List.prefix_refl _)⟩
  obtain ⟨_, bench, ran, fragment, last, rfl, emitted⟩ := generated
  refine ⟨⟨fragment.framed, bench.constants⟩, fragment, last, ?_, rfl, emitted⟩
  simp only [Grammar.program, ran]

end StagedParser
