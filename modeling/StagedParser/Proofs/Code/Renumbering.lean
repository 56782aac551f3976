import StagedParser.Proofs.Code.Emission
import StagedParser.Stock

/-! Code generated for grammars that hold staged ones.
A staged grammar inside another one is emitted as its source, within a scope that no name is taken
from. So the code of a grammar is that of the grammar without staging, with its scopes numbered anew,
and the two refer to the same constants.
-/

namespace StagedParser

open Code

variable {H : Host} {α β γ δ : Type}

-----------------------------------------------------------------------------------------
-- Code with its scopes numbered anew
-----------------------------------------------------------------------------------------

/-- A name with the number of its scope replaced. -/
def Name.renumber (number : Nat → Nat) (name : Name) : Name :=
  match name.mark with
  | .inScope scope => { name with mark := .inScope (number scope) }
  | .verbatim | .loose _ => name

namespace Code

def Atom.renumber (number : Nat → Nat) : Atom → Atom
  | .name held => .name (held.renumber number)
  | .valueOf record => .valueOf (record.renumber number)
  | atom => atom

def Expr.renumber (number : Nat → Nat) : Expr → Expr
  | .atom value => .atom (value.renumber number)
  | .newRecord slot => .newRecord slot
  | .parse slot record => .parse slot (record.renumber number)
  | .onCursor method arguments => .onCursor method (arguments.map (Atom.renumber number))
  | .call slot argument => .call slot (argument.renumber number)
  | .notNull value => .notNull (value.renumber number)

mutual

/-- A statement with the scopes of its names and labels numbered anew. -/
def Stmt.renumber (number : Nat → Nat) : Stmt → Stmt
  | .declare names => .declare (names.map (Name.renumber number))
  | .define name value => .define (name.renumber number) (value.renumber number)
  | .assign target value => .assign (target.renumber number) (value.renumber number)
  | .enter slot => .enter slot
  | .moveTo target => .moveTo (target.renumber number)
  | .block label body => .block (label.renumber number) (renumberAll number body)
  | .leave label => .leave (label.renumber number)
  | .branch condition yes no =>
    .branch (condition.renumber number) (renumberAll number yes) (renumberAll number no)
  | .report start stop value =>
    .report (start.renumber number) (stop.renumber number) (value.renumber number)
  | .answer value => .answer (value.renumber number)
  | .garbled target => .garbled (target.renumber number)

def renumberAll (number : Nat → Nat) : List Stmt → List Stmt
  | [] => []
  | first :: rest => first.renumber number :: renumberAll number rest

end

/-- Code is renumbered part by part, by induction on the first part. -/
theorem renumberAll_append (number : Nat → Nat) (code more : List Stmt)
    : renumberAll number (code ++ more) = renumberAll number code ++ renumberAll number more := by
  induction code with
  | nil => rfl
  | cons first rest ih => simp [renumberAll, ih]

def Fragment.renumber (number : Nat → Nat) (fragment : Fragment) : Fragment where
  locals := fragment.locals.map (Name.renumber number)
  body := renumberAll number fragment.body
  success := fragment.success.renumber number
  value := fragment.value.renumber number

/-- Renumbering a fragment renumbers the code it is spliced in as. -/
theorem Fragment.spliced_renumber (number : Nat → Nat) (fragment : Fragment)
    : (fragment.renumber number).spliced = renumberAll number fragment.spliced := by
  cases empty : fragment.locals with
  | nil => simp [spliced, renumber, empty]
  | cons first rest => simp [spliced, renumber, empty, renumberAll, Stmt.renumber]

end Code

/-- A program with the scopes of its names and labels numbered anew. -/
def Program.renumber (number : Nat → Nat) (program : Program H) : Program H :=
  { program with code := renumberAll number program.code }

def Emit.Choice.renumber (number : Nat → Nat) (choice : Choice) : Choice where
  success := choice.success.renumber number
  value := choice.value.renumber number
  start := choice.start.renumber number
  label := choice.label.renumber number
  entrance := choice.entrance.renumber number

-----------------------------------------------------------------------------------------
-- Scopes that are kept
-----------------------------------------------------------------------------------------

/-- Whether a scope is kept. The list says so of the first scopes; all further ones are. -/
def isKept (kept : List Bool) (scope : Nat) : Bool :=
  kept[scope]?.getD true

/-- How many scopes before a scope are kept. -/
def keptBefore : List Bool → Nat → Nat
  | [], scope => scope
  | _ :: _, 0 => 0
  | true :: rest, scope + 1 => keptBefore rest scope + 1
  | false :: rest, scope + 1 => keptBefore rest scope

/-- The kept scope with the given number of kept scopes before it. -/
def keptScope : List Bool → Nat → Nat
  | [], count => count
  | true :: _, 0 => 0
  | true :: rest, count + 1 => keptScope rest count + 1
  | false :: rest, count => keptScope rest count + 1

/-- No scope is kept before the first one. -/
theorem keptBefore_zero (kept : List Bool) : keptBefore kept 0 = 0 := by
  cases kept <;> rfl

/-- A scope that is kept counts, by the recursion of counting. -/
theorem keptBefore_succ_of_isKept {kept : List Bool} {scope : Nat} (isKept : isKept kept scope = true)
    : keptBefore kept (scope + 1) = keptBefore kept scope + 1 := by
  fun_induction keptBefore kept scope with
  | case1 scope => rfl
  | case2 first rest => cases first <;> simp_all [keptBefore, StagedParser.isKept, keptBefore_zero]
  | case3 rest scope ih => simpa [keptBefore] using ih isKept
  | case4 rest scope ih => simpa [keptBefore] using ih isKept

/-- A scope that is dropped does not count, by the recursion of counting. -/
theorem keptBefore_succ_of_dropped {kept : List Bool} {scope : Nat}
    (dropped : isKept kept scope = false)
    : keptBefore kept (scope + 1) = keptBefore kept scope := by
  fun_induction keptBefore kept scope with
  | case1 scope => cases dropped
  | case2 first rest => cases first <;> simp_all [keptBefore, isKept, keptBefore_zero]
  | case3 rest scope ih => simpa [keptBefore] using ih dropped
  | case4 rest scope ih => simpa [keptBefore] using ih dropped

/-- A kept scope is found again by the number of kept scopes before it, by induction on the scopes. -/
theorem keptScope_keptBefore {kept : List Bool} {scope : Nat} (isKept : isKept kept scope = true)
    : keptScope kept (keptBefore kept scope) = scope := by
  fun_induction keptBefore kept scope with
  | case1 scope => rfl
  | case2 first rest => cases first <;> simp_all [keptScope, StagedParser.isKept]
  | case3 rest scope ih => rw [keptScope, ih isKept]
  | case4 rest scope ih => rw [keptScope, ih isKept]

/-- Kept scopes stay in order, by induction on the scopes. -/
theorem keptScope_lt {kept : List Bool} {first second : Nat} (before : first < second)
    : keptScope kept first < keptScope kept second := by
  induction kept generalizing first second with
  | nil => exact before
  | cons head rest ih =>
      cases head with
      | false => exact Nat.succ_lt_succ (ih before)
      | true =>
          cases second with
          | zero => cases before
          | succ second =>
              cases first with
              | zero => exact Nat.succ_pos _
              | succ first => exact Nat.succ_lt_succ (ih (Nat.lt_of_succ_lt_succ before))

-----------------------------------------------------------------------------------------
-- Grammars without staging
-----------------------------------------------------------------------------------------

mutual

/-- A grammar with every staged grammar in it replaced by its source. All other nodes keep their
identities. -/
def Grammar.unstaged : Grammar H → Grammar H
  | .map id source transform => .map id source.unstaged transform
  | .oneOf id alternatives => .oneOf id (unstagedAll alternatives)
  | .either id left right ofLeft ofRight => .either id left.unstaged right.unstaged ofLeft ofRight
  | .staged _ source _ => source.unstaged
  | .literal id text ignoreCase => .literal id text ignoreCase
  | .pattern id test min max => .pattern id test min max
  | .foreign id name parser => .foreign id name parser
  | .scripted id name emission => .scripted id name emission

def unstagedAll : List (Grammar H) → List (Grammar H)
  | [] => []
  | first :: rest => first.unstaged :: unstagedAll rest

end

def Grammar.isStaged : Grammar H → Bool
  | .staged .. => true
  | _ => false

/-- A constant that no staged grammar would be bound as. -/
def Constant.IsBare (constant : Constant H) : Prop :=
  ∀ id source generated, constant ≠ .ofGrammar (.staged id source generated)

/-- The name of a staged grammar starts with a letter of its own. -/
theorem Constant.isBare_ofName (id : Nat) (name : Text)
    (other : name.head? ≠ (Text.ofString "Compiled(").head?)
    : (Constant.parser ⟨id, name⟩ : Constant H).IsBare := by
  intro id source generated same
  obtain ⟨rfl, rfl⟩ := Entry.mk.inj (Constant.parser.inj same)
  exact other rfl

/-- No grammar is bound as a staged one would be, unless it is staged itself or emits code of its
own: such a parser may have any name. -/
theorem Constant.isBare_ofGrammar (grammar : Grammar H) (unstaged : grammar.isStaged = false)
    (unscripted : ∀ id name emission, grammar ≠ .scripted id name emission)
    : (Constant.ofGrammar grammar).IsBare := by
  cases grammar with
  | literal id text ignoreCase =>
      have quoted : text.json.head? = some Text.quoteMark := rfl
      exact isBare_ofName id text.json (by rw [quoted]; decide)
  | pattern id test min max => exact isBare_ofName id (Text.ofString "PatternLiteral") (by decide)
  | map id source transform => exact isBare_ofName id (Text.ofString "Then") (by decide)
  | oneOf id alternatives => exact isBare_ofName id (Text.ofString "OneOf") (by decide)
  | either id left right ofLeft ofRight => exact isBare_ofName id (Text.ofString "OneOf2") (by decide)
  | staged id source generated => cases unstaged
  | foreign id name parser => exact fun _ _ _ same => by cases same
  | scripted id name emission => exact absurd rfl (unscripted id name emission)

/-- Nodes that open their scopes one after another keep them unless they are staged grammars. -/
def Marks (kept : List Bool) (next : Nat) (nodes : List (Grammar H)) : Prop :=
  ∀ index node, nodes[index]? = some node → isKept kept (next + index) = !node.isStaged

section Marks

variable {kept : List Bool} {next : Nat}

/-- The first mark tells whether the first node is staged. -/
theorem Marks.head {node : Grammar H} {rest : List (Grammar H)} (marks : Marks kept next (node :: rest))
    : isKept kept next = !node.isStaged :=
  marks 0 node rfl

/-- The later marks are those of the later nodes. -/
theorem Marks.tail {node : Grammar H} {rest : List (Grammar H)} (marks : Marks kept next (node :: rest))
    : Marks kept (next + 1) rest := by
  intro index other found
  rw [Nat.add_assoc, Nat.add_comm 1]
  exact marks (index + 1) other found

/-- Marks of appended nodes are marks of the first of them. -/
theorem Marks.left {nodes more : List (Grammar H)} (marks : Marks kept next (nodes ++ more))
    : Marks kept next nodes := by
  intro index node found
  obtain ⟨inside, _⟩ := List.getElem?_eq_some_iff.mp found
  exact marks index node (by rw [List.getElem?_append_left inside, found])

/-- And, further on, of those that follow. -/
theorem Marks.right {nodes more : List (Grammar H)} (marks : Marks kept next (nodes ++ more))
    : Marks kept (next + nodes.length) more := by
  intro index node found
  rw [Nat.add_assoc]
  refine marks (nodes.length + index) node ?_
  rw [List.getElem?_append_right (Nat.le_add_right ..), Nat.add_sub_cancel_left, found]

/-- Past a node and the rest is past the rest, counted from the next scope. -/
theorem next_after_cons (next : Nat) (node : Grammar H) (rest : List (Grammar H))
    : next + (node :: rest).length = next + 1 + rest.length := by
  rw [List.length_cons, Nat.add_comm _ 1, Nat.add_assoc]

end Marks

-----------------------------------------------------------------------------------------
-- Two generations in step
-----------------------------------------------------------------------------------------

namespace Workbench

/-- Two workbenches, the second one without the scopes that are not kept, when the next scope of the
first is `next`: they have bound the same constants, none of them a staged grammar. -/
structure Level (kept : List Bool) (next : Nat) (bench companion : Workbench H)
    : Prop where
  constants : companion.constants = bench.constants
  bare : ∀ constant ∈ bench.constants, constant.IsBare
  looseCount : companion.supply.looseCount = bench.supply.looseCount
  scopeCount : bench.supply.scopeCount = next
  companionCount : companion.supply.scopeCount = keptBefore kept next

/-- Two workbenches on which the innermost open scope is the kept scope `scope` of the first. -/
structure Facing (kept : List Bool) (scope next : Nat)
    (bench companion : Workbench H) : Prop extends Level kept next bench companion where
  isKept : isKept kept scope = true
  innermost : (bench.supply.scopes.map Name.Scope.id).head? = some scope
  companionInnermost : (companion.supply.scopes.map Name.Scope.id).head? = some (keptBefore kept scope)

/-- Two workbenches on which no scope is open. -/
structure Closed (kept : List Bool) (next : Nat)
    (bench companion : Workbench H) : Prop extends Level kept next bench companion where
  closed : bench.supply.scopes = []
  companionClosed : companion.supply.scopes = []

/-- Generation starts at the top, on both sides. -/
theorem Closed.start (kept : List Bool)
    : Closed kept 0 ({} : Workbench H) {} where
  constants := rfl
  bare := by simp
  looseCount := rfl
  scopeCount := rfl
  companionCount := (keptBefore_zero kept).symm
  closed := rfl
  companionClosed := rfl

end Workbench

namespace Emit

/-- How two generations of code end that go in step: both stop with one fault, or both return, the
first one the image of what the second one returns. -/
inductive Mirrored (image : β → α) (after : Workbench H → Workbench H → Prop)
    : EStateM.Result Fault (Workbench H) α → EStateM.Result Fault (Workbench H) β → Prop
  | returned {bench companion : Workbench H} (value : β) (related : after bench companion)
    : Mirrored image after (.ok (image value) bench) (.ok value companion)
  | stopped (fault : Fault) (bench companion : Workbench H)
    : Mirrored image after (.error fault bench) (.error fault companion)

/-- The first of two generations of code returns the image of what the second returns. -/
def Mirrors (before : Workbench H → Workbench H → Prop) (image : β → α) (work : Emit H α)
    (companionWork : Emit H β) (after : Workbench H → Workbench H → Prop)
    : Prop :=
  ∀ bench companion,
    before bench companion → Mirrored image after (work bench) (companionWork companion)

variable {before between after : Workbench H → Workbench H → Prop}

/-- Endings that mirror each other do so in a weaker sense. -/
theorem Mirrored.imp {image : β → α} {ending : EStateM.Result Fault (Workbench H) α}
    {companionEnding : EStateM.Result Fault (Workbench H) β}
    (mirrored : Mirrored image between ending companionEnding)
    (each : ∀ bench companion, between bench companion → after bench companion)
    : Mirrored image after ending companionEnding := by
  cases mirrored with
  | returned value related => exact .returned value (each _ _ related)
  | stopped fault => exact .stopped fault _ _

/-- Giving back a value mirrors giving back its counterpart. -/
theorem mirrors_pure {image : β → α} {value : α} {other : β} (same : value = image other)
    : Mirrors before image (pure value) (pure other) before := by
  intro bench companion related
  rw [same]
  exact .returned other related

/-- Steps one after another mirror each other if each step does. -/
theorem Mirrors.bind {image : β → α} {imageNext : δ → γ} {work : Emit H α} {companionWork : Emit H β}
    {next : α → Emit H γ} {companionNext : β → Emit H δ}
    (first : Mirrors before image work companionWork between)
    (each : ∀ value, Mirrors between imageNext (next (image value)) (companionNext value) after)
    : Mirrors before imageNext (work >>= next) (companionWork >>= companionNext) after := by
  intro bench companion related
  have mirrored := first bench companion related
  change Mirrored imageNext after (EStateM.bind work next bench)
    (EStateM.bind companionWork companionNext companion)
  simp only [EStateM.bind]
  generalize work bench = ending at mirrored ⊢
  generalize companionWork companion = companionEnding at mirrored ⊢
  cases mirrored with
  | returned value related => exact each value _ _ related
  | stopped fault => exact .stopped fault _ _

variable {kept : List Bool} {scope next last : Nat}

open Workbench

/-- Names are taken from scopes that correspond to each other. -/
theorem declare_mirrors (base : Text)
    : Mirrors (Facing (H := H) kept scope next) (Name.renumber (keptScope kept)) (declare base)
        (declare base) (Facing kept scope next) := by
  intro bench companion facing
  have innermost := facing.innermost
  have companionInnermost := facing.companionInnermost
  cases opened : bench.supply.scopes with
  | nil => simp [opened] at innermost
  | cons current outer =>
      cases companionOpened : companion.supply.scopes with
      | nil => simp [companionOpened] at companionInnermost
      | cons companionCurrent companionOuter =>
          have number : current.id = scope := by simpa [opened] using innermost
          have companionNumber : companionCurrent.id = keptBefore kept scope := by
            simpa [companionOpened] using companionInnermost
          simp only [declare, Name.Supply.request, opened, companionOpened]
          cases Name.isIdentifier base with
          | false => exact .stopped _ _ _
          | true =>
              have image : (⟨.inScope current.id, base⟩ : Name)
                  = Name.renumber (keptScope kept) ⟨.inScope companionCurrent.id, base⟩ := by
                simp only [Name.renumber, number, companionNumber, keptScope_keptBefore facing.isKept]
              simp only [if_true, image]
              refine .returned _ { facing with innermost := ?_, companionInnermost := ?_ }
              · exact congrArg some number
              · exact congrArg some companionNumber

/-- Binding a constant that holds no name mirrors binding it, since both tables are equal. -/
theorem constant_mirrors {wanted : Constant H} (bare : wanted.IsBare)
    : Mirrors (Facing kept scope next) id (constant wanted) (constant wanted)
        (Facing kept scope next) := by
  intro bench companion facing
  -- The tables are equal, so the search for the constant ends alike in both.
  simp only [constant, Workbench.slot?_eq, facing.constants]
  cases bench.constants.findIdx? (·.same wanted) with
  | some slot => exact .returned slot facing
  | none =>
      refine .returned bench.constants.length { facing with constants := ?_, bare := ?_ }
      · rw [Workbench.fill_constants, Workbench.fill_constants, facing.constants]
      · intro constant member
        rcases List.mem_append.mp member with bound | new
        · exact facing.bare constant bound
        · obtain rfl := List.mem_singleton.mp new
          exact bare

/-- Announcements mirror each other if both grammars announce themselves alike. -/
theorem enter_mirrors {grammar companionGrammar : Grammar H}
    (same : Constant.ofGrammar companionGrammar = Constant.ofGrammar grammar)
    (bare : (Constant.ofGrammar grammar).IsBare)
    : Mirrors (Facing kept scope next) (Stmt.renumber (keptScope kept)) (enter grammar)
        (enter companionGrammar) (Facing kept scope next) := by
  rw [enter, enter, same]
  exact (constant_mirrors bare).bind fun slot => mirrors_pure rfl

/-- Conversions mirror each other, by whether there is a function to bind. -/
theorem convert_mirrors (value : Atom) (conversion : Conversion H)
    : Mirrors (Facing kept scope next) (Expr.renumber (keptScope kept))
        (convert (value.renumber (keptScope kept)) conversion) (convert value conversion)
        (Facing kept scope next) := by
  cases conversion with
  | identity => exact mirrors_pure rfl
  | given function =>
      refine Mirrors.bind (constant_mirrors ?_) fun slot => mirrors_pure rfl
      intro id source generated same
      cases same

/-- Scopes that are opened side by side. -/
theorem inScope_mirrors {image : β → α} {work : Emit H α} {companionWork : Emit H β}
    (isKept : isKept kept next = true)
    (inside
      : Mirrors (Facing kept next (next + 1)) image work companionWork (Facing kept next last))
    : Mirrors (Level kept next) image (inScope work) (inScope companionWork) (Level kept last) := by
  intro bench companion level
  have opened : Facing kept next (next + 1) { bench with supply := bench.supply.openScope }
      { companion with supply := companion.supply.openScope } := {
    level with
    scopeCount := congrArg (· + 1) level.scopeCount
    companionCount := by
      rw [keptBefore_succ_of_isKept isKept]
      exact congrArg (· + 1) level.companionCount
    isKept
    innermost := congrArg some level.scopeCount
    companionInnermost := congrArg some level.companionCount }
  have mirrored := inside _ _ opened
  simp only [inScope]
  generalize work _ = ending at mirrored ⊢
  generalize companionWork _ = companionEnding at mirrored ⊢
  cases mirrored with
  | returned value facing => exact .returned value { facing.toLevel with }
  | stopped fault => exact .stopped fault _ _

/-- A scope that only the first generation opens. -/
theorem inScope_mirrors_of_dropped {image : β → α} {work : Emit H α} {companionWork : Emit H β}
    (dropped : isKept kept next = false)
    (inside : Mirrors (Level kept (next + 1)) image work companionWork (Level kept last))
    : Mirrors (Level kept next) image (inScope work) companionWork (Level kept last) := by
  intro bench companion level
  have opened : Level kept (next + 1) { bench with supply := bench.supply.openScope } companion := {
    level with
    scopeCount := congrArg (· + 1) level.scopeCount
    companionCount := by
      rw [keptBefore_succ_of_dropped dropped]
      exact level.companionCount }
  have mirrored := inside _ _ opened
  simp only [inScope]
  generalize work _ = ending at mirrored ⊢
  generalize companionWork _ = companionEnding at mirrored ⊢
  cases mirrored with
  | returned value level => exact .returned value { level with }
  | stopped fault => exact .stopped fault _ _

/-- After work inside a new scope the open scopes are those before it. -/
theorem scopes_of_inScope {work : Emit H α} {bench later : Workbench H} {value : α}
    (ended : inScope work bench = .ok value later)
    : later.supply.scopes = bench.supply.scopes := by
  simp only [inScope] at ended
  split at ended
  · cases ended
    rfl
  · cases ended

/-- Work inside new scopes that mirrors other work restores the open scopes on both sides. -/
theorem Mirrors.restores {image : β → α} {work : Emit H α} {companionWork : Emit H β}
    (mirrors : Mirrors (Level kept next) image (inScope work) (inScope companionWork) (Level kept last))
    {bench companion : Workbench H} (level : Level kept next bench companion)
    : Mirrored image
        (fun later companionLater =>
          Level kept last later companionLater
          ∧ later.supply.scopes = bench.supply.scopes
          ∧ companionLater.supply.scopes = companion.supply.scopes)
        (inScope work bench) (inScope companionWork companion) := by
  -- What is known after the work says nothing of the open scopes; that `inScope` put them back does.
  have mirrored := mirrors bench companion level
  cases ended : inScope work bench with
  | error fault later =>
      rw [ended] at mirrored
      generalize inScope companionWork companion = companionEnding at mirrored ⊢
      cases mirrored
      exact .stopped fault _ _
  | ok value later =>
      cases companionEnded : inScope companionWork companion with
      | error fault companionLater =>
          rw [ended, companionEnded] at mirrored
          cases mirrored
      | ok companionValue companionLater =>
          rw [ended, companionEnded] at mirrored
          cases mirrored with
          | returned _ related =>
              exact .returned companionValue
                ⟨related, scopes_of_inScope ended, scopes_of_inScope companionEnded⟩

/-- Work in scopes of their own, done while other scopes face each other. -/
theorem Mirrors.facing {image : β → α} {work : Emit H α} {companionWork : Emit H β}
    (mirrors : Mirrors (Level kept next) image (inScope work) (inScope companionWork) (Level kept last))
    : Mirrors (Facing kept scope next) image (inScope work) (inScope companionWork)
        (Facing kept scope last) := by
  intro bench companion facing
  refine (mirrors.restores facing.toLevel).imp fun later companionLater related => ?_
  obtain ⟨level, same, companionSame⟩ := related
  exact {
    level with
    isKept := facing.isKept
    innermost := by rw [same, facing.innermost]
    companionInnermost := by rw [companionSame, facing.companionInnermost] }

/-- So at the top, where no scope is open, none is open after it. -/
theorem Mirrors.closed {image : β → α} {work : Emit H α} {companionWork : Emit H β}
    (mirrors : Mirrors (Level kept next) image (inScope work) (inScope companionWork) (Level kept last))
    : Mirrors (Closed kept next) image (inScope work) (inScope companionWork) (Closed kept last) := by
  intro bench companion closed
  refine (mirrors.restores closed.toLevel).imp fun later companionLater related => ?_
  obtain ⟨level, same, companionSame⟩ := related
  exact {
    level with
    closed := same.trans closed.closed
    companionClosed := companionSame.trans closed.companionClosed }

/-- Outside of all scopes names are given out alike. -/
theorem declare_mirrors_closed (number : Nat → Nat) (base : Text)
    : Mirrors (Closed (H := H) kept next) (Name.renumber number) (declare base) (declare base)
        (Closed kept next) := by
  intro bench companion closed
  simp only [declare, Name.Supply.request, closed.closed, closed.companionClosed, closed.looseCount]
  cases Name.isIdentifier base with
  | false => exact .stopped _ _ _
  | true =>
      let name : Name := ⟨.loose bench.supply.looseCount, base⟩
      exact .returned name { closed with looseCount := rfl, closed := rfl, companionClosed := rfl }

-----------------------------------------------------------------------------------------
-- The pieces of fragments
-----------------------------------------------------------------------------------------

/-- The beginnings of choices mirror each other: four names and an announcement. -/
theorem beginChoice_mirrors {grammar companionGrammar : Grammar H}
    (same : Constant.ofGrammar companionGrammar = Constant.ofGrammar grammar)
    (bare : (Constant.ofGrammar grammar).IsBare)
    : Mirrors (Facing kept scope next) (Choice.renumber (keptScope kept)) (beginChoice grammar)
        (beginChoice companionGrammar) (Facing kept scope next) := by
  refine (declare_mirrors _).bind fun success => ?_
  refine (declare_mirrors _).bind fun value => ?_
  refine (enter_mirrors same bare).bind fun entrance => ?_
  refine (declare_mirrors _).bind fun start => ?_
  exact (declare_mirrors _).bind fun label => mirrors_pure rfl

/-- Alternatives mirror each other if their fragments do. -/
theorem alternative_mirrors (choice : Choice) (fragment : Fragment) (conversion : Conversion H)
    : Mirrors (Facing kept scope next) (renumberAll (keptScope kept))
        (alternative (choice.renumber (keptScope kept)) (fragment.renumber (keptScope kept)) conversion)
        (alternative choice fragment conversion) (Facing kept scope next) := by
  refine (convert_mirrors fragment.value conversion).bind fun converted => mirrors_pure ?_
  rw [fragment.spliced_renumber, renumberAll_append]
  rfl

/-- Renumbering the fragment of a choice renumbers the choice and its code. -/
theorem Choice.fragment_renumber (number : Nat → Nat) (choice : Choice) (code : List Stmt)
    : (choice.renumber number).fragment (renumberAll number code)
      = (choice.fragment code).renumber number := by
  simp [Choice.fragment, Choice.renumber, Fragment.renumber, renumberAll, renumberAll_append,
    Stmt.renumber, Expr.renumber, Atom.renumber]

/-- Choices without alternatives mirror each other. -/
theorem emptyChoice_mirrors {grammar companionGrammar : Grammar H}
    (same : Constant.ofGrammar companionGrammar = Constant.ofGrammar grammar)
    (bare : (Constant.ofGrammar grammar).IsBare)
    : Mirrors (Facing kept scope next) (Fragment.renumber (keptScope kept)) (emptyChoice grammar)
        (emptyChoice companionGrammar) (Facing kept scope next) := by
  refine (declare_mirrors _).bind fun success => ?_
  refine (declare_mirrors _).bind fun value => ?_
  exact (enter_mirrors same bare).bind fun entrance => mirrors_pure rfl

/-- Code that reads from the cursor mirrors itself if its arguments do. -/
theorem reading_mirrors {grammar : Grammar H} (bare : (Constant.ofGrammar grammar).IsBare)
    (success value : Text) (method : Method) {arguments : Emit H (List Atom)}
    (each
      : Mirrors (Facing kept scope next) (List.map (Atom.renumber (keptScope kept))) arguments arguments
          (Facing kept scope next))
    : Mirrors (Facing kept scope next) (Fragment.renumber (keptScope kept))
        (reading grammar success value method arguments)
        (reading grammar success value method arguments) (Facing kept scope next) := by
  refine (declare_mirrors success).bind fun success => ?_
  refine (declare_mirrors value).bind fun value => ?_
  refine (enter_mirrors rfl bare).bind fun entrance => ?_
  exact each.bind fun arguments => mirrors_pure rfl

/-- Code that hands over mirrors itself. -/
theorem delegation_mirrors {grammar : Grammar H} (bare : (Constant.ofGrammar grammar).IsBare)
    : Mirrors (Facing kept scope next) (Fragment.renumber (keptScope kept)) (delegation grammar)
        (delegation grammar) (Facing kept scope next) := by
  refine (declare_mirrors _).bind fun success => ?_
  refine (declare_mirrors _).bind fun record => ?_
  refine (constant_mirrors fun _ _ _ same => by cases same).bind fun maker => ?_
  exact (constant_mirrors bare).bind fun self => mirrors_pure rfl

/-- So does scripted code, by what its script gives. -/
theorem scripted_mirrors (emission : Emission)
    : Mirrors (Facing (H := H) kept scope next) (Fragment.renumber (keptScope kept)) (scripted emission)
        (scripted emission) (Facing kept scope next) := by
  cases emission with
  | refused => exact fun bench companion _ => .stopped _ _ _
  | garbled => exact (declare_mirrors _).bind fun success => mirrors_pure rfl
  | answer value =>
      refine (declare_mirrors _).bind fun success => ?_
      exact (constant_mirrors fun _ _ _ same => by cases same).bind fun slot => mirrors_pure rfl

end Emit

open Emit Workbench

-----------------------------------------------------------------------------------------
-- Grammars with and without staging
-----------------------------------------------------------------------------------------

section Grammars

variable {kept : List Bool} {scope next : Nat}

/-- The code of a grammar mirrors that of the grammar without staging, if the scopes are kept that
its nodes open without being staged. -/
def Grammar.EmitsInStep (kept : List Bool) (grammar : Grammar H) : Prop :=
  ∀ next,
    Marks kept next grammar.nodes
    → Mirrors (Level kept next) (Fragment.renumber (keptScope kept)) (inScope grammar.emit)
        (inScope grammar.unstaged.emit) (Level kept (next + grammar.nodes.length))

/-- The alternatives of a choice are emitted in step, by induction on the alternatives. -/
theorem emitAlternatives_mirrors (choice : Choice) (alternatives : List (Grammar H))
    (each : ∀ alternative ∈ alternatives, alternative.EmitsInStep kept)
    (marks : Marks kept next (nodesOfAll alternatives))
    : Mirrors (Facing kept scope next) (renumberAll (keptScope kept))
        (emitAlternatives (choice.renumber (keptScope kept)) alternatives)
        (emitAlternatives choice (unstagedAll alternatives))
        (Facing kept scope (next + (nodesOfAll alternatives).length)) := by
  induction alternatives generalizing next with
  | nil => exact mirrors_pure rfl
  | cons first rest ih =>
      have emitted := each first List.mem_cons_self next marks.left
      have continued := ih (fun other member => each other (List.mem_cons_of_mem first member))
        marks.right
      rw [emitAlternatives, unstagedAll, emitAlternatives, nodesOfAll, List.length_append,
        ← Nat.add_assoc]
      refine emitted.facing.bind fun fragment => ?_
      refine (alternative_mirrors choice fragment .identity).bind fun code => ?_
      exact continued.bind fun more => mirrors_pure (renumberAll_append ..).symm

/-- Every grammar is emitted in step with the one without staging, by induction on the grammar. -/
theorem Grammar.emitsInStep (kept : List Bool) (grammar : Grammar H)
    : grammar.EmitsInStep kept := by
  intro next marks
  induction grammar generalizing next with
  | literal id text ignoreCase =>
      refine inScope_mirrors marks.head ?_
      exact reading_mirrors (Constant.isBare_ofGrammar _ rfl (by simp)) _ _ _ (mirrors_pure rfl)
  | pattern id test min max =>
      refine inScope_mirrors marks.head ?_
      refine reading_mirrors (Constant.isBare_ofGrammar _ rfl (by simp)) _ _ _ ?_
      exact (constant_mirrors fun _ _ _ same => by cases same).bind fun slot => mirrors_pure rfl
  | map id source transform ih =>
      refine inScope_mirrors marks.head ?_
      rw [nodes, next_after_cons, emit, unstaged, emit]
      refine (declare_mirrors _).bind fun success => ?_
      refine (declare_mirrors _).bind fun value => ?_
      refine (ih (next + 1) marks.tail).facing.bind fun inner => ?_
      refine (enter_mirrors rfl (Constant.isBare_ofGrammar _ rfl (by simp))).bind fun entrance => ?_
      refine (constant_mirrors fun _ _ _ same => by cases same).bind fun function => mirrors_pure ?_
      rw [Fragment.spliced_renumber]
      simp [Fragment.renumber, renumberAll_append, renumberAll, Stmt.renumber, Expr.renumber,
        Atom.renumber]
  | oneOf id alternatives ih =>
      refine inScope_mirrors marks.head ?_
      have bare := Constant.isBare_ofGrammar (oneOf id alternatives) rfl (by simp)
      rw [nodes, next_after_cons]
      cases alternatives with
      | nil => exact emptyChoice_mirrors rfl bare
      | cons first rest =>
          refine (beginChoice_mirrors rfl bare).bind fun choice => ?_
          refine (emitAlternatives_mirrors choice _ ?_ marks.tail).bind fun code => ?_
          · exact fun alternative member next => ih alternative member next
          · exact mirrors_pure (choice.fragment_renumber ..)
  | either id left right ofLeft ofRight ihLeft ihRight =>
      refine inScope_mirrors marks.head ?_
      have bare := Constant.isBare_ofGrammar (either id left right ofLeft ofRight) rfl (by simp)
      rw [nodes, next_after_cons, List.length_append, ← Nat.add_assoc, emit, unstaged, emit]
      refine (beginChoice_mirrors rfl bare).bind fun choice => ?_
      refine (ihLeft (next + 1) marks.tail.left).facing.bind fun fragment => ?_
      refine (alternative_mirrors choice fragment ofLeft).bind fun first => ?_
      refine (ihRight _ marks.tail.right).facing.bind fun fragment => ?_
      refine (alternative_mirrors choice fragment ofRight).bind fun second => mirrors_pure ?_
      rw [← renumberAll_append, choice.fragment_renumber]
  | staged id source generated ih =>
      -- The scope that this node opens is the one without a counterpart.
      rw [nodes, next_after_cons, emit, unstaged]
      exact inScope_mirrors_of_dropped marks.head (ih (next + 1) marks.tail)
  | foreign id name parser =>
      refine inScope_mirrors marks.head ?_
      exact delegation_mirrors (Constant.isBare_ofGrammar _ rfl (by simp))
  | scripted id name emission =>
      refine inScope_mirrors marks.head ?_
      exact scripted_mirrors emission

/-- The code of a grammar, generated outside of all scopes, mirrors that of the grammar without
staging. -/
theorem Grammar.code_mirrors (grammar : Grammar H) (marks : Marks kept next grammar.nodes)
    : Mirrors (Closed kept next) (renumberAll (keptScope kept)) grammar.code grammar.unstaged.code
        (Closed kept (next + grammar.nodes.length)) := by
  refine (grammar.emitsInStep kept next marks).closed.bind fun fragment => ?_
  refine (declare_mirrors_closed (keptScope kept) _).bind fun start => mirrors_pure ?_
  rw [Fragment.spliced_renumber]
  simp [renumberAll, renumberAll_append, Fragment.renumber, Stmt.renumber, Atom.renumber]

end Grammars

/-- Which scopes are kept when staging is removed from a grammar: its nodes open the scopes, in their
order. -/
def Grammar.keptScopes (grammar : Grammar H) : List Bool :=
  grammar.nodes.map fun node => !node.isStaged

/-- The scopes kept for a grammar mark its nodes. -/
theorem Grammar.marks_keptScopes (grammar : Grammar H)
    : Marks grammar.keptScopes 0 grammar.nodes := by
  intro index node found
  simp [isKept, keptScopes, found]

/-- Generating code for a grammar and for the grammar without staging ends alike: with the same fault,
or with the same code but for a numbering of its scopes that keeps them apart and in order, and with
the same table of constants. No staged grammar is ever in the table. -/
theorem Grammar.program_eq_renumber_unstaged (grammar : Grammar H)
    : let number := keptScope grammar.keptScopes
      (∀ first second, first < second → number first < number second)
      ∧ grammar.program = grammar.unstaged.program.map (Program.renumber number)
      ∧ ∀ program,
          grammar.program = .ok program
          → ∀ constant ∈ program.table, ∀ id source generated,
              constant ≠ .ofGrammar (.staged id source generated) := by
  intro number
  refine ⟨fun first second => keptScope_lt, ?_⟩
  have mirrored := grammar.code_mirrors grammar.marks_keptScopes {} {} (.start _)
  simp only [program]
  generalize grammar.code {} = ending at mirrored ⊢
  generalize grammar.unstaged.code {} = companionEnding at mirrored ⊢
  cases mirrored with
  | stopped fault => exact ⟨rfl, fun program generated => by cases generated⟩
  | returned code level =>
      refine ⟨?_, fun program generated => ?_⟩
      · simp only [Except.map, Program.renumber, level.constants]
        rfl
      · cases generated
        exact level.bare

/-- A grammar of the stock with staged grammars at the root and inside, one directly in another, and
one around a parser that also stands beside it. -/
def Stock.layered : Grammar host :=
  .staged 9
    (.staged 8
      (.oneOf 0
        [ .staged 7 (.literal 1 (Text.ofString "a") false) true,
          .literal 1 (Text.ofString "a") false,
          .map 2 (.staged 6 (.foreign 3 (Text.ofString "Take") (.take 1)) false) (.given .wrap) ])
      true)
    false

/-- The layered grammar is unscripted, by its nodes. -/
theorem Stock.layered_unscripted : layered.Unscripted := by
  intro node member id name emission
  simp only [layered, Grammar.nodes, nodesOfAll, List.mem_cons, List.mem_append, List.not_mem_nil,
    or_false] at member
  rcases member with rfl | rfl | rfl | (rfl | rfl) | rfl | rfl | rfl | rfl <;> simp

/-- The layered grammar of the stock has a program. Its code differs from that without staging in
that the scopes of its five other nodes are the third, the fifth to the seventh, and the ninth one. -/
theorem Grammar.program_eq_renumber_unstaged_layered
    : ∃ program,
        Stock.layered.program = .ok program
        ∧ (∀ constant ∈ program.table, ∀ id source generated,
            constant ≠ .ofGrammar (.staged id source generated))
        ∧ (List.range 5).map (keptScope Stock.layered.keptScopes) = [2, 4, 5, 6, 8]
        ∧ Stock.layered.program
          = Stock.layered.unstaged.program.map
              (Program.renumber (keptScope Stock.layered.keptScopes)) := by
  obtain ⟨_, same, bare⟩ := program_eq_renumber_unstaged Stock.layered
  obtain ⟨program, _, _, generated, _⟩ := program_of_unscripted _ Stock.layered_unscripted
  exact ⟨program, generated, bare program generated, rfl, same⟩

end StagedParser
