import StagedParser.Proofs.Code.Generated
import StagedParser.Proofs.Stock.Contract

/-! The landmarks of generated code.
Code is nested no deeper than choices are, and each node of a grammar leaves the same landmarks in it
wherever it stands: its announcement and, for a choice, one start and one block, which every alternative
leaves once and goes back from once. Nodes take their scopes in the order in which they are reached from
the root, so names tell whose landmarks they are.
-/

namespace StagedParser

variable {H : Host}

-----------------------------------------------------------------------------------------
-- Choices in grammars
-----------------------------------------------------------------------------------------

namespace Grammar

/-- The alternatives of a choice with their conversions; any other grammar has none. -/
def alternatives (grammar : Grammar H) : List (Grammar H × Conversion H) :=
  grammar.choices?.getD []

/-- Whether a grammar is a choice with at least one alternative. -/
def isChoice (grammar : Grammar H) : Bool :=
  !grammar.alternatives.isEmpty

/-- The nodes on a way from the root of a grammar to one of its leaves. -/
inductive Path : Grammar H → List (Grammar H) → Prop
  | leaf {grammar : Grammar H} (childless : grammar.children = []) : Path grammar [grammar]
  | child {grammar child : Grammar H} {nodes : List (Grammar H)} (member : child ∈ grammar.children)
    (path : Path child nodes)
    : Path grammar (grammar :: nodes)

/-- The greatest number of choices on a way from the root to a leaf. -/
structure IsChoiceDepth (grammar : Grammar H) (count : Nat) : Prop where
  reached : ∃ path, grammar.Path path ∧ path.countP isChoice = count
  greatest : ∀ path, grammar.Path path → path.countP isChoice ≤ count

/-- A grammar without parts that is no choice has no choices on any path: there is one path only. -/
theorem IsChoiceDepth.leaf {grammar : Grammar H} (childless : grammar.children = [])
    (plain : grammar.isChoice = false)
    : grammar.IsChoiceDepth 0 where
  reached := ⟨[grammar], .leaf childless, by simp [plain]⟩
  greatest := by
    intro path way
    cases way with
    | leaf => simp [plain]
    | child member => simp [childless] at member

/-- A grammar that wraps another one is as deep. -/
theorem IsChoiceDepth.wrap {grammar child : Grammar H} {count : Nat}
    (only : grammar.children = [child]) (plain : grammar.isChoice = false)
    (depth : child.IsChoiceDepth count)
    : grammar.IsChoiceDepth count where
  reached := by
    obtain ⟨path, way, counted⟩ := depth.reached
    exact ⟨grammar :: path, .child (by simp [only]) way, by simp [plain, counted]⟩
  greatest := by
    intro path way
    cases way with
    | leaf childless => simp [only] at childless
    | child member way =>
        rw [only, List.mem_singleton] at member
        subst member
        simpa [plain] using depth.greatest _ way

/-- A choice is one deeper than the deepest of its alternatives. -/
theorem IsChoiceDepth.choice {grammar deepest : Grammar H} {count : Nat}
    (choice : grammar.isChoice = true) (among : deepest ∈ grammar.children)
    (depth : deepest.IsChoiceDepth count)
    (others
      : ∀ child ∈ grammar.children, ∃ other, child.IsChoiceDepth other ∧ other ≤ count)
    : grammar.IsChoiceDepth (count + 1) where
  reached := by
    obtain ⟨path, way, counted⟩ := depth.reached
    exact ⟨grammar :: path, .child among way, by simp [choice, counted]⟩
  greatest := by
    intro path way
    cases way with
    | leaf childless => simp [childless] at among
    | child member way =>
        obtain ⟨other, depth, below⟩ := others _ member
        have counted := depth.greatest _ way
        rw [List.countP_cons_of_pos choice]
        omega

/-- A grammar with alternatives is a choice. -/
theorem isChoice_of_choices {grammar : Grammar H} {choices : List (Grammar H × Conversion H)}
    (found : grammar.choices? = some choices) (nonempty : choices ≠ [])
    : grammar.isChoice = true := by
  simp [isChoice, alternatives, found, nonempty]

end Grammar

namespace Code

-----------------------------------------------------------------------------------------
-- Nesting
-----------------------------------------------------------------------------------------

mutual

/-- How deep the statements inside a statement are nested: each labelled block and each branch is one
deeper. -/
def Stmt.depth : Stmt → Nat
  | .block _ body => depth body + 1
  | .branch _ yes no => max (depth yes) (depth no) + 1
  | _ => 0

/-- How deep the statements of code are nested. -/
def depth : List Stmt → Nat
  | [] => 0
  | first :: rest => max first.depth (depth rest)

end

/-- Code in two parts is as deep as the deeper one, by induction on the first part. -/
theorem depth_append (code more : List Stmt)
    : depth (code ++ more) = max (depth code) (depth more) := by
  induction code with
  | nil => simp [depth]
  | cons first rest ih => rw [List.cons_append, depth, depth, ih, Nat.max_assoc]

/-- A piece is no deeper than the whole code, by what stands before and after it. -/
theorem depth_le_of_mem {α : Type} {pieces : List α} {piece : α} (member : piece ∈ pieces)
    (code : α → List Stmt)
    : depth (code piece) ≤ depth (pieces.flatMap code) := by
  obtain ⟨before, after, rfl⟩ := List.append_of_mem member
  simp only [List.flatMap_append, List.flatMap_cons, depth_append]
  omega

/-- Code made of pieces is as deep as the deepest of them, by induction on the pieces. -/
theorem exists_depth_eq {α : Type} {pieces : List α} (nonempty : pieces ≠ []) (code : α → List Stmt)
    : ∃ piece ∈ pieces, depth (pieces.flatMap code) = depth (code piece) := by
  induction pieces with
  | nil => exact absurd rfl nonempty
  | cons first rest ih =>
      rw [List.flatMap_cons, depth_append]
      by_cases alone : rest = []
      · exact ⟨first, by simp, by simp [alone, depth]⟩
      · obtain ⟨deepest, among, same⟩ := ih alone
        rw [same]
        by_cases deeper : depth (code deepest) ≤ depth (code first)
        · exact ⟨first, by simp, Nat.max_eq_left deeper⟩
        · exact ⟨deepest, List.mem_cons_of_mem _ among, by omega⟩

/-- Splicing a fragment makes it no deeper, since a declaration has no depth. -/
theorem Fragment.depth_spliced (fragment : Fragment)
    : depth fragment.spliced = depth fragment.body := by
  rw [spliced]
  split
  · rfl
  · simp [depth, Stmt.depth]

/-- Code that converts what a fragment yields has the branch on top of the fragment: it is one
deep, or as deep as the fragment if that is deeper. -/
theorem Fragment.depth_converting (fragment : Fragment) (success value : Name) (expression : Expr)
    {yes no rest : List Stmt} (flatYes : depth yes = 0) (flatNo : depth no = 0)
    (flatRest : depth rest = 0)
    : depth (fragment.converting success value expression yes no rest)
      = max 1 (depth fragment.body) := by
  rw [converting, depth_append, depth_spliced]
  simp only [depth, Stmt.depth, flatYes, flatNo, flatRest]
  omega

end Code

open Code

variable {table : List (Constant H)}

/-- Emitted code is nested as deep as choices are, and one deeper where the outcome of a choice or of
the whole is looked at. Witness: induction on what was emitted. -/
theorem Emitted.depth_eq {grammar : Grammar H} {first last : Nat} {fragment : Fragment}
    (emitted : Emitted table grammar first last fragment)
    : ∃ count, grammar.IsChoiceDepth count ∧ max 1 (depth fragment.body) = 1 + count := by
  induction emitted with
  | reading leaf bound =>
      refine ⟨0, ?_, by simp [readingFragment, depth, Stmt.depth]⟩
      cases leaf with
      | literal => exact .leaf rfl rfl
      | pattern => exact .leaf rfl rfl
  | map emitted bound boundFunction ih =>
      obtain ⟨count, deep, same⟩ := ih
      refine ⟨count, deep.wrap rfl rfl, ?_⟩
      rw [mapFragment, depth, Fragment.depth_converting _ _ _ _ rfl rfl rfl, same]
      simp only [Stmt.depth]
      omega
  | empty bound => exact ⟨0, .leaf rfl rfl, by simp [emptyFragment, depth, Stmt.depth]⟩
  | @choice grammar alternatives scope last slot choices nonempty _ _ _ _ ih =>
      let code (a : EmittedAlternative H) := a.code (.within scope slot)
      have codeDepth (a : EmittedAlternative H) : depth (code a) = max 1 (depth a.fragment.body) :=
        Fragment.depth_converting _ _ _ _ rfl rfl rfl
      have whole : depth ((Emit.Choice.within scope slot).fragment (alternatives.flatMap code)).body
          = depth (alternatives.flatMap code) + 1 := by
        simp [Emit.Choice.fragment, Emit.Choice.within, depth, Stmt.depth, depth_append]
      have children := Grammar.children_of_choices choices
      rw [List.map_map] at children
      obtain ⟨deepest, among, same⟩ := exists_depth_eq nonempty code
      obtain ⟨count, deep, equal⟩ := ih deepest among
      rw [codeDepth, equal] at same
      refine ⟨count + 1, .choice ?_ ?_ deep ?_, (congrArg (max 1) whole).trans (by omega)⟩
      · exact Grammar.isChoice_of_choices choices (by simpa using nonempty)
      · rw [children]
        exact List.mem_map_of_mem among
      · intro child member
        rw [children] at member
        obtain ⟨a, listed, rfl⟩ := List.mem_map.mp member
        obtain ⟨other, deepOther, equalOther⟩ := ih a listed
        have below := depth_le_of_mem listed code
        rw [codeDepth, equalOther] at below
        exact ⟨other, deepOther, by omega⟩
  | staged emitted ih =>
      obtain ⟨count, deep, same⟩ := ih
      exact ⟨count, deep.wrap rfl rfl, same⟩
  | foreign boundMaker boundSelf =>
      exact ⟨0, .leaf rfl rfl, by simp [foreignFragment, depth, Stmt.depth]⟩

-----------------------------------------------------------------------------------------
-- Landmarks
-----------------------------------------------------------------------------------------

/-- What a grammar's choices and announcements leave in generated code. -/
inductive Landmark (H : Host) where
  /-- The present position is kept in a local. -/
  | captures (start : Name)
  /-- A labelled block. -/
  | opens (label : Name)
  | leaves (label : Name)
  /-- The cursor is moved. -/
  | resets (targets : List Atom)
  /-- The constant in a slot of the table is announced. -/
  | announces (constant : Option (Constant H))

namespace Code

/-- The landmark that a statement is, apart from those inside of it. -/
def Stmt.landmark? (table : List (Constant H)) : Stmt → Option (Landmark H)
  | .define start .position | .assign start (.atom .position) => some (.captures start)
  | .block label _ => some (.opens label)
  | .leave label => some (.leaves label)
  | .moveTo target => some (.resets [target])
  | .assign _ (.onCursor .moveTo targets) => some (.resets targets)
  | .enter slot => some (.announces table[slot]?)
  | _ => none

/-- The landmarks of code, at any depth. -/
def landmarks (table : List (Constant H)) (code : List Stmt) : List (Landmark H) :=
  (statements code).filterMap (Stmt.landmark? table)

/-- Code in two parts has the landmarks of its parts. -/
theorem landmarks_append (code more : List Stmt)
    : landmarks table (code ++ more) = landmarks table code ++ landmarks table more := by
  rw [landmarks, statements_append, List.filterMap_append]
  rfl

section Statements

variable (rest : List Stmt)

/-- No code has no landmarks. -/
@[simp] theorem landmarks_nil : landmarks table [] = [] :=
  rfl

/-- A declaration is no landmark. -/
@[simp] theorem landmarks_declare (names : List Name)
    : landmarks table (.declare names :: rest) = landmarks table rest :=
  rfl

/-- Defining a local as the position captures it. -/
@[simp] theorem landmarks_define (start : Name)
    : landmarks table (.define start .position :: rest) = .captures start :: landmarks table rest :=
  rfl

/-- So does assigning the position. -/
@[simp] theorem landmarks_capture (start : Name)
    : landmarks table (.assign start (.atom .position) :: rest)
      = .captures start :: landmarks table rest :=
  rfl

/-- An announcement is a landmark, with the constant in its slot. -/
@[simp] theorem landmarks_enter (slot : Nat)
    : landmarks table (.enter slot :: rest) = .announces table[slot]? :: landmarks table rest :=
  rfl

/-- A move is a reset. -/
@[simp] theorem landmarks_moveTo (target : Atom)
    : landmarks table (.moveTo target :: rest) = .resets [target] :: landmarks table rest :=
  rfl

/-- Leaving a block is a landmark. -/
@[simp] theorem landmarks_leave (label : Name)
    : landmarks table (.leave label :: rest) = .leaves label :: landmarks table rest :=
  rfl

/-- Setting the caller's record is none. -/
@[simp] theorem landmarks_report (start stop value : Atom)
    : landmarks table (.report start stop value :: rest) = landmarks table rest :=
  rfl

/-- Nor is answering. -/
@[simp] theorem landmarks_answer (value : Atom)
    : landmarks table (.answer value :: rest) = landmarks table rest :=
  rfl

/-- A block is opened, and then has the landmarks of its body. -/
@[simp] theorem landmarks_block (label : Name) (body : List Stmt)
    : landmarks table (.block label body :: rest)
      = .opens label :: (landmarks table body ++ landmarks table rest) := by
  simp [landmarks, statements, Stmt.statements, Stmt.landmark?]

/-- A branch has the landmarks of both sides. -/
@[simp] theorem landmarks_branch (condition : Name) (yes no : List Stmt)
    : landmarks table (.branch condition yes no :: rest)
      = landmarks table yes ++ (landmarks table no ++ landmarks table rest) := by
  simp [landmarks, statements, Stmt.statements, List.filterMap_cons, Stmt.landmark?]

end Statements

/-- Whether an expression neither is the present position nor moves the cursor. -/
def Expr.isPlain : Expr → Bool
  | .atom value => value ≠ .position
  | .onCursor method _ => method ≠ .moveTo
  | .newRecord _ | .parse .. | .call .. | .notNull _ => true

/-- Any other assignment is no landmark, by the kinds of expressions. -/
@[simp] theorem landmarks_assign (target : Name) {expression : Expr}
    (plain : expression.isPlain = true) (rest : List Stmt)
    : landmarks table (.assign target expression :: rest) = landmarks table rest := by
  cases expression with
  | atom value =>
      cases value with
      | position => cases plain
      | _ => rfl
  | onCursor method arguments =>
      cases method with
      | moveTo => cases plain
      | _ => rfl
  | _ => rfl

/-- A spliced fragment has the landmarks of its body, since declarations are none. -/
theorem Fragment.landmarks_spliced (fragment : Fragment)
    : landmarks table fragment.spliced = landmarks table fragment.body := by
  rw [spliced]
  split
  · rfl
  · rw [landmarks_declare]

/-- Code that converts what a fragment yields has the landmarks of its parts. -/
theorem Fragment.landmarks_converting (fragment : Fragment) (success value : Name) {expression : Expr}
    (plain : expression.isPlain = true) (yes no rest : List Stmt)
    : landmarks table (fragment.converting success value expression yes no rest)
      = landmarks table fragment.body
        ++ (landmarks table yes ++ landmarks table no ++ landmarks table rest) := by
  have noted : (Expr.atom (.flag true)).isPlain = true := rfl
  simp [converting, landmarks_append, landmarks_spliced, noted, plain]

end Code

/-- The landmarks that a node of a grammar leaves in code. A staged grammar leaves those of its source
only, and a parser from outside is called without being announced. -/
def Grammar.landmarks (scope : Nat) : Grammar H → List (Landmark H)
  | .staged .. | .foreign .. => []
  | grammar =>
    let start := Name.within scope "orStart"
    let label := Name.within scope "choice"
    .announces (some (.parser grammar.entry))
      :: (if grammar.isChoice then [.captures start, .opens label] else [])
      ++ grammar.alternatives.flatMap fun _ => [.leaves label, .resets [.name start]]

/-- A choice announces itself, captures the start and opens a block; each alternative leaves the
block once and resets once. By the two kinds of choices. -/
theorem Grammar.landmarks_of_choices {grammar : Grammar H} {choices : List (Grammar H × Conversion H)}
    (found : grammar.choices? = some choices) (nonempty : choices ≠ []) (scope : Nat)
    : grammar.landmarks scope
      = .announces (some (.parser grammar.entry)) :: .captures (.within scope "orStart")
        :: .opens (.within scope "choice")
        :: choices.flatMap fun _ =>
            [.leaves (.within scope "choice"), .resets [.name (.within scope "orStart")]] := by
  have choice := isChoice_of_choices found nonempty
  have same : grammar.alternatives = choices := by rw [alternatives, found, Option.getD_some]
  cases grammar with
  | oneOf | either =>
      rw [landmarks, choice, same]
      · rfl
      · simp
      · simp
  | _ => cases found

/-- The landmarks of nodes in scopes one after another. -/
def landmarksOf (first : Nat) (nodes : List (Grammar H)) : List (Landmark H) :=
  (nodes.zipIdx first).flatMap fun (node, scope) => node.landmarks scope

/-- The landmarks of the first node come first, and its scope is the first one. -/
theorem landmarksOf_cons (first : Nat) (node : Grammar H) (rest : List (Grammar H))
    : landmarksOf first (node :: rest) = node.landmarks first ++ landmarksOf (first + 1) rest := by
  rw [landmarksOf, List.zipIdx_cons, List.flatMap_cons]
  rfl

/-- Nodes in two parts have the landmarks of their parts, the later ones in later scopes. -/
theorem landmarksOf_append (first : Nat) (nodes more : List (Grammar H))
    : landmarksOf first (nodes ++ more)
      = landmarksOf first nodes ++ landmarksOf (first + nodes.length) more := by
  rw [landmarksOf, List.zipIdx_append, List.flatMap_append]
  rfl

/-- No fragment yields the present position, by induction on what was emitted. -/
theorem Emitted.value_ne_position {grammar : Grammar H} {first last : Nat} {fragment : Fragment}
    (emitted : Emitted table grammar first last fragment)
    : fragment.value ≠ .position := by
  induction emitted with
  | staged emitted ih => exact ih
  | _ => simp [readingFragment, mapFragment, emptyFragment, foreignFragment, Emit.Choice.fragment]

/-- A conversion neither is the position nor moves the cursor, by whether there is a function to
call. -/
theorem Converted.isPlain {value : Atom} {conversion : Conversion H} {expression : Expr}
    (converted : Converted table value conversion expression) (still : value ≠ .position)
    : expression.isPlain = true := by
  cases converted with
  | identity => simpa [Expr.isPlain] using still
  | given bound => rfl

/-- Neither does taking a text or a run, by the two kinds of leaves. -/
theorem Reading.isPlain {grammar : Grammar H} {success value : String} {method : Method}
    {arguments : List Atom} (leaf : Reading table grammar success value method arguments)
    : (Expr.onCursor method arguments).isPlain = true := by
  cases leaf with
  | literal => rfl
  | pattern => rfl

/-- A leaf has one landmark, its announcement. -/
theorem Reading.landmarks {grammar : Grammar H} {success value : String} {method : Method}
    {arguments : List Atom} (leaf : Reading table grammar success value method arguments) (scope : Nat)
    : landmarksOf scope grammar.nodes = [.announces (some (.parser grammar.entry))] := by
  cases leaf with
  | literal => rfl
  | pattern => rfl

/-- What is known of the code of a grammar in scopes from a first to a last one. -/
structure Marked (table : List (Constant H)) (grammar : Grammar H) (first last : Nat)
    (fragment : Fragment) : Prop where
  scopes : last = first + grammar.nodes.length
  landmarks : (landmarks table fragment.body).Perm (landmarksOf first grammar.nodes)

/-- A choice has the landmarks of its alternatives and three of its own. -/
theorem landmarks_choice (scope slot : Nat) (code : List Stmt)
    : landmarks table ((Emit.Choice.within scope slot).fragment code).body
      = .announces table[slot]? :: .captures (.within scope "orStart")
        :: .opens (.within scope "choice") :: landmarks table code := by
  simp [Emit.Choice.fragment, Emit.Choice.within, landmarks_append, Expr.isPlain]

section Alternatives

variable {alternatives : List (EmittedAlternative H)} {first last : Nat}

/-- Alternatives take as many scopes as they have nodes, by induction on the alternatives. -/
theorem scopes_alternatives
    (each : ∀ a ∈ alternatives, Marked table a.grammar a.first a.last a.fragment)
    (consecutive : Consecutive first alternatives last)
    : last = first + (alternatives.flatMap (·.grammar.nodes)).length := by
  induction alternatives generalizing first with
  | nil => exact consecutive.symm
  | cons a rest ih =>
      obtain ⟨starts, restConsecutive⟩ := consecutive
      have own := (each a (by simp)).scopes
      have others := ih (fun b member => each b (List.mem_cons_of_mem a member)) restConsecutive
      rw [List.flatMap_cons, List.length_append]
      omega

/-- Alternatives have the landmarks of their nodes, and each leaves its choice once and goes back to its
start once, by induction on the alternatives. -/
theorem landmarks_alternatives (choice : Emit.Choice)
    (each : ∀ a ∈ alternatives, Marked table a.grammar a.first a.last a.fragment)
    (plain : ∀ a ∈ alternatives, a.converted.isPlain = true)
    (consecutive : Consecutive first alternatives last)
    : (landmarks table (alternatives.flatMap (·.code choice))).Perm
        (landmarksOf first (alternatives.flatMap (·.grammar.nodes))
          ++ alternatives.flatMap fun _ => [.leaves choice.label, .resets [.name choice.start]]) := by
  induction alternatives generalizing first with
  | nil => exact .rfl
  | cons a rest ih =>
      obtain ⟨starts, restConsecutive⟩ := consecutive
      obtain ⟨scopes, own⟩ := each a (by simp)
      have others := ih (fun b member => each b (List.mem_cons_of_mem a member))
        (fun b member => plain b (List.mem_cons_of_mem a member)) restConsecutive
      let ways : List (Landmark H) := [.leaves choice.label, .resets [.name choice.start]]
      have shape : landmarks table (a.code choice) = landmarks table a.fragment.body ++ ways := by
        rw [EmittedAlternative.code, Fragment.landmarks_converting _ _ _ (plain a (by simp))]
        simp [ways]
      rw [scopes, starts] at others
      rw [starts] at own
      simp only [List.flatMap_cons, landmarks_append, landmarksOf_append, shape, List.append_assoc]
      refine own.append ((others.append_left ways).trans ?_)
      exact List.perm_append_comm_assoc _ _ _

end Alternatives

/-- The code of a grammar has the landmarks of its nodes. Witness: induction on what was emitted. -/
theorem Emitted.marked {grammar : Grammar H} {first last : Nat} {fragment : Fragment}
    (emitted : Emitted table grammar first last fragment)
    : Marked table grammar first last fragment := by
  induction emitted with
  | @reading grammar success value method arguments scope slot leaf bound =>
      have alone : grammar.nodes.length = 1 := by cases leaf <;> rfl
      refine ⟨by rw [alone], ?_⟩
      rw [leaf.landmarks]
      rw [readingFragment, landmarks_enter, landmarks_assign _ leaf.isPlain, bound]
      exact .rfl
  | @map id source transform inner scope last slot function emitted bound boundFunction ih =>
      obtain ⟨scopes, own⟩ := ih
      refine ⟨by simp only [Grammar.nodes, List.length_cons]; omega, ?_⟩
      rw [mapFragment, landmarks_enter, Fragment.landmarks_converting _ _ _ rfl,
        Grammar.nodes, landmarksOf_cons]
      simpa [bound, Expr.isPlain, Grammar.landmarks, Grammar.isChoice, Grammar.alternatives,
        Grammar.choices?] using own
  | @empty id scope slot bound =>
      refine ⟨rfl, ?_⟩
      simp [emptyFragment, bound, Expr.isPlain, Grammar.nodes, nodesOfAll, landmarksOf,
        Grammar.landmarks, Grammar.isChoice, Grammar.alternatives, Grammar.choices?]
  | @choice grammar alternatives scope last slot choices nonempty bound each conversions consecutive
    ih =>
      have shape : grammar.nodes = grammar :: alternatives.flatMap (·.grammar.nodes) := by
        rw [Grammar.nodes_of_choices choices, List.flatMap_map]
      refine ⟨?_, ?_⟩
      · rw [shape, List.length_cons, scopes_alternatives ih consecutive]
        omega
      · have plain : ∀ a ∈ alternatives, a.converted.isPlain = true := fun a member =>
          (conversions a member).isPlain (each a member).value_ne_position
        have inner := landmarks_alternatives (.within scope slot) ih plain consecutive
        rw [shape, landmarksOf_cons, Grammar.landmarks_of_choices choices (by simpa using nonempty),
          List.flatMap_map]
        rw [landmarks_choice, bound]
        exact (((inner.trans List.perm_append_comm).cons _).cons _).cons _
  | @staged id source generated fragment scope last emitted ih =>
      obtain ⟨scopes, own⟩ := ih
      refine ⟨by simp only [Grammar.nodes, List.length_cons]; omega, ?_⟩
      rw [Grammar.nodes, landmarksOf_cons]
      exact own
  | @foreign id name parser scope maker self boundMaker boundSelf =>
      exact ⟨rfl, .rfl⟩

/-- The program of an unscripted grammar is flat, and its landmarks are counted. Its statements are
nested one deeper than the greatest number of choices on a way from the root of the grammar to a leaf,
however many alternatives there are. Apart from the capture of its start, its landmarks are those of the
nodes of the grammar, neither more nor fewer: each node but staged grammars and parsers from outside is
announced once, each choice with an alternative captures its start once and opens one block, and each
of its alternatives leaves that block once and goes back to that start once. -/
theorem Grammar.program_flat_and_counted (grammar : Grammar H) (unscripted : grammar.Unscripted)
    : ∃ program choices,
        grammar.program = .ok program
        ∧ grammar.IsChoiceDepth choices
        ∧ depth program.code = 1 + choices
        ∧ (Code.landmarks program.table program.code).Perm
            (.captures .start :: landmarksOf 0 grammar.nodes) := by
  obtain ⟨program, fragment, last, generated, framed, emitted⟩ :=
    grammar.program_of_unscripted unscripted
  obtain ⟨choices, deepest, same⟩ := emitted.depth_eq
  refine ⟨program, choices, generated, deepest, ?_, ?_⟩
  · rw [framed, Fragment.framed, List.cons_append, depth, depth_append, fragment.depth_spliced, ← same]
    simp only [depth, Stmt.depth]
    omega
  · rw [framed, Fragment.framed, List.cons_append, landmarks_define, landmarks_append,
      fragment.landmarks_spliced]
    simpa using emitted.marked.landmarks

/-- A choice of four alternatives, one of which is a staged choice of two, the second of them empty: the
code is nested three deep, and has six announcements, two starts, two blocks, and six ways out and back
besides its own start. -/
theorem Grammar.program_flat_and_counted_sample
    : let grammar := Stock.sample (.take 1) (.take 2)
      grammar.Unscripted
      ∧ ∃ program,
          grammar.program = .ok program
          ∧ grammar.IsChoiceDepth 2
          ∧ depth program.code = 3
          ∧ (Code.landmarks program.table program.code).length = 1 + (6 + 2 + 2 + 6 + 6) := by
  intro grammar
  have unscripted := Stock.sample_unscripted (.take 1) (.take 2)
  have computed : grammar.program.toOption.map (fun program => depth program.code) = some 3 := by
    decide +kernel
  obtain ⟨program, choices, generated, deepest, deep, counted⟩ :=
    program_flat_and_counted grammar unscripted
  have three : depth program.code = 3 := by simpa [generated, Except.toOption] using computed
  obtain rfl : choices = 2 := by omega
  have many : (landmarksOf 0 grammar.nodes).length = 6 + 2 + 2 + 6 + 6 := by decide +kernel
  refine ⟨unscripted, program, generated, deepest, three, ?_⟩
  rw [counted.length_eq, List.length_cons, many]

end StagedParser
