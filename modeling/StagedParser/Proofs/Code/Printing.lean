import StagedParser.Proofs.Code.Generated
import StagedParser.Proofs.Text.Literals
import StagedParser.Stock

/-! The texts of literals in the text of programs.
Every statement of a program, at any depth, is laid out somewhere in the program's text. A literal of
the grammar is the argument of such a statement, and whoever reads the program's text from there takes
exactly the text of the literal, and goes on with the code behind it.
-/

namespace StagedParser

variable {H : Host}

namespace Code

-----------------------------------------------------------------------------------------
-- Statements in the text of code
-----------------------------------------------------------------------------------------

/-- The statements of code are those of one of its statements, by induction on the code. -/
theorem mem_statements {inner : Stmt} {code : List Stmt}
    : inner ∈ statements code ↔ ∃ statement ∈ code, inner ∈ statement.statements := by
  induction code with
  | nil => simp [statements]
  | cons first rest ih => simp [statements, ih]

/-- A statement is one of its own. -/
theorem Stmt.self_mem_statements (statement : Stmt) : statement ∈ statement.statements := by
  cases statement <;> simp [Stmt.statements]

mutual

/-- A statement inside of another one is laid out inside of it, by the kinds of statements. -/
theorem Stmt.layout_infix (depth : Nat) (statement : Stmt) {inner : Stmt}
    (member : inner ∈ statement.statements)
    : ∃ within, inner.layout within <:+: statement.layout depth := by
  cases statement with
  | block label body =>
      rw [Stmt.statements, List.mem_cons] at member
      rcases member with rfl | below
      · exact ⟨depth, List.infix_refl _⟩
      · obtain ⟨within, found⟩ := layoutBlock_infix depth body below
        rw [Stmt.layout]
        exact ⟨within, found.trans (List.suffix_append _ _).isInfix⟩
  | branch condition yes no =>
      rw [Stmt.statements, List.mem_cons, List.mem_append] at member
      rcases member with rfl | below | below
      · exact ⟨depth, List.infix_refl _⟩
      · obtain ⟨within, found⟩ := layoutBlock_infix depth yes below
        refine ⟨within, found.trans ?_⟩
        cases no with
        | nil =>
            simp only [Stmt.layout]
            exact (List.suffix_append _ _).isInfix
        | cons first rest =>
            simp only [Stmt.layout]
            refine ⟨Text.ofString "if (" ++ condition.text ++ Text.ofString ") \x7b" ++ newLine,
              newLine ++ indent depth ++ Text.ofString "else \x7b" ++ newLine
                ++ layoutBlock depth (first :: rest), ?_⟩
            simp only [List.append_assoc]
      · obtain ⟨within, found⟩ := layoutBlock_infix depth no below
        refine ⟨within, found.trans ?_⟩
        cases no with
        | nil => cases below
        | cons first rest =>
            simp only [Stmt.layout]
            exact (List.suffix_append _ _).isInfix
  | declare | define | assign | enter | moveTo | leave | report | answer | garbled =>
      simp only [Stmt.statements, List.mem_singleton] at member
      rw [member]
      exact ⟨depth, List.infix_refl _⟩

/-- A statement of a block is laid out inside of the block, by induction on the block. -/
theorem layoutBlock_infix (depth : Nat) (code : List Stmt) {inner : Stmt}
    (member : inner ∈ statements code)
    : ∃ within, inner.layout within <:+: layoutBlock depth code := by
  cases code with
  | nil => cases member
  | cons first rest =>
      rw [statements, List.mem_append] at member
      rw [layoutBlock]
      rcases member with here | later
      · obtain ⟨within, found⟩ := Stmt.layout_infix (depth + 1) first here
        refine ⟨within, found.trans ?_⟩
        simp only [List.append_assoc]
        exact List.infix_append' _ _ _
      · obtain ⟨within, found⟩ := layoutBlock_infix depth rest later
        exact ⟨within, found.trans (List.suffix_append _ _).isInfix⟩

end

/-- Each of some texts stands in what they are joined to, by induction on the texts. -/
theorem infix_joinWith {text : Text} (separator : Text) {texts : List Text} (member : text ∈ texts)
    : text <:+: Text.joinWith separator texts := by
  induction texts with
  | nil => cases member
  | cons first rest ih =>
      cases rest with
      | nil =>
          rw [List.mem_singleton.mp member]
          exact List.infix_refl _
      | cons second others =>
          rw [Text.joinWith]
          · rcases List.mem_cons.mp member with rfl | later
            · exact (List.prefix_append _ _).isInfix.trans (List.prefix_append _ _).isInfix
            · exact (ih later).trans (List.suffix_append _ _).isInfix
          · simp

/-- Every statement of code, at any depth, is laid out in the text of the code. -/
theorem layout_infix {inner : Stmt} {code : List Stmt} (member : inner ∈ statements code)
    : ∃ within, inner.layout within <:+: layout code := by
  obtain ⟨statement, among, inside⟩ := mem_statements.mp member
  obtain ⟨within, found⟩ := Stmt.layout_infix 0 statement inside
  exact ⟨within, found.trans (infix_joinWith newLine (List.mem_map_of_mem among))⟩

-----------------------------------------------------------------------------------------
-- The statements of literals
-----------------------------------------------------------------------------------------

/-- The call that takes a literal. -/
def takeLiteral (text : Text) (ignoreCase : Bool) : Expr :=
  .onCursor .takeText [.text text, .flag ignoreCase]

/-- The call that takes a text is printed with the literal as its first argument. -/
theorem layout_takeLiteral (text : Text) (ignoreCase : Bool)
    : (takeLiteral text ignoreCase).layout
      = Text.ofString "context.scanner.cursor.readText(" ++
          (text.literal ++
            (Text.ofString ", " ++ (Atom.flag ignoreCase).layout ++ Text.ofString ")")) := by
  have called : cursorText ++ Text.ofString "." ++ Method.layout .takeText ++ Text.ofString "("
      = Text.ofString "context.scanner.cursor.readText(" := by decide
  rw [← called]
  simp [takeLiteral, Expr.layout, cursorCall, callText, commaSeparated, Text.joinWith, Atom.layout]

/-- Splicing in a fragment keeps its statements. -/
theorem Fragment.mem_spliced {fragment : Fragment} {statement : Stmt}
    (member : statement ∈ statements fragment.body)
    : statement ∈ statements fragment.spliced := by
  rw [Fragment.spliced]
  split
  · exact member
  · rw [statements]
    exact List.mem_append_right _ member

/-- So does converting what it yields. -/
theorem Fragment.mem_converting {fragment : Fragment} {statement : Stmt}
    (member : statement ∈ statements fragment.body) (success value : Name) (expression : Expr)
    (yes no rest : List Stmt)
    : statement ∈ statements (fragment.converting success value expression yes no rest) := by
  rw [Fragment.converting, statements_append]
  exact List.mem_append_left _ (fragment.mem_spliced member)

end Code

open Code

/-- The nodes below a choice are the nodes of its alternatives. -/
theorem Grammar.mem_nodes_of_choices {grammar node : Grammar H}
    {choices : List (Grammar H × Conversion H)} (found : grammar.choices? = some choices)
    (member : node ∈ grammar.nodes)
    : node = grammar ∨ ∃ choice ∈ choices, node ∈ choice.1.nodes := by
  rwa [nodes_of_choices found, List.mem_cons, List.mem_flatMap] at member

/-- The code of a grammar takes each of its literals, by induction on what was emitted. -/
theorem Emitted.takes_literals {table : List (Constant H)} {grammar : Grammar H} {first last : Nat}
    {fragment : Fragment} (emitted : Emitted table grammar first last fragment) {id : Nat}
    {text : Text} {ignoreCase : Bool} (member : .literal id text ignoreCase ∈ grammar.nodes)
    : ∃ target, .assign target (takeLiteral text ignoreCase) ∈ statements fragment.body := by
  induction emitted with
  | reading leaf bound =>
      cases leaf with
      | literal id text ignoreCase =>
          obtain ⟨rfl, rfl, rfl⟩ := Grammar.literal.inj (List.mem_singleton.mp member)
          exact ⟨_, mem_statements.mpr
            ⟨_, List.mem_of_getElem? (i := 1) rfl, Stmt.self_mem_statements _⟩⟩
      | pattern id test min max bound => cases List.mem_singleton.mp member
  | map emitted bound boundFunction ih =>
      rcases List.mem_cons.mp member with same | inside
      · cases same
      · obtain ⟨target, found⟩ := ih inside
        refine ⟨target, ?_⟩
        rw [mapFragment, statements]
        exact List.mem_append_right _ (Fragment.mem_converting found ..)
  | empty bound => cases List.mem_singleton.mp member
  | @choice grammar alternatives scope last slot choices _ _ _ _ _ ih =>
      rcases Grammar.mem_nodes_of_choices choices member with rfl | ⟨choice, among, inside⟩
      · cases choices
      · obtain ⟨alternative, listed, rfl⟩ := List.mem_map.mp among
        obtain ⟨target, found⟩ := ih alternative listed inside
        have tried : .assign target (takeLiteral text ignoreCase)
            ∈ statements (alternative.code (.within scope slot)) :=
          Fragment.mem_converting found ..
        obtain ⟨statement, own, below⟩ := mem_statements.mp tried
        have whole := mem_statements.mpr ⟨statement, List.mem_flatMap.mpr ⟨_, listed, own⟩, below⟩
        refine ⟨target, mem_statements.mpr ⟨.block _ _, List.mem_of_getElem? (i := 2) rfl, ?_⟩⟩
        rw [Stmt.statements, statements_append]
        exact List.mem_cons_of_mem _ (List.mem_append_left _ whole)
  | staged emitted ih =>
      rcases List.mem_cons.mp member with same | inside
      · cases same
      · exact ih inside
  | foreign boundMaker boundSelf => cases List.mem_singleton.mp member

-----------------------------------------------------------------------------------------
-- Literals survive printing
-----------------------------------------------------------------------------------------

/-- The text of a literal survives printing. It is written between quotes, without an end of line and
without a bare quote in between, and the closing quote is bare. Reading it gives back the text and
what follows it, in strict code and in any other, so different texts are written differently and none
can end its literal early and have the rest read as code. In the text of every program whose grammar
has the literal, this is how the literal stands as the argument of the call that takes it. -/
theorem Text.literal_survives_printing (text : Text) (strict : Bool)
    : (∃ body,
        text.literal = quoteMark :: (body ++ [quoteMark])
        ∧ (∀ unit ∈ body, endsLine unit = false)
        ∧ quoteMark ∉ bare body
        ∧ bare (body ++ [quoteMark]) = bare body ++ [quoteMark])
      ∧ (∀ rest, readLiteral? strict (text.literal ++ rest) = some (text, rest))
      ∧ (∀ other rest more,
          text.literal ++ rest = other.literal ++ more → text = other ∧ rest = more)
      ∧ ∀ (H : Host) (grammar : Grammar H) (id : Nat) (ignoreCase : Bool),
          grammar.Unscripted
          → .literal id text ignoreCase ∈ grammar.nodes
          → ∃ program before after,
              grammar.program = .ok program
              ∧ program.text
                = before ++ ofString "context.scanner.cursor.readText(" ++
                    (text.literal ++
                      (ofString ", " ++ (Atom.flag ignoreCase).layout ++ ofString ")" ++ after)) := by
  refine ⟨⟨literalUnits text, rfl, fun unit member => ?_, ?_, ?_⟩, ?_, ?_, ?_⟩
  · have printable := printable_of_mem_literalUnits member
    grind [endsLine, lineFeed, carriageReturn]
  · exact quoteMark_not_mem_bare_literalUnits text
  · exact bare_literalUnits_append text [quoteMark]
  · exact readLiteral?_literal strict text
  · exact fun other rest more => literal_append_inj
  · intro H grammar id ignoreCase unscripted member
    obtain ⟨program, fragment, last, generated, framed, emitted⟩ :=
      grammar.program_of_unscripted unscripted
    obtain ⟨target, found⟩ := emitted.takes_literals member
    have taken : .assign target (takeLiteral text ignoreCase) ∈ statements program.code := by
      rw [framed, Fragment.framed, List.cons_append, statements, statements_append]
      exact List.mem_append_right _ (List.mem_append_left _ (fragment.mem_spliced found))
    obtain ⟨depth, before, after, laidOut⟩ := layout_infix taken
    refine ⟨program, before ++ target.text ++ ofString " = ", ofString ";" ++ after, generated, ?_⟩
    rw [Program.text, ← laidOut, Stmt.layout, assignment, layout_takeLiteral]
    simp only [List.append_assoc]

/-- A text with a quote, a backslash, NUL before a digit, a line feed, a line separator and half of a
surrogate pair, as one of two literals of a choice. -/
theorem Text.literal_survives_printing_sample
    : let text : Text := [34, 92, 0, 49, 10, 0x2028, 0xD800]
      let grammar : Grammar Stock.host := .oneOf 0 [.literal 1 [] false, .literal 2 text true]
      grammar.Unscripted
      ∧ .literal 2 text true ∈ grammar.nodes
      ∧ text.literal = ofString "\"\\\"\\\\\\x001\\n\\u2028\\uD800\""
      ∧ readLiteral? false (text.literal ++ ofString ", true") = some (text, ofString ", true")
      ∧ ∃ program before after,
          grammar.program = .ok program
          ∧ program.text
            = before ++ ofString "context.scanner.cursor.readText(" ++
                (text.literal ++ (ofString ", " ++ ofString "true" ++ ofString ")" ++ after)) := by
  intro text grammar
  have unscripted : grammar.Unscripted := by
    intro node member
    simp only [grammar, Grammar.nodes, nodesOfAll, List.mem_cons, List.mem_append, List.not_mem_nil,
      or_false] at member
    rcases member with rfl | rfl | rfl <;> simp
  have member : .literal 2 text true ∈ grammar.nodes := by simp [grammar, Grammar.nodes, nodesOfAll]
  obtain ⟨_, reads, _, printed⟩ := literal_survives_printing text false
  exact ⟨unscripted, member, by decide, reads _, printed _ grammar 2 true unscripted member⟩

end StagedParser
