import StagedParser.Grammar

/-! The nodes of a grammar, and induction over grammars.
A choice holds a list of grammars, so its induction hypothesis covers every member of the list.
-/

namespace StagedParser

variable {H : Host}

mutual

/-- A grammar and all grammars inside of it, in the order in which they are reached from the root.
A grammar that stands in several places is listed for each of them. -/
def Grammar.nodes (grammar : Grammar H) : List (Grammar H) :=
  match grammar with
  | .map _ source _ | .staged _ source _ => grammar :: source.nodes
  | .oneOf _ alternatives => grammar :: nodesOfAll alternatives
  | .either _ left right _ _ => grammar :: (left.nodes ++ right.nodes)
  | .literal .. | .pattern .. | .foreign .. | .scripted .. => [grammar]

def nodesOfAll : List (Grammar H) → List (Grammar H)
  | [] => []
  | first :: rest => first.nodes ++ nodesOfAll rest

end

/-- The nodes of a list are the nodes of its members, by induction on the list. -/
theorem mem_nodesOfAll {node : Grammar H} {grammars : List (Grammar H)}
    : node ∈ nodesOfAll grammars ↔ ∃ grammar ∈ grammars, node ∈ grammar.nodes := by
  induction grammars with
  | nil => simp [nodesOfAll]
  | cons first rest ih => simp [nodesOfAll, ih]

namespace Grammar

/-- Induction over grammars, with the hypothesis of a choice for all its alternatives. -/
@[elab_as_elim, induction_eliminator]
theorem induction {motive : Grammar H → Prop}
    (literal : ∀ id text ignoreCase, motive (.literal id text ignoreCase))
    (pattern : ∀ id test min max, motive (.pattern id test min max))
    (map : ∀ id source transform, motive source → motive (.map id source transform))
    (oneOf
      : ∀ id alternatives,
          (∀ alternative ∈ alternatives, motive alternative) → motive (.oneOf id alternatives))
    (either
      : ∀ id left right ofLeft ofRight,
          motive left → motive right → motive (.either id left right ofLeft ofRight))
    (staged : ∀ id source generated, motive source → motive (.staged id source generated))
    (foreign : ∀ id name parser, motive (.foreign id name parser))
    (scripted : ∀ id name emission, motive (.scripted id name emission))
    (grammar : Grammar H)
    : motive grammar :=
  match grammar with
  | .literal id text ignoreCase => literal id text ignoreCase
  | .pattern id test min max => pattern id test min max
  | .map id source transform =>
      map id source transform
        (induction literal pattern map oneOf either staged foreign scripted source)
  | .oneOf id alternatives =>
      oneOf id alternatives fun alternative _ =>
        induction literal pattern map oneOf either staged foreign scripted alternative
  | .either id left right ofLeft ofRight =>
      either id left right ofLeft ofRight
        (induction literal pattern map oneOf either staged foreign scripted left)
        (induction literal pattern map oneOf either staged foreign scripted right)
  | .staged id source generated =>
      staged id source generated
        (induction literal pattern map oneOf either staged foreign scripted source)
  | .foreign id name parser => foreign id name parser
  | .scripted id name emission => scripted id name emission

/-- A grammar is a node of itself. -/
theorem self_mem_nodes (grammar : Grammar H) : grammar ∈ grammar.nodes := by
  cases grammar <;> simp [nodes]

/-- The grammars that a node tries or wraps directly. -/
def children : Grammar H → List (Grammar H)
  | .map _ source _ | .staged _ source _ => [source]
  | .oneOf _ alternatives => alternatives
  | .either _ left right _ _ => [left, right]
  | .literal .. | .pattern .. | .foreign .. | .scripted .. => []

/-- The source of a map is a child of it. -/
theorem mem_children_map {id : Nat} {source : Grammar H} {transform : Conversion H}
    : source ∈ (map id source transform).children :=
  List.mem_singleton_self source

/-- So is the source of a staged grammar. -/
theorem mem_children_staged {id : Nat} {source : Grammar H} {generated : Bool}
    : source ∈ (staged id source generated).children :=
  List.mem_singleton_self source

/-- So is the left side of a choice of two. -/
theorem left_mem_children_either {id : Nat} {left right : Grammar H}
    {ofLeft ofRight : Conversion H}
    : left ∈ (either id left right ofLeft ofRight).children :=
  List.mem_cons_self

/-- And so is the right one. -/
theorem right_mem_children_either {id : Nat} {left right : Grammar H}
    {ofLeft ofRight : Conversion H}
    : right ∈ (either id left right ofLeft ofRight).children :=
  List.mem_cons_of_mem left (List.mem_singleton_self right)

/-- The nodes of a child are nodes of the whole, by the kinds of grammars with children. -/
theorem nodes_subset_of_mem_children {child grammar : Grammar H} (member : child ∈ grammar.children)
    : child.nodes ⊆ grammar.nodes := by
  intro node inside
  cases grammar <;> simp only [children, List.not_mem_nil, List.mem_cons, or_false] at member
  case map | staged =>
    subst member
    simp [nodes, inside]
  case oneOf => exact List.mem_cons_of_mem _ (mem_nodesOfAll.mpr ⟨child, member, inside⟩)
  case either =>
    rcases member with rfl | rfl
    · simp [nodes, inside]
    · simp [nodes, inside]

/-- No parser of a grammar emits code of its own making: each is of a kind that the library
compiles, or takes part by delegation. -/
def Unscripted (grammar : Grammar H) : Prop :=
  ∀ node ∈ grammar.nodes, ∀ id name emission, node ≠ .scripted id name emission

/-- The children of an unscripted grammar are unscripted. -/
theorem Unscripted.child {child grammar : Grammar H} (unscripted : grammar.Unscripted)
    (member : child ∈ grammar.children)
    : child.Unscripted :=
  fun node inside => unscripted node (nodes_subset_of_mem_children member inside)

end Grammar

end StagedParser
