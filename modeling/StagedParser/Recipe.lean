import StagedParser.Forge
import StagedParser.Grammar.Make
import StagedParser.Stock

/-!
Recipes describe grammars over the stock. Building one makes its parsers from the inside out and
gives each a new identity; a reference stands for a grammar built before, identity included.
-/

namespace StagedParser

/-- A description of a grammar. -/
inductive Recipe where
  /-- No parser at all. -/
  | missing
  /-- The grammar that was built under a name. -/
  | reference (name : Text)
  | literal (text : Value) (ignoreCase : Bool)
  | pattern (test : Option Stock.TestForm) (min max : Value)
  | map (source : Recipe) (function : Option (Conversion Stock.host))
  | oneOf (alternatives : List Recipe)
  /-- A choice with something else in place of its list of alternatives. -/
  | oneOfNoList
  | either (left right : Recipe) (ofLeft ofRight : Option (Conversion Stock.host))
  /-- A choice of two whose conversions come as a pair or not at all. -/
  | paired (left right : Recipe) (ofLeft ofRight : Option (Conversion Stock.host))
  | staged (source : Recipe)
  | foreign (parser : Stock.Parser)
  | refused
  | garbled
  | answer (value : Value)

namespace Recipe

/-- A piece of work at a forge for the stock. -/
abbrev Work (α : Type) := Forge.Work Stock.host α

open Forge

/-- A test of the given form. One that a word alone names is the same everywhere, any other is
new. -/
def test (form : Stock.TestForm) : Work Stock.Function := do
  if form ∈ Stock.TestForm.named then
    return .test ⟨0, form⟩
  else
    return .test ⟨← fresh, form⟩

def test? : Option Stock.TestForm → Work (Option Stock.Function)
  | some form => do return some (← test form)
  | none => return none

mutual

/-- Builds the grammar of a recipe; a missing parser gives none. -/
def build : Recipe → Work (Option (Grammar Stock.host))
  | .missing => return none
  | .reference name => do return some (← find name)
  | .literal text ignoreCase => do
    return some (← give (Grammar.makeLiteral (← fresh) text ignoreCase))
  | .pattern form min max => do
    let test ← test? form
    return some (← give (Grammar.makePattern (H := Stock.host) (← fresh) test min max))
  | .map source function => do
    let source ← source.build
    return some (← give (Grammar.makeMap (← fresh) source function))
  | .oneOf alternatives => do
    let alternatives ← buildAll alternatives
    return some (← give (Grammar.makeOneOf (← fresh) (some alternatives)))
  | .oneOfNoList => do return some (← give (Grammar.makeOneOf (← fresh) none))
  | .either left right ofLeft ofRight => do
    let left ← left.build
    let right ← right.build
    return some (← give (Grammar.makeEither (← fresh) left right ofLeft ofRight))
  | .paired left right ofLeft ofRight => do
    let left ← left.build
    let right ← right.build
    return some (← give (Grammar.makePaired (← fresh) left right ofLeft ofRight))
  | .staged source => do
    match ← source.build with
    | some grammar => return some (← stage grammar)
    | none => throw .stuck
  | .foreign parser => do return some (.foreign (← fresh) parser.name parser)
  | .refused => do return some (.scripted (← fresh) (Text.ofString "Uncompilable") .refused)
  | .garbled => do return some (.scripted (← fresh) (Text.ofString "Unprintable") .garbled)
  | .answer value => do
    let id ← fresh
    return some (.scripted id (Text.ofString "Returner") (.answer ⟨id, value⟩))

def buildAll : List Recipe → Work (List (Option (Grammar Stock.host)))
  | [] => return []
  | first :: rest => do return (← first.build) :: (← buildAll rest)

end

/-- Builds a grammar that must be there. -/
def require (recipe : Recipe) : Work (Grammar Stock.host) := do
  match ← recipe.build with
  | some grammar => return grammar
  | none => throw .stuck

/-- Builds grammars under names, in order. -/
def defineAll : List (Text × Recipe) → Work Unit
  | [] => return ()
  | (name, recipe) :: rest => do
    put name (← recipe.require)
    defineAll rest

end Recipe

end StagedParser
