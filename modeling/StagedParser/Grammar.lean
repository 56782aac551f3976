import StagedParser.Host
import StagedParser.Text.Quoted

/-!
Grammars: trees of parsers. Each node has an identity, so that one parser used in several places
of a grammar can be told from two that merely look alike.
-/

namespace StagedParser

/-- A plain constant: a value with an identity. The identity counts only for lists and records. -/
structure PlainConstant where
  id : Nat
  value : Value

/-- The code that a parser emits when it does not delegate to its own parse. -/
inductive Emission where
  | refused
  /-- It emits code that cannot be read. -/
  | garbled
  /-- It emits code that ends the run with a constant. -/
  | answer (constant : PlainConstant)

/-- A grammar over the symbols of a host. -/
inductive Grammar (H : Host) where
  /-- Matches an exact text. -/
  | literal (id : Nat) (text : Text) (ignoreCase : Bool)
  /-- Matches a run of at least `min` and at most `max` units that pass a test; zero is no limit. -/
  | pattern (id : Nat) (test : H.Test) (min max : Nat)
  /-- Converts the value of a match. -/
  | map (id : Nat) (source : Grammar H) (transform : Conversion H)
  /-- The first alternative that matches. -/
  | oneOf (id : Nat) (alternatives : List (Grammar H))
  /-- The first of two alternatives that matches, each with a conversion of its own. -/
  | either (id : Nat) (left right : Grammar H) (ofLeft ofRight : Conversion H)
  /-- A grammar that was staged: its parse runs its generated code, or interprets the source when
  code generation was off. -/
  | staged (id : Nat) (source : Grammar H) (generated : Bool)
  /-- A parser from outside that takes part in generated code by delegation. -/
  | foreign (id : Nat) (name : Text) (parser : H.Foreign)
  /-- A parser that never matches and emits code of its own. -/
  | scripted (id : Nat) (name : Text) (emission : Emission)

namespace Grammar

variable {H : Host}

def id : Grammar H → Nat
  | .literal id .. | .pattern id .. | .map id .. | .oneOf id .. | .either id .. | .staged id ..
  | .foreign id .. | .scripted id .. => id

def name : Grammar H → Text
  | .literal _ text _ => text.json
  | .pattern .. => Text.ofString "PatternLiteral"
  | .map .. => Text.ofString "Then"
  | .oneOf .. => Text.ofString "OneOf"
  | .either .. => Text.ofString "OneOf2"
  | .staged _ source _ => Text.ofString "Compiled(" ++ source.name ++ Text.ofString ")"
  | .foreign _ name _ => name
  | .scripted _ name _ => name

/-- A grammar's root as it is announced to the entry hook. -/
def entry (grammar : Grammar H) : Entry :=
  ⟨grammar.id, grammar.name⟩

end Grammar

/-- What generated code refers to by slots. -/
inductive Constant (H : Host) where
  /-- A parser that is only announced. -/
  | parser (entry : Entry)
  /-- A parser from outside, which can also be called. -/
  | foreign (entry : Entry) (parser : H.Foreign)
  /-- The maker of unset records. -/
  | recordMaker
  /-- A function, be it called to convert a value or handed on to test units. -/
  | conversion (function : Conversion H)
  | plain (constant : PlainConstant)

namespace Constant

variable {H : Host}

/-- A grammar's root as a constant. -/
def ofGrammar : Grammar H → Constant H
  | .foreign id name symbol => .foreign ⟨id, name⟩ symbol
  | grammar => .parser grammar.entry

end Constant

/-- Whether two plain constants are one: simple values when they are equal, lists and records when
they have one identity. -/
def PlainConstant.same (a b : PlainConstant) : Bool :=
  match a.value, b.value with
  | .absent, .absent => true
  | .null, .null => true
  | .flag x, .flag y => x == y
  | .number x, .number y => x == y
  | .text x, .text y => x == y
  | .list _, .list _ => a.id == b.id
  | .record _, .record _ => a.id == b.id
  | _, _ => false

/-- Whether two constants share a slot. -/
def Constant.same {H : Host} : Constant H → Constant H → Bool
  | .parser x, .parser y => x == y
  | .foreign x p, .foreign y q => x == y && p == q
  | .recordMaker, .recordMaker => true
  | .conversion f, .conversion g => f == g
  | .plain x, .plain y => x.same y
  | _, _ => false

end StagedParser
