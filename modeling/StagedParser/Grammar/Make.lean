import StagedParser.Grammar

/-!
Making grammars from arguments that may not fit. Each maker checks its arguments in a fixed order
and reports the first that is missing or out of bounds.
-/

namespace StagedParser

/-- The natural number that a value is, if it is one. -/
def Value.natural? : Value → Option Nat
  | .number value =>
    match value.toInt? with
    | some (.ofNat n) => some n
    | _ => none
  | _ => none

namespace Grammar

variable {H : Host}

/-- An argument that must be there. -/
def required {α : Type} (argument : String) : Option α → Except Fault α
  | some value => .ok value
  | none => .error (.argument (Text.ofString argument) .missing)

/-- Makes a literal; its text must be a text. -/
def makeLiteral (id : Nat) (text : Value) (ignoreCase : Bool) : Except Fault (Grammar H) :=
  match text with
  | .text text => .ok (.literal id text ignoreCase)
  | _ => .error (.argument (Text.ofString "text") .missing)

/-- The least length of a pattern: a natural number. -/
def lowerBound (min : Value) : Except Fault Nat :=
  match min.natural? with
  | some n => .ok n
  | none => .error (.argument (Text.ofString "min") (.lowerBound min.display))

/-- The greatest length of a pattern: zero for no limit, or a natural number no less than `min`. -/
def upperBound (min : Nat) (max : Value) : Except Fault Nat :=
  match max.natural? with
  | some n =>
    if n = 0 ∨ min ≤ n then
      .ok n
    else
      .error (.argument (Text.ofString "max") (.upperBound max.display))
  | none => .error (.argument (Text.ofString "max") (.upperBound max.display))

def makePattern (id : Nat) (test : Option H.Test) (min max : Value) : Except Fault (Grammar H) := do
  let test ← required "predicate" test
  let min ← lowerBound min
  let max ← upperBound min max
  return .pattern id test min max

def makeMap (id : Nat) (source : Option (Grammar H)) (transform : Option (Conversion H))
    : Except Fault (Grammar H) := do
  let source ← required "parser" source
  let transform ← required "transform" transform
  return .map id source transform

/-- The alternatives of a choice, counted from `index`; each must be there. -/
def allAlternatives (index : Nat) : List (Option (Grammar H)) → Except Fault (List (Grammar H))
  | [] => .ok []
  | none :: _ =>
    .error (.argument
      (Text.ofString "parsers[" ++ Text.ofNat index ++ Text.ofString "]") .missing)
  | some first :: rest => do return first :: (← allAlternatives (index + 1) rest)

/-- Makes a choice; without a list of alternatives there is none. -/
def makeOneOf (id : Nat) (alternatives : Option (List (Option (Grammar H))))
    : Except Fault (Grammar H) := do
  let alternatives ← required "parsers" alternatives
  return .oneOf id (← allAlternatives 0 alternatives)

def makeEither (id : Nat) (left right : Option (Grammar H)) (ofLeft ofRight : Option (Conversion H))
    : Except Fault (Grammar H) := do
  let left ← required "parserA" left
  let right ← required "parserB" right
  let ofLeft ← required "convertA" ofLeft
  let ofRight ← required "convertB" ofRight
  return .either id left right ofLeft ofRight

/-- Makes a choice of two whose conversions come as a pair or not at all. -/
def makePaired (id : Nat) (left right : Option (Grammar H)) (ofLeft ofRight : Option (Conversion H))
    : Except Fault (Grammar H) :=
  match ofLeft, ofRight with
  | none, none => makeEither id left right (some .identity) (some .identity)
  | _, _ => do
    let ofLeft ← required "convertA" ofLeft
    let ofRight ← required "convertB" ofRight
    makeEither id left right (some ofLeft) (some ofRight)

end Grammar

end StagedParser
