import StagedParser.Position

/-!
Faults: everything that can go wrong apart from a mere mismatch, which is a parser's ordinary
answer. A fault names its cause; its wording is given in one place.
-/

namespace StagedParser

/-- What is wrong with an argument. -/
inductive Fault.Complaint where
  | missing
  | lowerBound (got : Text)
  | upperBound (got : Text)
  | worded (message : Text)
deriving DecidableEq, Repr

/-- Which invariant was broken. -/
inductive Fault.Breach where
  | outside (offset : Number) (size : Nat)
  | unset
  | unreachable (value : Option Text)
  | worded (message : Text)
  | plain
deriving DecidableEq, Repr

inductive Fault.Kind where
  | argument
  | mismatch
  | staging
  | invariant
  | failure
  | type
  | range
  | json
  | yaml
  | code
  | stuck
deriving DecidableEq, Repr

/-- At which point turning a grammar into code failed. -/
inductive Fault.Stage where
  | notGenerated (parser : Text)
  | notCompiled (parser : Text)
  | notBoolean (parser typeName : Text)
  | worded (message : Text)
deriving DecidableEq, Repr

/-- What is wrong with a settings file. -/
inductive Fault.Flaw where
  /-- It holds something other than a record. -/
  | notARecord (path : Text)
  /-- What it imports is not named by texts. -/
  | badImport (path : Text)
  | selfImport (path : Text)
  /-- It imports a file that led to it: the files from the first one on, ending with the one that
  is imported again, and the number of that one's first place. -/
  | circularImport (chain : List Text) (first : Nat)
  /-- No format goes with the extension of its name. -/
  | noFormat (extension : Text)
  /-- There is nothing in it that could be used. -/
  | nothing
deriving DecidableEq, Repr

inductive Fault where
  /-- A parser was made from an argument that does not fit. -/
  | argument (argument : Text) (complaint : Fault.Complaint)
  /-- A whole text was to be parsed and was not. -/
  | mismatch (input : Text) (position : Position) (expected : Text)
  /-- A grammar could not be turned into code, or its code misbehaved; `source` is the code. -/
  | staging (stage : Fault.Stage) (source : Text) (cause : Option Fault.Kind)
  /-- An internal invariant does not hold. -/
  | invariant (breach : Fault.Breach)
  /-- A function or parser of the host failed. -/
  | failure (message : Text)
  /-- A settings file is not as it should be. -/
  | file (flaw : Fault.Flaw)
  /-- A requested name is no identifier. -/
  | badName (quoted : Text)
  /-- A host parser refused to emit code. -/
  | outOfRange
  /-- A settings file holds malformed JSON. -/
  | malformedJson
  /-- A settings file holds malformed YAML. -/
  | malformedYaml
  /-- Code that is not well formed was run. -/
  | stuck
deriving DecidableEq, Repr

namespace Fault

def kind : Fault → Kind
  | .argument .. => .argument
  | .mismatch .. => .mismatch
  | .staging .. => .staging
  | .invariant _ => .invariant
  | .failure _ => .failure
  | .file .nothing => .type
  | .file _ => .failure
  | .badName _ => .type
  | .outOfRange => .range
  | .malformedJson => .json
  | .malformedYaml => .yaml
  | .stuck => .stuck

def Complaint.message (argument : Text) : Complaint → Text
  | .missing =>
    Text.ofString "Argument '" ++ argument ++ Text.ofString "' must not be null or undefined"
  | .lowerBound got =>
    Text.ofString "Argument 'min' must be a non-negative integer, got " ++ got
  | .upperBound got =>
    Text.ofString "Argument 'max' must be 0 or an integer >= min, got " ++ got
  | .worded message => message

def Breach.message : Breach → Text
  | .outside offset size =>
    Text.ofString "Position " ++ offset.text ++
      Text.ofString " is outside a buffer of length " ++ Text.ofNat size
  | .unset => Text.ofString "ParseResult was read before a successful match set it"
  | .unreachable none => Text.ofString "Unreachable code reached"
  | .unreachable (some value) => Text.ofString "Unreachable code reached: " ++ value
  | .worded message => message
  | .plain => Text.ofString "Invariant violation"

def Stage.message : Stage → Text
  | .notGenerated parser => Text.ofString "Could not generate code for " ++ parser
  | .notCompiled parser =>
    Text.ofString "Generated code for " ++ parser ++ Text.ofString " does not compile"
  | .notBoolean parser typeName =>
    Text.ofString "Compiled " ++ parser ++ Text.ofString " returned " ++ typeName ++
      Text.ofString " instead of a boolean"
  | .worded message => message

/-- The lines of a chain of imports, numbered from `number` on. -/
def numbered (number : Nat) : List Text → List Text
  | [] => []
  | path :: rest => (Text.ofNat number ++ Text.ofString ". " ++ path) :: numbered (number + 1) rest

def Flaw.message : Flaw → Text
  | .notARecord path =>
    Text.ofString "weft config at " ++ path ++ Text.ofString " must export an object"
  | .badImport path =>
    path ++ Text.ofString ": Key $import must contain a string or a list of strings"
  | .selfImport path => Text.ofString "Self-import detected in " ++ path
  | .circularImport chain first =>
    Text.ofString "Circular import detected:\n" ++
      Text.joinWith (Text.ofString "\n") (numbered 1 chain) ++ Text.ofString " (same as " ++
      Text.ofNat first ++ Text.ofString ".)"
  | .noFormat extension =>
    Text.ofString "No loader specified for extension \"" ++ extension ++ Text.ofString "\""
  | .nothing => Text.ofString "Cannot convert undefined or null to object"

/-- The part of the input shown with a mismatch: ten units before its position and twenty after. -/
def snippet (input : Text) (position : Position) : Text :=
  input.slice (max 0 (position.offset.plus (-10)).truncate) (position.offset.plus 20).truncate

def mismatchMessage (input : Text) (position : Position) (expected : Text) : Text :=
  Text.ofString "Parse error at line " ++ position.line.text ++ Text.ofString ", col " ++
    position.column.text ++ Text.ofString ": expected " ++ expected ++
    Text.ofString "\n  ..." ++ snippet input position ++ Text.ofString "..."

/-- The message of a fault, for the kinds that carry one. -/
def message? : Fault → Option Text
  | .argument subject complaint => some (complaint.message subject)
  | .mismatch input position expected => some (mismatchMessage input position expected)
  | .staging stage _ _ => some stage.message
  | .invariant breach => some breach.message
  | .failure message => some message
  | .file flaw => some flaw.message
  | .badName quoted => some (Text.ofString "Not a valid identifier: " ++ quoted)
  | .outOfRange | .malformedJson | .malformedYaml | .stuck => none

/-- Passes if a condition holds, and otherwise faults with the given message or a plain one. -/
def ensure (condition : Bool) (message : Option Text) : Except Fault Unit :=
  if condition then
    .ok ()
  else
    .error (.invariant (message.elim .plain .worded))

end Fault

end StagedParser
