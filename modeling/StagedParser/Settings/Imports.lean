import StagedParser.Settings.Files

/-!
Imports between settings files. A record may name other files under one key: what they hold comes
below what the record itself holds, the first file lowest. Records are joined field by field and
lists end to end.
-/

namespace StagedParser

mutual

/-- A value joined to what stood in its place: two records field by field, two lists end to end;
anything else replaces. -/
def Value.joinedTo (below : Option Value) : Value → Value
  | .record upper =>
    match below with
    | some (.record lower) => .record (lower.join upper)
    | _ => .record upper
  | .list upper =>
    match below with
    | some (.list lower) => .list (lower ++ upper)
    | _ => .list upper
  | value => value

/-- Joins fields to fields, key by key. -/
def Fields.join (lower : Fields) : Fields → Fields
  | .nil | .heir _ => lower
  | .cons key value rest => Fields.join (lower.put key (Value.joinedTo (lower.get? key) value)) rest

end

/-- Fields for the items of a list, under their numbers from `number` on. -/
def Fields.ofItems (number : Nat) : List Value → Fields
  | [] => .nil
  | item :: rest => .cons (Text.ofNat number) item (Fields.ofItems (number + 1) rest)

/-- The fields that a value contributes when it is imported: a list has its items under their
numbers, and a text its units. Where there is no value, nothing can be imported. -/
def Value.contribution : Value → Except Fault Fields
  | .absent | .null => .error (.file .nothing)
  | .flag _ | .number _ => .ok .nil
  | .text value => .ok (.ofItems 0 (value.map fun unit => .text [unit]))
  | .list items => .ok (.ofItems 0 items)
  | .record fields => .ok fields

/-- The fields without the one under a key. -/
def Fields.erase (key : Text) : Fields → Fields
  | .nil => .nil
  | .heir parent => .heir parent
  | .cons k value rest => if k = key then rest.erase key else .cons k value (rest.erase key)

namespace FileTree

/-- The key that imports. -/
def importKey : Text := Text.ofString "$import"

/-- What keeps a file from being used: some file is not there, or a fault. -/
inductive Obstacle where
  | missing
  | fault (cause : Fault)

/-- The values that name the imports of a value, and the fields beside them; none if it imports
nothing at all. -/
def imports? : Value → Option (List Value × Fields)
  | .record fields =>
    match fields.get? importKey with
    | some (.list items) => some (items, fields.erase importKey)
    | some value => some ([value], fields.erase importKey)
    | none => none
  | _ => none

/-- The file that an import from a directory names; none if it lies outside of the tree. -/
def target? (directory : Location) (written : Text) : Option Location :=
  if written.head? = some 47 then none else Location.resolve? directory written

/-- The file that a file imports by a value. `chain` holds the files that led here, the importing
one last, and none of them may be imported again. -/
def checkImport (path : Location) (chain : List Location) : Value → Except Fault (Option Location)
  | .text written =>
    match target? path.dropLast written with
    | none => .ok none
    | some target =>
      if target = path then
        .error (.file (.selfImport path.text))
      else if target ∈ chain then
        .error (.file (.circularImport ((chain ++ [target]).map Location.text)
          (chain.idxOf target + 1)))
      else
        .ok (some target)
  | _ => .error (.file (.badImport path.text))

/-- Joins the fields that imported values contribute, the first lowest. -/
def joinAll (lower : Fields) : List Value → Except Fault Fields
  | [] => .ok lower
  | value :: rest => do joinAll (lower.join (← value.contribution)) rest

/-- A result whose fault keeps a file from being used. -/
def orObstacle {α : Type} : Except Fault α → Except Obstacle α
  | .ok value => .ok value
  | .error cause => .error (.fault cause)

/-- The value of a file with what it imports. `chain` holds the files that led here. Since no file
occurs twice on a chain, `fuel` need not exceed the number of files by more than one. -/
def load (files : FileTree)
    : (fuel : Nat) → (chain : List Location) → Location → Except Obstacle Value
  | 0, _, _ => .error (.fault .stuck)
  | fuel + 1, chain, path => do
    let some content := files.content? path | .error .missing
    let value ← orObstacle (valueIn path.fileName content)
    let some (names, own) := imports? value | return value
    let chain := chain ++ [path]
    let targets ← orObstacle (names.mapM (checkImport path chain))
    let bases ← targets.mapM fun
      | some target => load files fuel chain target
      | none => .error .missing
    let fields ← orObstacle (joinAll .nil bases)
    return .record (fields.join own)

/-- The value of the file at a path with what it imports. -/
def valueAt (files : FileTree) (path : Location) : Except Obstacle Value :=
  files.load (files.length + 1) [] path

end FileTree

end StagedParser
