import StagedParser.Number.Shortest

/-!
Values: what a match yields and what a setting holds. A record keeps its fields in the order in
which their keys were first put. What it lacks it inherits: from the root of all records, or from a
parent that it was given in place of the root.
-/

namespace StagedParser

mutual

/-- A value. `absent` is the value of something never given, apart from an explicit `null`. -/
inductive Value where
  | absent
  | null
  | flag (value : Bool)
  | number (value : Number)
  | text (value : Text)
  | list (items : List Value)
  | record (fields : Fields)

/-- The fields of a record, in order. -/
inductive Fields where
  /-- No more fields, in a record that inherits from the root. -/
  | nil
  /-- No more fields, in a record that inherits from a parent of its own. -/
  | heir (parent : Value)
  | cons (key : Text) (value : Value) (rest : Fields)

end

instance : Inhabited Value := ⟨.absent⟩

instance : Inhabited Fields := ⟨.nil⟩

namespace Fields

/-- The value under a key, if the record itself has the key. -/
def get? (key : Text) : Fields → Option Value
  | .nil | .heir _ => none
  | .cons k value rest => if k = key then some value else get? key rest

/-- Puts a value under a key: in the key's place if it is there, else at the end. -/
def put (key : Text) (value : Value) : Fields → Fields
  | .nil => .cons key value .nil
  | .heir parent => .cons key value (.heir parent)
  | .cons k old rest =>
    if k = key then .cons k value rest else .cons k old (put key value rest)

/-- The keys and values, in order. -/
def toList : Fields → List (Text × Value)
  | .nil | .heir _ => []
  | .cons key value rest => (key, value) :: rest.toList

/-- The fields that result from putting the given ones one after another. -/
def ofList (fields : List (Text × Value)) : Fields :=
  fields.foldl (fun done field => done.put field.1 field.2) .nil

end Fields

namespace Value

/-- The fields of a record value; any other value has none. -/
def fields? : Value → Option Fields
  | .record fields => some fields
  | _ => none

/-- Whether a value counts as true in a condition. -/
def isTruthy : Value → Bool
  | .absent | .null => false
  | .flag value => value
  | .number value => value ≠ 0 && value ≠ .nan
  | .text value => !value.isEmpty
  | .list _ | .record _ => true

/-- The name of a value's type. -/
def typeName : Value → Text
  | .absent => Text.ofString "undefined"
  | .flag _ => Text.ofString "boolean"
  | .number _ => Text.ofString "number"
  | .text _ => Text.ofString "string"
  | .null | .list _ | .record _ => Text.ofString "object"

mutual

/-- The text of a value inside a message. A list shows its items with commas between them. -/
def display : Value → Text
  | .absent => Text.ofString "undefined"
  | .null => Text.ofString "null"
  | .flag value => Text.ofString (if value then "true" else "false")
  | .number value => value.text
  | .text value => value
  | .list items => displayItems items
  | .record _ => Text.ofString "[object Object]"

/-- The texts of a list's items with commas between them; an absent or null item shows nothing. -/
def displayItems : List Value → Text
  | [] => []
  | item :: rest =>
    let shown :=
      match item with
      | .absent | .null => []
      | _ => display item
    match rest with
    | [] => shown
    | _ :: _ => shown ++ Text.ofString "," ++ displayItems rest

end

end Value

end StagedParser
