import StagedParser.Value

/-!
What records inherit. A record that lacks a key has what its parent has under that key, and so on up
to the root of all records. The root has methods under some names and, under one more, a gate: by
reading it a record shows its parent, and by assigning to it a record gets another parent.
-/

namespace StagedParser

/-- The key of the gate. -/
def gateKey : Text := Text.ofString "__proto__"

/-- The names of the methods that the root has. -/
def rootMethods : List Text :=
  [ Text.ofString "constructor",
    Text.ofString "toString",
    Text.ofString "toLocaleString",
    Text.ofString "valueOf",
    Text.ofString "hasOwnProperty",
    Text.ofString "isPrototypeOf",
    Text.ofString "propertyIsEnumerable",
    Text.ofString "__defineGetter__",
    Text.ofString "__defineSetter__",
    Text.ofString "__lookupGetter__",
    Text.ofString "__lookupSetter__" ]

/-- The names under which every record that inherits from the root has something. -/
def inheritedNames : List Text :=
  gateKey :: rootMethods

/-- The names of the methods that lists have apart from those of the root. -/
def listMethods : List Text :=
  [ Text.ofString "at",
    Text.ofString "concat",
    Text.ofString "copyWithin",
    Text.ofString "entries",
    Text.ofString "every",
    Text.ofString "fill",
    Text.ofString "filter",
    Text.ofString "find",
    Text.ofString "findIndex",
    Text.ofString "findLast",
    Text.ofString "findLastIndex",
    Text.ofString "flat",
    Text.ofString "flatMap",
    Text.ofString "forEach",
    Text.ofString "includes",
    Text.ofString "indexOf",
    Text.ofString "join",
    Text.ofString "keys",
    Text.ofString "lastIndexOf",
    Text.ofString "map",
    Text.ofString "pop",
    Text.ofString "push",
    Text.ofString "reduce",
    Text.ofString "reduceRight",
    Text.ofString "reverse",
    Text.ofString "shift",
    Text.ofString "slice",
    Text.ofString "some",
    Text.ofString "sort",
    Text.ofString "splice",
    Text.ofString "toReversed",
    Text.ofString "toSorted",
    Text.ofString "toSpliced",
    Text.ofString "unshift",
    Text.ofString "values",
    Text.ofString "with" ]

-----------------------------------------------------------------------------------------
-- Looking up
-----------------------------------------------------------------------------------------

/-- The item that a key numbers, if the first item has the given number. -/
def Value.itemAt? (key : Text) (first : Nat) : List Value → Option Value
  | [] => none
  | item :: rest => if Text.ofNat first = key then some item else itemAt? key (first + 1) rest

/-- What is found under a key, on the way from a record up to the root. -/
inductive Property where
  | missing
  | value (held : Value)
  | method (name : Text)
  | gate

namespace Property

/-- What the root has under a key. -/
def ofRoot (key : Text) : Property :=
  if key = gateKey then .gate else if rootMethods.contains key then .method key else .missing

/-- What a list has under a key: an item under its number, and its length. -/
def ofList (items : List Value) (key : Text) : Property :=
  match Value.itemAt? key 0 items with
  | some item => .value item
  | none =>
    if key = Text.ofString "length" then .value (.number (Number.ofNat items.length))
    else if listMethods.contains key then .method key
    else ofRoot key

end Property

mutual

/-- What a parent has under a key. Null as a parent has nothing. -/
def Value.property (key : Text) : Value → Property
  | .record fields => fields.property key
  | .list items => .ofList items key
  | _ => .missing

/-- What a record has under a key, by itself or by inheritance. -/
def Fields.property (key : Text) : Fields → Property
  | .nil => .ofRoot key
  | .heir parent => parent.property key
  | .cons k value rest => if k = key then .value value else rest.property key

end

/-- What can be seen under a key: a value, a method, or the root of all records. -/
inductive Seen where
  | value (held : Value)
  | method (name : Text)
  | root

instance : Coe Value Seen := ⟨.value⟩

/-- Nothing to be seen. -/
abbrev Seen.absent : Seen := .value .absent

/-- What a property shows in a record with the given parent. -/
def Property.seen (parent : Seen) : Property → Seen
  | .missing => .absent
  | .value held => .value held
  | .method name => .method name
  | .gate => parent

namespace Fields

/-- The parent of a record. -/
def parent : Fields → Seen
  | .nil => .root
  | .heir parent => .value parent
  | .cons _ _ rest => rest.parent

/-- What a record shows under a key. -/
def read (fields : Fields) (key : Text) : Seen :=
  (fields.property key).seen fields.parent

end Fields

namespace Seen

/-- The fields of what counts as a record. The root has none that are its own to give. -/
def fields? : Seen → Option Fields
  | .value held => held.fields?
  | .method _ => none
  | .root => some .nil

/-- What is seen under a key. Only records and the root show anything. -/
def read (seen : Seen) (key : Text) : Seen :=
  match seen with
  | .value (.record fields) => fields.read key
  | .root => (Property.ofRoot key).seen (.value .null)
  | _ => .absent

/-- Whether what is seen counts as true in a condition. -/
def isTruthy : Seen → Bool
  | .value held => held.isTruthy
  | .method _ | .root => true

end Seen

-----------------------------------------------------------------------------------------
-- Assigning
-----------------------------------------------------------------------------------------

/-- Whether a record can inherit from a value. -/
def Value.isParent : Value → Bool
  | .null | .list _ | .record _ => true
  | _ => false

/-- A value with its fields changed, if it is a record. -/
def Value.changeFields (change : Fields → Fields) : Value → Value
  | .record fields => .record (change fields)
  | value => value

/-- The items with the fields changed of the one that a key numbers. -/
def Value.changeItem (key : Text) (change : Fields → Fields) (first : Nat)
    : List Value → List Value
  | [] => []
  | item :: rest =>
    if Text.ofNat first = key then item.changeFields change :: rest
    else item :: changeItem key change (first + 1) rest

namespace Fields

/-- The fields of a record itself, in a record that inherits from the root. -/
def own : Fields → Fields
  | .nil | .heir _ => .nil
  | .cons key value rest => .cons key value rest.own

/-- The fields of a record with another parent. -/
def withParent (parent : Value) : Fields → Fields
  | .nil | .heir _ => .heir parent
  | .cons key value rest => .cons key value (rest.withParent parent)

/-- Assigns a value to a key. At the gate the value becomes the parent, or is ignored if it cannot
be one; otherwise it is put among the fields of the record itself, whatever is inherited there. -/
def assign (fields : Fields) (key : Text) (value : Value) : Fields :=
  match fields.property key with
  | .gate => if value.isParent then fields.withParent value else fields
  | _ => fields.put key value

end Fields

mutual

/-- Changes the record that a parent has under a key. -/
def Value.changeAt (key : Text) (change : Fields → Fields) : Value → Value
  | .record fields => .record (fields.changeAt key change)
  | .list items => .list (Value.changeItem key change 0 items)
  | value => value

/-- Changes the record under a key in its place, which may be in a parent. -/
def Fields.changeAt (key : Text) (change : Fields → Fields) : Fields → Fields
  | .nil => .nil
  | .heir parent => .heir (parent.changeAt key change)
  | .cons k value rest =>
    if k = key then .cons k (value.changeFields change) rest
    else .cons k value (rest.changeAt key change)

end

end StagedParser
