import StagedParser.Value.Inheritance

/-!
Settings form a tree: records inside records, addressed by paths of keys. Values are read and
written by path, and one tree is laid over another key by key. Keys are looked up with what records
inherit and assigned through the gate, while a layer is only given by the fields of its own.
-/

namespace StagedParser

/-- What is seen at a path. What is missing, or lies beyond something that is no record, is absent.
-/
def Seen.getPath : Seen → List Text → Seen
  | seen, [] => seen
  | seen, key :: rest => (seen.read key).getPath rest

/-- What is seen at a path that starts at a value. -/
def Value.getPath (value : Value) (path : List Text) : Seen :=
  Seen.getPath value path

/-- Puts a value at a path. A record on the way is changed in its place, even if it is inherited, and
where there is none a new one is assigned. A path through the gate of a record that inherits from the
root leads out of the record and changes nothing in it. -/
def Fields.putPath (fields : Fields) (path : List Text) (value : Value) : Fields :=
  match path with
  | [] => fields
  | [key] => fields.assign key value
  | key :: next :: rest =>
    let created : Value := .record (Fields.nil.putPath (next :: rest) value)
    match fields.property key with
    | .value (.record _) => fields.changeAt key (·.putPath (next :: rest) value)
    | .gate =>
      match fields.parent with
      | .value (.record inner) =>
        fields.withParent (.record (inner.putPath (next :: rest) value))
      | .root => fields
      | _ => fields.assign key created
    | _ => fields.assign key created

mutual

/-- A value laid over what was seen in its place: two records are merged, anything else replaces. -/
def Value.over (below : Seen) : Value → Value
  | .record upper =>
    match below.fields? with
    | some lower => .record (lower.own.overlay upper)
    | none => .record upper
  | value => value

/-- Assigns fields one by one, each laid over what was seen in its place. -/
def Fields.overlay (lower : Fields) : Fields → Fields
  | .nil | .heir _ => lower
  | .cons key value rest =>
    Fields.overlay (lower.assign key (Value.over (lower.read key) value)) rest

end

/-- Lays fields over the own fields of another record, key by key. -/
def Fields.merge (lower upper : Fields) : Fields :=
  lower.own.overlay upper

/-- The keys of a dotted path. -/
def keysOfPath (path : Text) : List Text :=
  path.splitOn (Text.ofString ".")

end StagedParser
