import StagedParser.Proofs.Settings.Priority

/-! Values put at a path.
A path without the key of the gate is followed from record to record, and what its first key shows
afterwards is what the rest of the path does there. In records that inherit from the root this can be
told by their own keys: a value that was put at a path is found there, all that other paths lead to
stays if they part from it somewhere, and a path that ends at something other than a record is the path
of the value or ended so before.
-/

namespace StagedParser

/-- Two paths part ways: neither of them is a part of the way along the other. -/
def Diverge (path other : List Text) : Prop :=
  ¬ path <+: other ∧ ¬ other <+: path

/-- Parting ways is mutual. -/
theorem Diverge.symm {path other : List Text} (diverge : Diverge path other) : Diverge other path :=
  ⟨diverge.2, diverge.1⟩

/-- No path parts from the empty one, which all paths begin with. -/
theorem Diverge.ne_nil {path other : List Text} (diverge : Diverge path other) : path ≠ [] := by
  rintro rfl
  exact diverge.1 List.nil_prefix

/-- Paths part ways at their first keys or after them. -/
theorem diverge_cons {key first : Text} {rest more : List Text}
    : Diverge (key :: rest) (first :: more) ↔ key ≠ first ∨ Diverge rest more := by
  by_cases same : key = first
  · simp [Diverge, List.cons_prefix_cons, same]
  · simp [Diverge, List.cons_prefix_cons, same, Ne.symm same]

namespace Fields

-----------------------------------------------------------------------------------------
-- What a first key shows
-----------------------------------------------------------------------------------------

/-- The fields of the record that is seen under a key; none if no record is. -/
def shown (fields : Fields) (key : Text) : Fields :=
  (fields.read key).fields?.getD .nil

/-- What is seen under the first key of a path after a value was put there. -/
def shownAfter (fields : Fields) (key : Text) (value : Value) : (rest : List Text) → Value
  | [] => value
  | next :: rest => .record ((fields.shown key).putPath (next :: rest) value)

/-- How a value comes to be at a path of two keys or more, away from the gate: a record under the first
key is changed in its place, and where there is none a new one is put. -/
theorem putPath_cases (fields : Fields) {key : Text} (ordinary : key ≠ gateKey) (next : Text)
    (rest : List Text) (value : Value)
    : (∃ inner,
        fields.property key = .value (.record inner)
        ∧ fields.shown key = inner
        ∧ fields.putPath (key :: next :: rest) value
          = fields.changeAt key (·.putPath (next :: rest) value))
      ∨ fields.shown key = .nil
        ∧ (∀ inner, fields.property key ≠ .value (.record inner))
        ∧ fields.putPath (key :: next :: rest) value
          = fields.put key (.record (Fields.nil.putPath (next :: rest) value)) := by
  rw [putPath, shown, read]
  cases found : fields.property key with
  | missing | method name =>
      refine .inr ⟨rfl, fun _ same => ?_, fields.assign_of_ne ordinary _⟩
      cases same
  | gate => exact absurd (eq_gateKey_of_property found) ordinary
  | value held =>
      cases held with
      | record inner => exact .inl ⟨inner, rfl, rfl, rfl⟩
      | absent | null | flag | number | text | list =>
          refine .inr ⟨rfl, fun _ same => ?_, fields.assign_of_ne ordinary _⟩
          cases same

/-- At a path of one key, putting is putting under that key. -/
theorem putPath_singleton (fields : Fields) {key : Text} (ordinary : key ≠ gateKey) (value : Value)
    : fields.putPath [key] value = fields.put key value := by
  rw [putPath, assign_of_ne fields ordinary]

/-- Under the first key of the path the record shows what was made of it, by whether there was one
to change. -/
theorem read_putPath_self (fields : Fields) {key : Text} (ordinary : key ≠ gateKey)
    (rest : List Text) (value : Value)
    : (fields.putPath (key :: rest) value).read key = fields.shownAfter key value rest := by
  cases rest with
  | nil => rw [putPath_singleton fields ordinary, read_put_self, shownAfter]
  | cons next more =>
      rcases fields.putPath_cases ordinary next more value with
        ⟨inner, found, shown, changed⟩ | ⟨shown, _, created⟩
      · rw [changed, read, property_changeAt_self _ found, shownAfter, shown, Property.seen]
      · rw [created, read_put_self, shownAfter, shown]

/-- A change that starts under one key is not seen under another. The gate shows the parent, which may
have changed, unless it is the root. -/
theorem read_putPath_of_ne (fields : Fields) {key other : Text} (ordinary : key ≠ gateKey)
    (differ : key ≠ other) (visible : other ≠ gateKey ∨ fields.parent = .root) (rest : List Text)
    (value : Value)
    : (fields.putPath (key :: rest) value).read other = fields.read other := by
  cases rest with
  | nil => rw [putPath_singleton fields ordinary, read_put_of_ne fields value differ]
  | cons next more =>
      rcases fields.putPath_cases ordinary next more value with
        ⟨inner, found, _, changed⟩ | ⟨_, _, created⟩
      · rw [changed, read, read, property_changeAt_of_ne _ differ]
        rcases visible with noGate | rooted
        · cases property : fields.property other with
          | gate => exact absurd (eq_gateKey_of_property property) noGate
          | missing | value | method => rfl
        · rw [parent_changeAt _ rooted, rooted]
      · rw [created, read_put_of_ne fields _ differ]

/-- A value is found where it was put, by induction on the path. -/
theorem getPath_putPath_self (fields : Fields) {path : List Text} (somewhere : path ≠ [])
    (ordinary : gateKey ∉ path) (value : Value)
    : (Value.record (fields.putPath path value)).getPath path = value := by
  induction path generalizing fields with
  | nil => exact absurd rfl somewhere
  | cons key rest ih =>
      obtain ⟨here, later⟩ := not_or.mp (mt List.mem_cons.mpr ordinary)
      rw [Value.getPath_cons, read_putPath_self fields (Ne.symm here)]
      cases rest with
      | nil => rfl
      | cons next more => exact ih (fields.shown key) (List.cons_ne_nil next more) later

-----------------------------------------------------------------------------------------
-- Own keys
-----------------------------------------------------------------------------------------

/-- The fields of the record that a record has itself under a key; none if there is no record. -/
def inner (fields : Fields) (key : Text) : Fields :=
  match fields.get? key with
  | some (.record inner) => inner
  | _ => .nil

/-- Puts a value at a path by the own keys of records. -/
def graft (fields : Fields) (path : List Text) (value : Value) : Fields :=
  match path with
  | [] => fields
  | [key] => fields.put key value
  | key :: next :: rest => fields.put key (.record ((fields.inner key).graft (next :: rest) value))

/-- What stands under the first key of a path after a value was put there by own keys. -/
def under (fields : Fields) (key : Text) (value : Value) : (rest : List Text) → Value
  | [] => value
  | next :: rest => .record ((fields.inner key).graft (next :: rest) value)

/-- Grafting puts under the first key what the rest of the path makes there. -/
theorem graft_cons (fields : Fields) (key : Text) (rest : List Text) (value : Value)
    : fields.graft (key :: rest) value = fields.put key (fields.under key value rest) := by
  cases rest <;> rfl

/-- The record inside is the one that is held, or an empty one. -/
theorem inner_eq (fields : Fields) (key : Text)
    : fields.inner key = ((fields.get? key).bind Value.fields?).getD .nil := by
  rw [inner]
  rcases fields.get? key with _ | (_ | _ | _ | _ | _ | _ | inside) <;> rfl

/-- The record inside a rooted one is rooted. -/
theorem isRooted_inner {fields : Fields} (rooted : fields.IsRooted) (key : Text)
    : (fields.inner key).IsRooted := by
  rw [inner]
  split
  · next inside held => exact rooted.of_get? held
  · trivial

/-- Records that inherit from the root show the records that they have themselves. -/
theorem shown_eq_inner {fields : Fields} (rooted : fields.parent = .root) {key : Text}
    (ordinary : key ≠ gateKey)
    : fields.shown key = fields.inner key := by
  rw [shown, inner_eq]
  cases held : fields.get? key with
  | some value => rw [read_of_get? held]; rfl
  | none =>
      cases seen : (fields.read key).fields? with
      | none => rfl
      | some inside => cases held.symm.trans (get?_of_read_fields? rooted ordinary seen)

/-- In records that inherit from the root, a value is put at a path by their own keys. By induction on
the path. -/
theorem putPath_eq_graft {fields : Fields} (rooted : fields.IsRooted) {path : List Text}
    (ordinary : gateKey ∉ path) (value : Value)
    : fields.putPath path value = fields.graft path value := by
  induction path generalizing fields with
  | nil => rfl
  | cons key rest ih =>
      obtain ⟨here, later⟩ := not_or.mp (mt List.mem_cons.mpr ordinary)
      replace here := Ne.symm here
      cases rest with
      | nil => exact putPath_singleton fields here value
      | cons next more =>
          have shownInner := shown_eq_inner rooted.parent here
          rcases fields.putPath_cases here next more value with
            ⟨inside, found, shown, changed⟩ | ⟨shown, _, created⟩
          · have held : fields.get? key = some (.record inside) := by
              refine get?_of_read_fields? rooted.parent here ?_
              rw [read, found]
              rfl
            rw [changed, changeAt_of_get? _ held, Value.changeFields, graft, ← shownInner, shown,
              ih (rooted.of_get? held) later]
          · rw [created, graft, ← shownInner, shown, ih isRooted_nil later]

/-- Grafting a rooted value keeps a record rooted, by induction on the path. -/
theorem IsRooted.graft {fields : Fields} (rooted : fields.IsRooted) (path : List Text) {value : Value}
    (rootedValue : value.IsRooted)
    : (fields.graft path value).IsRooted := by
  induction path generalizing fields with
  | nil => exact rooted
  | cons key rest ih =>
      cases rest with
      | nil => exact rooted.put key rootedValue
      | cons next more => exact rooted.put key (ih (isRooted_inner rooted key))

-----------------------------------------------------------------------------------------
-- The record under a key
-----------------------------------------------------------------------------------------

/-- A path through a key that was put goes on in its value. -/
theorem touch_put_self (fields : Fields) (key : Text) (value : Value) (rest : List Text)
    : (fields.put key value).touch (key :: rest) = value.touch rest :=
  touch_of_get? (get?_put_self fields key value) rest

/-- A path through another key goes where it went. -/
theorem touch_put_of_ne (fields : Fields) {key other : Text} (differ : key ≠ other) (value : Value)
    (rest : List Text)
    : (fields.put key value).touch (other :: rest) = fields.touch (other :: rest) := by
  simp only [touch, Value.touch, get?_put_of_ne _ _ differ]

/-- A record that was put is the one inside. -/
theorem inner_put_self (fields inside : Fields) (key : Text)
    : (fields.put key (.record inside)).inner key = inside := by
  simp only [inner, get?_put_self]

/-- Inside another key is what was there. -/
theorem inner_put_of_ne (fields : Fields) {key other : Text} (differ : key ≠ other) (value : Value)
    : (fields.put key value).inner other = fields.inner other := by
  simp only [inner, get?_put_of_ne _ _ differ]

/-- What is made under another key does not depend on what was put. -/
theorem under_put_of_ne (fields : Fields) {key other : Text} (differ : key ≠ other) (given value : Value)
    (rest : List Text)
    : (fields.put key given).under other value rest = fields.under other value rest := by
  cases rest with
  | nil => rfl
  | cons next more => rw [under, under, inner_put_of_ne fields differ]

/-- What is defined beyond a first key is defined in the record under it. -/
theorem touch_inner_of_defines {fields : Fields} {key next : Text} {rest : List Text} {found : Value}
    (defines : fields.touch (key :: next :: rest) = .defines found)
    : (fields.inner key).touch (next :: rest) = .defines found := by
  rw [touch, Value.touch] at defines
  rw [inner]
  generalize fields.get? key = held at defines ⊢
  rcases held with _ | (_ | _ | _ | _ | _ | _ | inside)
  case some.record => exact defines
  all_goals cases defines

/-- A leaf of the record under a key is a leaf of the whole. -/
theorem touch_of_touch_inner {fields : Fields} {key : Text} {path : List Text} {found : Value}
    (leaf : found.fields? = none) (defines : (fields.inner key).touch path = .defines found)
    : fields.touch (key :: path) = .defines found := by
  cases path with
  | nil =>
      cases defines
      cases leaf
  | cons next rest =>
      rw [inner] at defines
      rw [touch, Value.touch]
      generalize fields.get? key = held at defines ⊢
      rcases held with _ | (_ | _ | _ | _ | _ | _ | inside)
      case some.record => exact defines
      all_goals cases defines

-----------------------------------------------------------------------------------------
-- Whole paths
-----------------------------------------------------------------------------------------

/-- A value is defined where it was put, by induction on the path. -/
theorem touch_graft_self (fields : Fields) {path : List Text} (somewhere : path ≠ []) (value : Value)
    : (fields.graft path value).touch path = .defines value := by
  induction path generalizing fields with
  | nil => exact absurd rfl somewhere
  | cons key rest ih =>
      rw [graft_cons, touch_put_self]
      cases rest with
      | nil => rfl
      | cons next more => exact ih (fields.inner key) (List.cons_ne_nil next more)

/-- What is defined on a path that parts from the one of a new value stays, by induction up to the keys
where they part. -/
theorem touch_graft_of_diverge {fields : Fields} {path other : List Text}
    (diverge : Diverge path other) (value : Value) {found : Value}
    (defines : fields.touch other = .defines found)
    : (fields.graft path value).touch other = .defines found := by
  induction path generalizing fields other with
  | nil => exact absurd rfl diverge.ne_nil
  | cons key rest ih =>
      obtain ⟨first, more, rfl⟩ := List.exists_cons_of_ne_nil diverge.symm.ne_nil
      rw [graft_cons]
      by_cases same : key = first
      · subst same
        have later : Diverge rest more := (diverge_cons.mp diverge).resolve_left (absurd rfl)
        obtain ⟨next, further, rfl⟩ := List.exists_cons_of_ne_nil later.ne_nil
        obtain ⟨second, beyond, rfl⟩ := List.exists_cons_of_ne_nil later.symm.ne_nil
        rw [touch_put_self, under]
        exact ih later (touch_inner_of_defines defines)
      · rw [touch_put_of_ne fields same]
        exact defines

/-- A leaf that is there after a plain value was put at a path is the value, or was there before. -/
theorem leaf_of_graft {fields : Fields} {path other : List Text} {value found : Value}
    (plain : value.fields? = none) (leaf : found.fields? = none)
    (defines : (fields.graft path value).touch other = .defines found)
    : other = path ∨ fields.touch other = .defines found := by
  induction path generalizing fields other with
  | nil => exact .inr defines
  | cons key rest ih =>
      cases other with
      | nil =>
          cases defines
          cases leaf
      | cons first more =>
          rw [graft_cons] at defines
          by_cases same : key = first
          · subst same
            rw [touch_put_self] at defines
            cases rest with
            | nil =>
                -- The value ends the path, since nothing lies beyond it.
                cases more with
                | nil => exact .inl rfl
                | cons next further =>
                    rw [under, Value.touch_cons_of_plain plain] at defines
                    cases defines
            | cons next further =>
                rcases ih defines with along | before
                · exact .inl (congrArg (key :: ·) along)
                · exact .inr (touch_of_touch_inner leaf before)
          · rw [touch_put_of_ne fields same] at defines
            exact .inr defines

end Fields

end StagedParser
