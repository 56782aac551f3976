import StagedParser.Settings.Tree

/-! Looking up keys after they were assigned, changed or merged.
A key of the record itself hides what is inherited under it. Apart from the gate, assigning to a key is
putting it, and a record that is found under a key can be changed in its place; either way nothing else
is seen to change. Fields laid over others are found key by key: what is laid over is seen where the
upper fields have nothing.
-/

namespace StagedParser

namespace Fields

-----------------------------------------------------------------------------------------
-- Single keys
-----------------------------------------------------------------------------------------

/-- Induction along the fields of one record, not into the values. -/
@[elab_as_elim, induction_eliminator]
theorem induct {motive : Fields → Prop} (nil : motive .nil) (heir : ∀ parent, motive (.heir parent))
    (cons : ∀ key value rest, motive rest → motive (.cons key value rest))
    : (fields : Fields) → motive fields
  | .nil => nil
  | .heir parent => heir parent
  | .cons key value rest => cons key value rest (induct nil heir cons rest)

/-- What was put under a key is held there, by induction on the fields. -/
theorem get?_put_self (fields : Fields) (key : Text) (value : Value)
    : (fields.put key value).get? key = some value := by
  induction fields with
  | nil => simp [put, get?]
  | heir parent => simp [put, get?]
  | cons first old rest ih =>
      by_cases same : first = key
      · simp [put, get?, same]
      · simp [put, get?, same, ih]

/-- Under another key a record holds what it held, by induction on the fields. -/
theorem get?_put_of_ne (fields : Fields) {key other : Text} (value : Value) (differ : key ≠ other)
    : (fields.put key value).get? other = fields.get? other := by
  induction fields with
  | nil => simp [put, get?, differ]
  | heir parent => simp [put, get?, differ]
  | cons first old rest ih =>
      by_cases same : first = key
      · simp [put, get?, same, differ]
      · simp [put, get?, same, ih]

/-- The second value put under a key replaces the first, by induction on the fields. -/
theorem put_put_self (fields : Fields) (key : Text) (value held : Value)
    : (fields.put key value).put key held = fields.put key held := by
  induction fields with
  | nil => simp [put]
  | heir parent => simp [put]
  | cons first old rest ih =>
      by_cases same : first = key
      · simp [put, same]
      · simp [put, same, ih]

/-- What the record itself has under a key is found there. -/
theorem property_of_get? {fields : Fields} {key : Text} {value : Value}
    (found : fields.get? key = some value)
    : fields.property key = .value value := by
  induction fields with
  | nil => cases found
  | heir parent => cases found
  | cons first old rest ih =>
      by_cases same : first = key
      · simp_all [get?, property]
      · simp_all [get?, property]

/-- What a record lacks that inherits from the root is up to the root. -/
theorem property_of_lacking {fields : Fields} {key : Text} (rooted : fields.parent = .root)
    (lacks : fields.get? key = none)
    : fields.property key = .ofRoot key := by
  induction fields with
  | nil => rw [property]
  | heir parent => cases rooted
  | cons first old rest ih =>
      by_cases same : first = key
      · simp [get?, same] at lacks
      · rw [get?, if_neg same] at lacks
        rw [property, if_neg same]
        exact ih rooted lacks

/-- What was put under a key is found there, whatever is inherited. -/
theorem property_put_self (fields : Fields) (key : Text) (value : Value)
    : (fields.put key value).property key = .value value :=
  property_of_get? (get?_put_self fields key value)

/-- Under another key the same is found as before, by induction on the fields. -/
theorem property_put_of_ne (fields : Fields) {key other : Text} (value : Value) (differ : key ≠ other)
    : (fields.put key value).property other = fields.property other := by
  induction fields with
  | nil => simp [put, property, differ]
  | heir parent => simp [put, property, differ]
  | cons first old rest ih =>
      by_cases same : first = key
      · simp [put, property, same, differ]
      · simp [put, property, same, ih]

/-- Putting changes no parent. -/
@[simp] theorem parent_put (fields : Fields) (key : Text) (value : Value)
    : (fields.put key value).parent = fields.parent := by
  induction fields with
  | nil => rfl
  | heir parent => rfl
  | cons first old rest ih =>
      by_cases same : first = key
      · simp [put, parent, same]
      · simp [put, parent, same, ih]

/-- A record shows what it holds itself. -/
theorem read_of_get? {fields : Fields} {key : Text} {value : Value}
    (found : fields.get? key = some value)
    : fields.read key = value := by
  rw [read, property_of_get? found, Property.seen]

/-- What was put under a key is seen there. -/
theorem read_put_self (fields : Fields) (key : Text) (value : Value)
    : (fields.put key value).read key = value :=
  read_of_get? (get?_put_self fields key value)

/-- Under another key the same is seen as before. -/
theorem read_put_of_ne (fields : Fields) {key other : Text} (value : Value) (differ : key ≠ other)
    : (fields.put key value).read other = fields.read other := by
  rw [read, read, property_put_of_ne fields value differ, parent_put]

end Fields

-----------------------------------------------------------------------------------------
-- The gate
-----------------------------------------------------------------------------------------

/-- The root has nothing under a name that is not an inherited one. -/
theorem Property.ofRoot_of_notMem {key : Text} (strange : key ∉ inheritedNames)
    : ofRoot key = .missing := by
  obtain ⟨ordinary, noMethod⟩ := not_or.mp (mt List.mem_cons.mpr strange)
  rw [ofRoot, if_neg ordinary, if_neg (mt List.contains_iff_mem.mp noMethod)]

/-- The root has its gate under one key only. -/
theorem Property.eq_gateKey_of_ofRoot {key : Text} (gate : ofRoot key = .gate) : key = gateKey := by
  rw [ofRoot] at gate
  split at gate
  · assumption
  · split at gate <;> cases gate

mutual

/-- The gate is found under its key only, by induction on the parents up to the root. -/
theorem Value.eq_gateKey_of_property {key : Text} {value : Value} (gate : value.property key = .gate)
    : key = gateKey := by
  match value with
  | .record fields => exact Fields.eq_gateKey_of_property (by rwa [Value.property] at gate)
  | .list items =>
      rw [Value.property, Property.ofList] at gate
      split at gate
      · cases gate
      · split at gate
        · cases gate
        · split at gate
          · cases gate
          · exact Property.eq_gateKey_of_ofRoot gate
  | .absent | .null | .flag _ | .number _ | .text _ =>
      rw [Value.property] at gate
      · cases gate
      all_goals nofun

/-- A record finds its gate under that key only, by induction on the fields. -/
theorem Fields.eq_gateKey_of_property {key : Text} {fields : Fields}
    (gate : fields.property key = .gate)
    : key = gateKey := by
  match fields with
  | .nil => exact Property.eq_gateKey_of_ofRoot (by rwa [Fields.property] at gate)
  | .heir parent => exact Value.eq_gateKey_of_property (by rwa [Fields.property] at gate)
  | .cons first old rest =>
      rw [Fields.property] at gate
      split at gate
      · cases gate
      · exact Fields.eq_gateKey_of_property gate

end

namespace Fields

/-- Away from the gate, to assign is to put. -/
theorem assign_of_ne (fields : Fields) {key : Text} (ordinary : key ≠ gateKey) (value : Value)
    : fields.assign key value = fields.put key value := by
  rw [assign]
  split
  · next gate => exact absurd (eq_gateKey_of_property gate) ordinary
  · rfl

end Fields

-----------------------------------------------------------------------------------------
-- Changes in place
-----------------------------------------------------------------------------------------

section Change

variable {key other : Text} (change : Fields → Fields)

namespace Value

/-- Two changes of the fields of a value are one change. -/
theorem changeFields_changeFields (further : Fields → Fields) (value : Value)
    : (value.changeFields change).changeFields further = value.changeFields (further ∘ change) := by
  cases value <;> rfl

/-- The item that a key numbers is the changed one, by induction on the items. -/
theorem itemAt?_changeItem_self (number : Nat) (items : List Value)
    : itemAt? key number (changeItem key change number items)
      = (itemAt? key number items).map (changeFields change) := by
  induction items generalizing number with
  | nil => rfl
  | cons item rest ih =>
      by_cases same : Text.ofNat number = key
      · simp [changeItem, itemAt?, same]
      · simp [changeItem, itemAt?, same, ih]

/-- Another key numbers the item that it numbered, by induction on the items. -/
theorem itemAt?_changeItem_of_ne (differ : key ≠ other) (number : Nat) (items : List Value)
    : itemAt? other number (changeItem key change number items) = itemAt? other number items := by
  induction items generalizing number with
  | nil => rfl
  | cons item rest ih =>
      by_cases same : Text.ofNat number = key
      · simp [changeItem, itemAt?, same, differ]
      · simp [changeItem, itemAt?, same, ih]

/-- Changing an item keeps their number. -/
theorem length_changeItem (number : Nat) (items : List Value)
    : (changeItem key change number items).length = items.length := by
  induction items generalizing number with
  | nil => rfl
  | cons item rest ih =>
      by_cases same : Text.ofNat number = key
      · simp [changeItem, same]
      · simp [changeItem, same, ih]

/-- Two changes of one item are one change, by induction on the items. -/
theorem changeItem_changeItem (further : Fields → Fields) (number : Nat) (items : List Value)
    : changeItem key further number (changeItem key change number items)
      = changeItem key (further ∘ change) number items := by
  induction items generalizing number with
  | nil => rfl
  | cons item rest ih =>
      by_cases same : Text.ofNat number = key
      · simp [changeItem, same, changeFields_changeFields]
      · simp [changeItem, same, ih]

end Value

mutual

/-- A record that a parent has under a key is changed there, by induction on the parents. -/
theorem Value.property_changeAt_self {value : Value} {inner : Fields}
    (found : value.property key = .value (.record inner))
    : (value.changeAt key change).property key = .value (.record (change inner)) := by
  match value with
  | .record fields =>
      rw [Value.property] at found
      rw [Value.changeAt, Value.property]
      exact Fields.property_changeAt_self found
  | .list items =>
      rw [Value.property, Property.ofList] at found
      rw [Value.changeAt, Value.property, Property.ofList, Value.itemAt?_changeItem_self]
      cases held : Value.itemAt? key 0 items with
      | some item =>
          simp only [held] at found
          cases found
          rfl
      | none =>
          simp only [held, Property.ofRoot] at found
          split at found
          · cases found
          · repeat' split at found
            all_goals cases found
  | .absent | .null | .flag _ | .number _ | .text _ =>
      rw [Value.property] at found
      · cases found
      all_goals nofun

/-- A record that is found under a key is changed there, wherever it comes from. -/
theorem Fields.property_changeAt_self {fields inner : Fields}
    (found : fields.property key = .value (.record inner))
    : (fields.changeAt key change).property key = .value (.record (change inner)) := by
  match fields with
  | .nil =>
      rw [Fields.property, Property.ofRoot] at found
      repeat' split at found
      all_goals cases found
  | .heir parent =>
      rw [Fields.property] at found
      rw [Fields.changeAt, Fields.property]
      exact Value.property_changeAt_self found
  | .cons first old rest =>
      rw [Fields.property] at found
      rw [Fields.changeAt]
      by_cases same : first = key
      · rw [if_pos same] at found ⊢
        cases found
        rw [Fields.property, if_pos same]
        rfl
      · rw [if_neg same] at found ⊢
        rw [Fields.property, if_neg same]
        exact Fields.property_changeAt_self found

end

mutual

/-- A change under one key is not seen under another, by induction on the parents. -/
theorem Value.property_changeAt_of_ne (differ : key ≠ other) (value : Value)
    : (value.changeAt key change).property other = value.property other := by
  match value with
  | .record fields =>
      rw [Value.changeAt, Value.property, Value.property]
      exact Fields.property_changeAt_of_ne differ fields
  | .list items =>
      rw [Value.changeAt, Value.property, Value.property, Property.ofList, Property.ofList,
        Value.itemAt?_changeItem_of_ne change differ, Value.length_changeItem]
  | .absent | .null | .flag _ | .number _ | .text _ => rfl

/-- Under another key a record finds what it found, by induction on the fields. -/
theorem Fields.property_changeAt_of_ne (differ : key ≠ other) (fields : Fields)
    : (fields.changeAt key change).property other = fields.property other := by
  match fields with
  | .nil => rw [Fields.changeAt]
  | .heir parent =>
      rw [Fields.changeAt, Fields.property, Fields.property]
      exact Value.property_changeAt_of_ne differ parent
  | .cons first old rest =>
      rw [Fields.changeAt]
      by_cases same : first = key
      · rw [if_pos same, Fields.property, Fields.property, if_neg (same ▸ differ),
          if_neg (same ▸ differ)]
      · rw [if_neg same, Fields.property, Fields.property,
          Fields.property_changeAt_of_ne differ rest]

end

mutual

/-- Two changes in one place are one, by induction on the parents. -/
theorem Value.changeAt_changeAt (further : Fields → Fields) (value : Value)
    : (value.changeAt key change).changeAt key further = value.changeAt key (further ∘ change) := by
  match value with
  | .record fields =>
      rw [Value.changeAt, Value.changeAt, Value.changeAt, Fields.changeAt_changeAt further fields]
  | .list items =>
      rw [Value.changeAt, Value.changeAt, Value.changeAt, Value.changeItem_changeItem]
  | .absent | .null | .flag _ | .number _ | .text _ => rfl

/-- Two changes under one key are one change, by induction on the fields. -/
theorem Fields.changeAt_changeAt (further : Fields → Fields) (fields : Fields)
    : (fields.changeAt key change).changeAt key further = fields.changeAt key (further ∘ change) := by
  match fields with
  | .nil => rw [Fields.changeAt, Fields.changeAt, Fields.changeAt]
  | .heir parent =>
      rw [Fields.changeAt, Fields.changeAt, Fields.changeAt, Value.changeAt_changeAt further parent]
  | .cons first old rest =>
      by_cases same : first = key
      · simp only [Fields.changeAt, same, if_true, Value.changeFields_changeFields]
      · simp only [Fields.changeAt, same, if_false, Fields.changeAt_changeAt further rest]

end

namespace Fields

/-- A value that was put is changed like any other, by induction on the fields. -/
theorem changeAt_put_self (fields : Fields) (key : Text) (value : Value)
    : (fields.put key value).changeAt key change = fields.put key (value.changeFields change) := by
  induction fields with
  | nil => simp [put, changeAt]
  | heir parent => simp [put, changeAt]
  | cons first old rest ih =>
      by_cases same : first = key
      · simp [put, changeAt, same]
      · simp [put, changeAt, same, ih]

/-- A record of its own is changed by putting the changed one in its place. -/
theorem changeAt_of_get? {fields : Fields} {key : Text} {value : Value}
    (found : fields.get? key = some value)
    : fields.changeAt key change = fields.put key (value.changeFields change) := by
  induction fields with
  | nil => cases found
  | heir parent => cases found
  | cons first old rest ih =>
      by_cases same : first = key
      · simp_all [get?, put, changeAt]
      · simp_all [get?, put, changeAt]

/-- A record that inherits from the root does so after a change. -/
theorem parent_changeAt {fields : Fields} (rooted : fields.parent = .root)
    : (fields.changeAt key change).parent = .root := by
  induction fields with
  | nil => rw [changeAt, parent]
  | heir parent => cases rooted
  | cons first old rest ih =>
      rw [changeAt]
      split
      · exact rooted
      · exact ih rooted

end Fields

end Change

-----------------------------------------------------------------------------------------
-- Records without parents of their own
-----------------------------------------------------------------------------------------

mutual

/-- A value whose records, one inside the other, inherit from the root. -/
def Value.IsRooted : Value → Prop
  | .record fields => fields.IsRooted
  | _ => True

/-- Fields of a record that inherits from the root, with values of that kind. -/
def Fields.IsRooted : Fields → Prop
  | .nil => True
  | .heir _ => False
  | .cons _ value rest => value.IsRooted ∧ rest.IsRooted

end

mutual

/-- A plain value: its records, one inside the other, have every key once, none of them the one of the
gate, and inherit from the root. -/
def Value.IsPlain : Value → Prop
  | .record fields => fields.IsPlain
  | _ => True

/-- Plain fields: different keys that are not the one of the gate, and plain values. -/
def Fields.IsPlain : Fields → Prop
  | .nil => True
  | .heir _ => False
  | .cons key value rest =>
    rest.get? key = none ∧ key ≠ gateKey ∧ value.IsPlain ∧ rest.IsPlain

end

mutual

/-- Plain values inherit from the root only. -/
theorem Value.IsPlain.isRooted {value : Value} (plain : value.IsPlain) : value.IsRooted := by
  match value with
  | .record fields =>
      rw [Value.IsPlain] at plain
      exact Fields.IsPlain.isRooted plain
  | .absent | .null | .flag _ | .number _ | .text _ | .list _ => trivial

/-- So do records, by induction on the fields. -/
theorem Fields.IsPlain.isRooted {fields : Fields} (plain : fields.IsPlain) : fields.IsRooted := by
  match fields with
  | .nil => trivial
  | .heir parent => cases plain
  | .cons key value rest =>
      rw [Fields.IsPlain] at plain
      obtain ⟨_, _, plainValue, plainRest⟩ := plain
      exact ⟨plainValue.isRooted, plainRest.isRooted⟩

end

namespace Fields

/-- What a plain record holds is plain, by induction on the fields. -/
theorem IsPlain.of_get? {fields : Fields} {key : Text} {value : Value} (plain : fields.IsPlain)
    (found : fields.get? key = some value)
    : value.IsPlain := by
  induction fields with
  | nil => cases found
  | heir parent => cases plain
  | cons first old rest ih =>
      rw [IsPlain] at plain
      obtain ⟨_, _, plainOld, plainRest⟩ := plain
      rw [get?] at found
      split at found
      · cases found
        exact plainOld
      · exact ih plainRest found

/-- The key of the gate is none of the keys of plain fields. -/
theorem IsPlain.ne_gateKey {fields : Fields} {key : Text} {value : Value} (plain : fields.IsPlain)
    (found : fields.get? key = some value)
    : key ≠ gateKey := by
  induction fields with
  | nil => cases found
  | heir parent => cases plain
  | cons first old rest ih =>
      rw [IsPlain] at plain
      obtain ⟨_, ordinary, _, plainRest⟩ := plain
      rw [get?] at found
      split at found
      · next same => exact same ▸ ordinary
      · exact ih plainRest found

/-- An empty record inherits from the root. -/
theorem isRooted_nil : Fields.nil.IsRooted :=
  trivial

/-- What a rooted record holds is rooted, by induction on the fields. -/
theorem IsRooted.of_get? {fields : Fields} {key : Text} {value : Value} (rooted : fields.IsRooted)
    (found : fields.get? key = some value)
    : value.IsRooted := by
  induction fields with
  | nil => cases found
  | heir parent => cases rooted
  | cons first old rest ih =>
      rw [IsRooted] at rooted
      rw [get?] at found
      split at found
      · cases found
        exact rooted.1
      · exact ih rooted.2 found

/-- The parent of a rooted record is the root. -/
theorem IsRooted.parent {fields : Fields} (rooted : fields.IsRooted) : fields.parent = .root := by
  induction fields with
  | nil => rfl
  | heir parent => cases rooted
  | cons first old rest ih => exact ih rooted.2

/-- Putting a rooted value keeps a record rooted, by induction on the fields. -/
theorem IsRooted.put {fields : Fields} (rooted : fields.IsRooted) (key : Text) {value : Value}
    (rootedValue : value.IsRooted)
    : (fields.put key value).IsRooted := by
  induction fields with
  | nil => exact ⟨rootedValue, trivial⟩
  | heir parent => cases rooted
  | cons first old rest ih =>
      rw [Fields.put]
      split
      · exact ⟨rootedValue, rooted.2⟩
      · exact ⟨rooted.1, ih rooted.2⟩

/-- A rooted record is made of its own fields. -/
theorem IsRooted.own_eq {fields : Fields} (rooted : fields.IsRooted) : fields.own = fields := by
  induction fields with
  | nil => rfl
  | heir parent => cases rooted
  | cons first old rest ih => rw [own, ih rooted.2]

/-- The own fields hold what the record holds. -/
theorem get?_own (fields : Fields) (key : Text) : fields.own.get? key = fields.get? key := by
  induction fields with
  | nil => rfl
  | heir parent => rfl
  | cons first old rest ih => rw [own, get?, get?, ih]

/-- The own fields inherit from the root. -/
theorem parent_own (fields : Fields) : fields.own.parent = .root := by
  induction fields with
  | nil => rfl
  | heir parent => rfl
  | cons first old rest ih => exact ih

/-- What is seen under a key that a record lacks is inherited from the root. -/
theorem read_of_lacking {fields : Fields} {key : Text} (rooted : fields.parent = .root)
    (lacks : fields.get? key = none)
    : fields.read key = Fields.nil.read key := by
  rw [read, read, property_of_lacking rooted lacks, rooted, property, parent]

/-- Away from the gate, only values of the record itself are seen as records. -/
theorem get?_of_read_fields? {fields inner : Fields} {key : Text} (rooted : fields.parent = .root)
    (ordinary : key ≠ gateKey) (seen : (fields.read key).fields? = some inner)
    : fields.get? key = some (.record inner) := by
  cases found : fields.get? key with
  | some value =>
      rw [read_of_get? found] at seen
      cases value with
      | record fields =>
          cases seen
          rfl
      | absent | null | flag | number | text | list => cases seen
  | none =>
      rw [read, property_of_lacking rooted found, Property.ofRoot, if_neg ordinary] at seen
      split at seen <;> cases seen

-----------------------------------------------------------------------------------------
-- Fields laid over fields
-----------------------------------------------------------------------------------------

/-- By induction on the upper fields: the first of them is not met again among the rest. -/
theorem get?_overlay (lower : Fields) {upper : Fields} (plain : upper.IsPlain) (key : Text)
    : (lower.overlay upper).get? key
      = match upper.get? key with
        | none => lower.get? key
        | some value => some (value.over (lower.read key)) := by
  induction upper generalizing lower with
  | nil => rw [overlay, get?]
  | heir parent => cases plain
  | cons first value rest ih =>
      rw [IsPlain] at plain
      obtain ⟨once, ordinary, _, plainRest⟩ := plain
      rw [overlay, assign_of_ne _ ordinary, ih _ plainRest, get?]
      by_cases same : first = key
      · subst same
        rw [if_pos rfl, once, get?_put_self]
      · rw [if_neg same, get?_put_of_ne _ _ same, read_put_of_ne _ _ same]

/-- A merge holds, under a key of the upper record, the upper value laid over what the lower one
shows there, and elsewhere what the lower one holds. -/
theorem get?_merge (lower : Fields) {upper : Fields} (plain : upper.IsPlain) (key : Text)
    : (lower.merge upper).get? key
      = match upper.get? key with
        | none => lower.get? key
        | some value => some (value.over (lower.own.read key)) := by
  rw [merge, get?_overlay _ plain, get?_own]

end Fields

mutual

/-- A plain value laid over records that inherit from the root does so, too. -/
theorem Value.isRooted_over {value : Value} (plain : value.IsPlain) {below : Seen}
    (rooted : ∀ fields, below.fields? = some fields → fields.IsRooted)
    : (value.over below).IsRooted := by
  match value with
  | .record upper =>
      rw [Value.IsPlain] at plain
      rw [Value.over]
      split
      · next lower seen =>
          have rootedLower := rooted lower seen
          exact Fields.isRooted_overlay plain (rootedLower.own_eq.symm ▸ rootedLower)
      · exact plain.isRooted
  | .absent | .null | .flag _ | .number _ | .text _ | .list _ => trivial

/-- A plain record laid over a rooted one gives a rooted one, by induction on the upper fields. -/
theorem Fields.isRooted_overlay {upper : Fields} (plain : upper.IsPlain) {lower : Fields}
    (rooted : lower.IsRooted)
    : (lower.overlay upper).IsRooted := by
  match upper with
  | .nil => exact rooted
  | .heir parent => cases plain
  | .cons key value rest =>
      rw [Fields.IsPlain] at plain
      obtain ⟨_, ordinary, plainValue, plainRest⟩ := plain
      rw [Fields.overlay, Fields.assign_of_ne _ ordinary]
      refine Fields.isRooted_overlay plainRest (rooted.put key (Value.isRooted_over plainValue ?_))
      intro inner seen
      exact rooted.of_get? (Fields.get?_of_read_fields? rooted.parent ordinary seen)

end

/-- Plain fields merged over fields without parents of their own make such fields. -/
theorem Fields.isRooted_merge {lower upper : Fields} (rooted : lower.IsRooted) (plain : upper.IsPlain)
    : (lower.merge upper).IsRooted := by
  rw [merge, rooted.own_eq]
  exact isRooted_overlay plain rooted

end StagedParser
