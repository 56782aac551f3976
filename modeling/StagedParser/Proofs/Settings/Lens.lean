import StagedParser.Proofs.Settings.Reordering
import StagedParser.Proofs.Settings.Spelling

/-! Dotted paths as lenses into settings.
What can be seen after a value was put at a dotted path is told by how the two paths lie to each other,
as long as the gate is not on the way. On the path itself and beyond it there is the new value, short of
it there are records that lead to the value, and off the path everything is as it was in the record where
the paths part. That record may be a new one, though, and then it shows what every record inherits.
-/

namespace StagedParser

/-- Paths that part ways have a common way up to different keys, by induction on one of them. -/
theorem Diverge.parting {path other : List Text} (diverge : Diverge path other)
    : ∃ common key rest first more,
        path = common ++ key :: rest ∧ other = common ++ first :: more ∧ key ≠ first := by
  induction path generalizing other with
  | nil => exact absurd rfl diverge.ne_nil
  | cons key rest ih =>
      obtain ⟨first, more, rfl⟩ := List.exists_cons_of_ne_nil diverge.symm.ne_nil
      by_cases same : key = first
      · subst same
        have later : Diverge rest more := (diverge_cons.mp diverge).resolve_left (absurd rfl)
        obtain ⟨common, last, ending, second, beyond, rfl, rfl, differ⟩ := ih later
        exact ⟨key :: common, last, ending, second, beyond, rfl, rfl, differ⟩
      · exact ⟨[], key, rest, first, more, rfl, rfl, same⟩

/-- To follow a path is to follow its first part and then the rest. -/
theorem Seen.getPath_append (seen : Seen) (path rest : List Text)
    : seen.getPath (path ++ rest) = (seen.getPath path).getPath rest := by
  induction path generalizing seen with
  | nil => rfl
  | cons key more ih => exact ih (seen.read key)

/-- What is no record and not the root shows nothing. -/
theorem Seen.read_of_noRecord {seen : Seen} (noRecord : seen.fields? = none) (key : Text)
    : seen.read key = .absent := by
  match seen with
  | .value (.record fields) => cases noRecord
  | .root => cases noRecord
  | .method _ => rfl
  | .value .absent | .value .null | .value (.flag _) | .value (.number _) | .value (.text _)
  | .value (.list _) => rfl

/-- Nor does any path lead from there to a record. -/
theorem Seen.getPath_of_noRecord {seen : Seen} (noRecord : seen.fields? = none) (path : List Text)
    : (seen.getPath path).fields? = none := by
  cases path with
  | nil => exact noRecord
  | cons key rest =>
      rw [Seen.getPath, Seen.read_of_noRecord noRecord, Seen.absent_getPath]
      rfl

/-- What has fields is a record, or else the root, which has none of its own to give. -/
theorem Seen.eq_of_fields? {seen : Seen} {inner : Fields} (found : seen.fields? = some inner)
    : seen = Value.record inner ∨ seen = .root ∧ inner = .nil := by
  match seen with
  | .value (.record _) =>
      cases found
      exact .inl rfl
  | .root =>
      cases found
      exact .inr ⟨rfl, rfl⟩
  | .method _ => cases found
  | .value .absent | .value .null | .value (.flag _) | .value (.number _) | .value (.text _)
  | .value (.list _) => cases found

namespace Fields

-----------------------------------------------------------------------------------------
-- The record at a path
-----------------------------------------------------------------------------------------

/-- The fields of the record that is seen at a path; none if no record is. -/
def shownAt (fields : Fields) (path : List Text) : Fields :=
  ((Value.record fields).getPath path).fields?.getD .nil

/-- The root is seen through the gate only. -/
theorem read_ne_root (fields : Fields) {key : Text} (ordinary : key ≠ gateKey)
    : fields.read key ≠ .root := by
  rw [read]
  cases found : fields.property key with
  | gate => exact absurd (eq_gateKey_of_property found) ordinary
  | missing | value | method =>
      intro same
      cases same

/-- An empty record shows no record, away from the gate. -/
theorem shownAt_nil {path : List Text} (ordinary : gateKey ∉ path) : Fields.nil.shownAt path = .nil := by
  cases path with
  | nil => rfl
  | cons key rest =>
      obtain ⟨here, _⟩ := not_or.mp (mt List.mem_cons.mpr ordinary)
      have noRecord : (Fields.nil.read key).fields? = none := by
        cases seen : (Fields.nil.read key).fields? with
        | none => rfl
        | some inner => cases get?_of_read_fields? rfl (Ne.symm here) seen
      rw [shownAt, Value.getPath_cons, Seen.getPath_of_noRecord noRecord, Option.getD_none]

/-- Away from the gate, the record at a path is found by way of the record under the first key.
Only the gate would show the root, which is no record to go on from. -/
theorem shownAt_cons (fields : Fields) {key : Text} {rest : List Text}
    (ordinary : gateKey ∉ key :: rest)
    : fields.shownAt (key :: rest) = (fields.shown key).shownAt rest := by
  obtain ⟨here, later⟩ := not_or.mp (mt List.mem_cons.mpr ordinary)
  cases seen : (fields.read key).fields? with
  | some inner =>
      have record : fields.read key = Value.record inner :=
        (Seen.eq_of_fields? seen).resolve_right fun root =>
          fields.read_ne_root (Ne.symm here) root.1
      rw [shownAt, Value.getPath_cons, shown, record]
      rfl
  | none =>
      rw [shown, seen, Option.getD_none, shownAt_nil later, shownAt, Value.getPath_cons,
        Seen.getPath_of_noRecord seen, Option.getD_none]

/-- Short of the path of a new value there is a record with the value at the rest of the path: the
record that was there, or a new one in place of anything else. By induction on the way there. -/
theorem getPath_putPath_append (fields : Fields) {path rest : List Text}
    (ordinary : gateKey ∉ path ++ rest) (further : rest ≠ []) (value : Value)
    : (Value.record (fields.putPath (path ++ rest) value)).getPath path
      = Value.record ((fields.shownAt path).putPath rest value) := by
  induction path generalizing fields with
  | nil => rfl
  | cons key more ih =>
      rw [List.cons_append] at ordinary
      obtain ⟨here, later⟩ := not_or.mp (mt List.mem_cons.mpr ordinary)
      obtain ⟨next, others, split⟩ :=
        List.exists_cons_of_ne_nil (List.append_ne_nil_of_right_ne_nil more further)
      have onTheWay : gateKey ∉ key :: more := fun member =>
        ordinary (List.mem_append_left rest member)
      rw [List.cons_append, Value.getPath_cons, read_putPath_self fields (Ne.symm here), split,
        shownAfter, ← split, shownAt_cons fields onTheWay]
      exact ih (fields.shown key) later

/-- Off the path of a new value there is what the record where the paths part has there, be it the
record that was there or a new one. By induction on the common way. -/
theorem getPath_putPath_of_parting (fields : Fields) {common : List Text} {key first : Text}
    {rest more : List Text} (ordinary : gateKey ∉ common ++ key :: rest) (differ : key ≠ first)
    (visible : gateKey ∉ common ++ first :: more ∨ fields.IsRooted) (value : Value)
    : (Value.record (fields.putPath (common ++ key :: rest) value)).getPath (common ++ first :: more)
      = (Value.record (fields.shownAt common)).getPath (first :: more) := by
  induction common generalizing fields with
  | nil =>
      have here : key ≠ gateKey := fun same => ordinary (same ▸ List.mem_cons_self)
      have seen : first ≠ gateKey ∨ fields.parent = .root :=
        visible.imp (fun noGate same => noGate (same ▸ List.mem_cons_self)) IsRooted.parent
      rw [List.nil_append, List.nil_append, Value.getPath_cons,
        read_putPath_of_ne fields here differ seen]
      rfl
  | cons next others ih =>
      rw [List.cons_append] at ordinary
      obtain ⟨here, later⟩ := not_or.mp (mt List.mem_cons.mpr ordinary)
      replace here := Ne.symm here
      obtain ⟨second, beyond, split⟩ :=
        List.exists_cons_of_ne_nil (List.append_ne_nil_of_right_ne_nil others (List.cons_ne_nil key rest))
      have onTheWay : gateKey ∉ next :: others := fun member =>
        ordinary (List.mem_append_left (key :: rest) member)
      have inside : gateKey ∉ others ++ first :: more ∨ (fields.shown next).IsRooted := by
        refine visible.imp (fun noGate member => noGate (List.mem_cons_of_mem next member)) ?_
        intro rooted
        rw [shown_eq_inner rooted.parent here]
        exact isRooted_inner rooted next
      rw [List.cons_append, List.cons_append, Value.getPath_cons, read_putPath_self fields here, split,
        shownAfter, ← split, shownAt_cons fields onTheWay]
      exact ih (fields.shown next) later inside

/-- A second value at the same path leaves nothing of the first, by induction on the path. -/
theorem putPath_putPath_self (fields : Fields) {path : List Text} (ordinary : gateKey ∉ path)
    (value held : Value)
    : (fields.putPath path value).putPath path held = fields.putPath path held := by
  induction path generalizing fields with
  | nil => rfl
  | cons key rest ih =>
      obtain ⟨here, later⟩ := not_or.mp (mt List.mem_cons.mpr ordinary)
      replace here := Ne.symm here
      cases rest with
      | nil => simp only [putPath_singleton _ here, put_put_self]
      | cons next more =>
          have again (inner : Fields) := ih inner later
          rcases fields.putPath_cases here next more value with
            ⟨inner, found, _, changed⟩ | ⟨_, noRecord, created⟩
          · have kept := property_changeAt_self (·.putPath (next :: more) value) found
            rw [changed]
            simp only [putPath, kept, found, changeAt_changeAt, Function.comp_def, again]
          · have kept := fields.property_put_self key (.record (Fields.nil.putPath (next :: more) value))
            rw [created]
            rcases fields.putPath_cases here next more held with
              ⟨inner, found, _, _⟩ | ⟨_, _, createdAnew⟩
            · exact absurd found (noRecord inner)
            · rw [createdAnew]
              simp only [putPath, kept, changeAt_put_self, Value.changeFields, again]

/-- What was seen off the path of a new value is still seen there if the record where the paths part was
there already, or if the key there is no inherited name. -/
theorem getPath_putPath_eq {fields : Fields} {common : List Text} {first : Text} {more : List Text}
    (kept
      : (∃ inner, (Value.record fields).getPath common = Value.record inner) ∨ first ∉ inheritedNames)
    : (Value.record (fields.shownAt common)).getPath (first :: more)
      = (Value.record fields).getPath (common ++ first :: more) := by
  have split : (Value.record fields).getPath (common ++ first :: more)
      = ((Value.record fields).getPath common).getPath (first :: more) :=
    Seen.getPath_append ..
  rw [split, shownAt]
  generalize (Value.record fields).getPath common = seen at kept
  rcases kept with ⟨inner, rfl⟩ | strange
  · rfl
  · cases found : seen.fields? with
    | none =>
        rw [Option.getD_none, Seen.empty_getPath strange, Seen.getPath, Seen.read_of_noRecord found,
          Seen.absent_getPath]
    | some inner =>
        rw [Option.getD_some]
        rcases Seen.eq_of_fields? found with rfl | ⟨rfl, rfl⟩
        · rfl
        · have missing : Seen.root.read first = .absent := by
            rw [Seen.read, Property.ofRoot_of_notMem strange, Property.seen]
          rw [Seen.empty_getPath strange, Seen.getPath, missing, Seen.absent_getPath]

/-- What is seen at a path that parts from the one where a value was put, by where the two part: from there
on it is what the record has, and no other than before if that record was there or nothing is inherited. -/
theorem getPath_putPath_of_diverge (fields : Fields) {path other : List Text}
    (diverge : Diverge path other) (ordinary : gateKey ∉ path)
    (visible : gateKey ∉ other ∨ fields.IsRooted) (value : Value)
    : ∃ common key rest,
        other = common ++ key :: rest
        ∧ common <+: path
        ∧ ¬ common ++ [key] <+: path
        ∧ (Value.record (fields.putPath path value)).getPath other
          = (Value.record (fields.shownAt common)).getPath (key :: rest)
        ∧ ((∃ inner, (Value.record fields).getPath common = Value.record inner)
            → (Value.record (fields.putPath path value)).getPath other
              = (Value.record fields).getPath other)
        ∧ (key ∉ inheritedNames
            → (Value.record (fields.putPath path value)).getPath other
              = (Value.record fields).getPath other) := by
  obtain ⟨common, key, rest, first, more, rfl, rfl, differ⟩ := diverge.parting
  have seen := getPath_putPath_of_parting fields ordinary differ visible value
  refine ⟨common, first, more, rfl, List.prefix_append _ _, ?_, seen, ?_, ?_⟩
  · rw [List.prefix_append_right_inj, List.cons_prefix_cons]
    exact fun same => differ same.1.symm
  · intro there
    rw [seen, getPath_putPath_eq (.inl there)]
  · intro strange
    rw [seen, getPath_putPath_eq (.inr strange)]

/-- A path is another one, goes on after it, stops short of it, or parts from it, by which of them begins
with the keys of the other. -/
theorem path_cases (path other : Text)
    : other = path
      ∨ (∃ rest, other = path ++ Text.dot ++ rest)
      ∨ (∃ rest, path = other ++ Text.dot ++ rest)
      ∨ Diverge (keysOfPath path) (keysOfPath other) := by
  by_cases beyond : keysOfPath path <+: keysOfPath other
  · exact (eq_or_append_of_begins beyond).imp_right .inl
  by_cases short : keysOfPath other <+: keysOfPath path
  · rcases eq_or_append_of_begins short with same | further
    · exact .inl same.symm
    · exact .inr (.inr (.inl further))
  exact .inr (.inr (.inr ⟨beyond, short⟩))

/-- Reading after a value was put at a dotted path without the key of the gate. At the path there is the
value, and at a path that goes on after it there is what the value has at the rest. At a path that stops
short of it there is a record, the one that was there or else a new one, with the value put at the rest.
At a path that parts from it there is what the record has there where they part, that is, what was seen
before, unless that record is a new one and the next key is a name that every record inherits; paths
through the gate are to be trusted only if no record has a parent of its own. There are no other paths. A
second value at the same path leaves nothing of the first. -/
theorem getPath_after_putPath (fields : Fields) (path : Text) (ordinary : gateKey ∉ keysOfPath path)
    (value : Value)
    : let after := fields.putPath (keysOfPath path) value
      let before (other : Text) := (Value.record fields).getPath (keysOfPath other)
      let found (other : Text) := (Value.record after).getPath (keysOfPath other)
      found path = value
      ∧ (∀ rest, found (path ++ Text.dot ++ rest) = value.getPath (keysOfPath rest))
      ∧ (∀ short rest,
          path = short ++ Text.dot ++ rest
          → found short
              = Value.record ((fields.shownAt (keysOfPath short)).putPath (keysOfPath rest) value))
      ∧ (∀ other,
          Diverge (keysOfPath path) (keysOfPath other)
          → gateKey ∉ keysOfPath other ∨ fields.IsRooted
          → ∃ common key rest,
              keysOfPath other = common ++ key :: rest
              ∧ common <+: keysOfPath path
              ∧ ¬ common ++ [key] <+: keysOfPath path
              ∧ found other = (Value.record (fields.shownAt common)).getPath (key :: rest)
              ∧ ((∃ inner, (Value.record fields).getPath common = Value.record inner)
                  → found other = before other)
              ∧ (key ∉ inheritedNames → found other = before other))
      ∧ (∀ other,
          other = path
          ∨ (∃ rest, other = path ++ Text.dot ++ rest)
          ∨ (∃ rest, path = other ++ Text.dot ++ rest)
          ∨ Diverge (keysOfPath path) (keysOfPath other))
      ∧ ∀ second, after.putPath (keysOfPath path) second = fields.putPath (keysOfPath path) second := by
  intro after before found
  have atPath : found path = value :=
    getPath_putPath_self fields (keysOfPath_ne_nil path) ordinary value
  refine ⟨atPath, ?_, ?_, ?_, ?_, ?_⟩
  · intro rest
    have keys := keysOfPath_append path rest
    calc found (path ++ Text.dot ++ rest)
        = (found path).getPath (keysOfPath rest) := by
          simp only [found, keys]
          exact Seen.getPath_append ..
      _ = value.getPath (keysOfPath rest) := by rw [atPath]; rfl
  · rintro short rest rfl
    have keys := keysOfPath_append short rest
    rw [keys] at ordinary
    simp only [found, after, keys]
    exact getPath_putPath_append fields ordinary (keysOfPath_ne_nil rest) value
  · intro other diverge visible
    exact fields.getPath_putPath_of_diverge diverge ordinary visible value
  · exact path_cases path
  · intro second
    exact putPath_putPath_self fields ordinary value second

/-- A record with a plain value in the way of a path, beside something off the path. -/
def sampleFields : Fields :=
  .cons (Text.ofString "a")
    (.record
      (.cons (Text.ofString "b") (.text (Text.ofString "x"))
        (.cons (Text.ofString "c") (.list []) .nil)))
    .nil

/-- A record is put at `a.b.d`, in place of the text at `a.b`. -/
theorem getPath_after_putPath_sample
    : let value : Value := .record (.cons (Text.ofString "e") (.flag true) .nil)
      let path := Text.ofString "a.b.d"
      let after := sampleFields.putPath (keysOfPath path) value
      let found (other : String) := (Value.record after).getPath (keysOfPath (Text.ofString other))
      gateKey ∉ keysOfPath path
      ∧ Diverge (keysOfPath path) (keysOfPath (Text.ofString "a.c"))
      ∧ found "a.b.d" = value
      ∧ found "a.b.d.e" = Value.flag true
      ∧ found "a.b" = Value.record (.cons (Text.ofString "d") value .nil)
      ∧ found "a.c" = Value.list []
      ∧ after.putPath (keysOfPath path) .null = sampleFields.putPath (keysOfPath path) .null := by
  intro value path after found
  have ordinary : gateKey ∉ keysOfPath path := by decide
  have diverge : Diverge (keysOfPath path) (keysOfPath (Text.ofString "a.c")) :=
    ⟨by decide, by decide⟩
  obtain ⟨atPath, beyond, short, apart, _, again⟩ :=
    getPath_after_putPath sampleFields path ordinary value
  refine ⟨ordinary, diverge, atPath, beyond (Text.ofString "e"), ?_, ?_, again .null⟩
  · exact short (Text.ofString "a.b") (Text.ofString "d") rfl
  · have strange : ∀ key ∈ keysOfPath (Text.ofString "a.c"), key ∉ inheritedNames := by decide
    obtain ⟨common, key, rest, off, _, _, _, _, kept⟩ := apart _ diverge (.inl (by decide))
    exact kept (strange key (by simp [off]))

/-- A new record on the way to a value shows what every record inherits, where nothing was seen before;
and a value that is put at the gate is not found there. -/
theorem new_records_show_inherited
    : let path := Text.ofString "a.b"
      let other := Text.ofString "a.toString"
      let after := Fields.nil.putPath (keysOfPath path) (.number 5)
      Diverge (keysOfPath path) (keysOfPath other)
      ∧ (Value.record .nil).getPath (keysOfPath other) = .absent
      ∧ (Value.record after).getPath (keysOfPath other) ≠ .absent
      ∧ (Value.record (Fields.nil.putPath (keysOfPath gateKey) (.number 5))).getPath (keysOfPath gateKey)
          ≠ Value.number 5 := by
  refine ⟨⟨by decide, by decide⟩, rfl, ?_, ?_⟩
  · nofun
  · nofun

end Fields

end StagedParser
