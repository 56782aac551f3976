import StagedParser.Proofs.Settings.Paths

/-! Records that differ in the order of their keys only.
Keys stand in the order in which they were first put, so the order of two changes shows in the result.
Changes at paths that part ways can change places as far as everything else is concerned.
-/

namespace StagedParser

namespace Fields

/-- Fields that differ in the order of their keys only, and so do the records inside of them. -/
inductive Reordered : Fields → Fields → Prop
  | nil : Reordered .nil .nil
  | heir (parent : Value) : Reordered (.heir parent) (.heir parent)
  | cons {rest other : Fields} (key : Text) (value : Value) (next : Reordered rest other)
    : Reordered (.cons key value rest) (.cons key value other)
  | inside {inner moved rest other : Fields} (key : Text) (within : Reordered inner moved)
    (next : Reordered rest other)
    : Reordered (.cons key (.record inner) rest) (.cons key (.record moved) other)
  | swap {key other : Text} (differ : key ≠ other) (value held : Value) (rest : Fields)
    : Reordered (.cons key value (.cons other held rest)) (.cons other held (.cons key value rest))
  | trans {fields other third : Fields} (first : Reordered fields other)
    (second : Reordered other third)
    : Reordered fields third

/-- A record is a reordering of itself, by induction on the fields. -/
theorem Reordered.refl (fields : Fields) : Reordered fields fields := by
  induction fields with
  | nil => exact .nil
  | heir parent => exact .heir parent
  | cons key value rest ih => exact .cons key value ih

-----------------------------------------------------------------------------------------
-- Single keys
-----------------------------------------------------------------------------------------

/-- Reordered fields have reordered records under a key, by the ways of reordering. -/
theorem Reordered.inner {fields other : Fields} (reordered : Reordered fields other) (key : Text)
    : Reordered (fields.inner key) (other.inner key) := by
  induction reordered with
  | nil | heir => exact .refl _
  | cons first value next ih =>
      by_cases same : first = key
      · simpa [inner_eq, get?, same] using .refl _
      · simpa [inner_eq, get?, same] using ih
  | inside first within next ihWithin ih =>
      by_cases same : first = key
      · simpa [inner_eq, get?, same, Value.fields?] using within
      · simpa [inner_eq, get?, same] using ih
  | @swap first second differ value held rest =>
      by_cases same : first = key
      · subst same
        simpa [inner_eq, get?, differ.symm] using .refl _
      · simpa [inner_eq, get?, same] using .refl _
  | trans _ _ ihFirst ihSecond => exact ihFirst.trans ihSecond

/-- The same change keeps fields reordered, by the ways of reordering. -/
theorem Reordered.put {fields other : Fields} (reordered : Reordered fields other) (key : Text)
    (value : Value)
    : Reordered (fields.put key value) (other.put key value) := by
  induction reordered with
  | nil | heir => exact .refl _
  | cons first old next ih =>
      by_cases same : first = key
      · simpa [Fields.put, same] using .cons key value next
      · simpa [Fields.put, same] using .cons first old ih
  | inside first within next ihWithin ih =>
      by_cases same : first = key
      · simpa [Fields.put, same] using .cons key value next
      · simpa [Fields.put, same] using .inside first within ih
  | @swap first second differ old held rest =>
      by_cases same : first = key
      · subst same
        simpa [Fields.put, differ.symm] using .swap differ value held rest
      · by_cases sameSecond : second = key
        · subst sameSecond
          simpa [Fields.put, same] using .swap differ old value rest
        · simpa [Fields.put, same, sameSecond] using .swap differ old held _
  | trans _ _ ihFirst ihSecond => exact ihFirst.trans ihSecond

/-- Reordered records put under one key make reordered fields, by induction on the fields. -/
theorem reordered_put_record (fields : Fields) (key : Text) {inner moved : Fields}
    (within : Reordered inner moved)
    : Reordered (fields.put key (.record inner)) (fields.put key (.record moved)) := by
  induction fields with
  | nil => exact .inside key within .nil
  | heir parent => exact .inside key within (.heir parent)
  | cons first old rest ih =>
      by_cases same : first = key
      · simpa [put, same] using .inside key within (.refl rest)
      · simpa [put, same] using .cons first old ih

/-- Changes under two keys can change places, by induction on the fields. -/
theorem reordered_put_put (fields : Fields) {key other : Text} (differ : key ≠ other)
    (value held : Value)
    : Reordered ((fields.put key value).put other held) ((fields.put other held).put key value) := by
  induction fields with
  | nil =>
      -- Both keys are new, so the order in which they came stays.
      simpa [put, differ, differ.symm] using .swap differ value held .nil
  | heir parent => simpa [put, differ, differ.symm] using .swap differ value held (.heir parent)
  | cons first old rest ih =>
      by_cases same : first = key
      · subst same
        simpa [put, differ] using .refl _
      · by_cases sameOther : first = other
        · subst sameOther
          simpa [put, same] using .refl _
        · simpa [put, same, sameOther] using .cons first old ih

-----------------------------------------------------------------------------------------
-- Whole paths
-----------------------------------------------------------------------------------------

/-- The same change at a path keeps fields reordered, by induction on the path. -/
theorem Reordered.graft {fields other : Fields} (reordered : Reordered fields other)
    (path : List Text) (value : Value)
    : Reordered (fields.graft path value) (other.graft path value) := by
  induction path generalizing fields other with
  | nil => exact reordered
  | cons key rest ih =>
      rw [graft_cons, graft_cons]
      cases rest with
      | nil => exact reordered.put key value
      | cons next more =>
          have within := ih (reordered.inner key)
          exact (reordered.put key _).trans (reordered_put_record other key within)

/-- Changes at paths that part ways can change places. By induction on one of them: up to the keys
where they part both lead through the same records, and there they change different keys. -/
theorem reordered_graft_graft (fields : Fields) {path other : List Text}
    (diverge : Diverge path other) (value held : Value)
    : Reordered ((fields.graft path value).graft other held)
        ((fields.graft other held).graft path value) := by
  induction path generalizing fields other with
  | nil => exact absurd rfl diverge.ne_nil
  | cons key rest ih =>
      obtain ⟨first, more, rfl⟩ := List.exists_cons_of_ne_nil diverge.symm.ne_nil
      simp only [graft_cons]
      by_cases same : key = first
      · subst same
        have later : Diverge rest more := (diverge_cons.mp diverge).resolve_left (absurd rfl)
        obtain ⟨next, further, rfl⟩ := List.exists_cons_of_ne_nil later.ne_nil
        obtain ⟨second, beyond, rfl⟩ := List.exists_cons_of_ne_nil later.symm.ne_nil
        simp only [under, inner_put_self, put_put_self]
        exact reordered_put_record fields key (ih (fields.inner key) later)
      · rw [under_put_of_ne fields same, under_put_of_ne fields (Ne.symm same)]
        exact reordered_put_put fields same _ _

end Fields

end StagedParser
