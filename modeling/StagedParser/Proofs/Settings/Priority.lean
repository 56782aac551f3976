import StagedParser.Proofs.Settings.Fields

/-! Layers of settings, path by path.
Layers are merged from the first to the last. For a single path only the last layer that touches it
counts, except that records at the path itself are merged: a layer touches a path if it has a value
there or something other than a record on the way. Where layers say nothing, records still show what
they inherit.
-/

namespace StagedParser

/-- All layers merged, later ones over earlier ones. -/
def Fields.mergeAll : List Fields → Fields
  | [] => .nil
  | first :: rest => rest.foldl merge first

/-- What one layer says about a path. -/
inductive Touch where
  /-- A record on the way lacks the next key. -/
  | misses
  /-- Something that is no record stands on the way. -/
  | blocks
  /-- There is a value at the path, perhaps an absent one. -/
  | defines (value : Value)

/-- Follows a path through the records of a value, by the keys that they have themselves. -/
def Value.touch : Value → List Text → Touch
  | value, [] => .defines value
  | .record fields, key :: rest =>
    match fields.get? key with
    | none => .misses
    | some value => value.touch rest
  | _, _ :: _ => .blocks

def Fields.touch (layer : Fields) (path : List Text) : Touch :=
  (Value.record layer).touch path

/-- What an empty record shows at an end of a path. -/
def Seen.IsInherited (path : List Text) (seen : Seen) : Prop :=
  ∃ rest, rest ≠ [] ∧ rest <:+ path ∧ seen = (Value.record .nil).getPath rest

/-- A text is cut into one piece at least. -/
theorem Text.pieces_ne_nil (separator : Text) (skip : Nat) (text : Text)
    : pieces separator skip text ≠ [] := by
  fun_induction pieces separator skip text with
  | case1 => simp
  | case2 skip unit rest ih => exact ih
  | case3 => simp
  | case4 unit rest _ _ =>
      cases pieces separator 0 rest with
      | nil => simp [extendFirst]
      | cons first others => simp [extendFirst]

-----------------------------------------------------------------------------------------
-- From what is touched to what is seen
-----------------------------------------------------------------------------------------

/-- Beyond something that is no record nothing is seen. -/
theorem Seen.absent_getPath (path : List Text) : Seen.absent.getPath path = .absent := by
  induction path with
  | nil => rfl
  | cons key rest ih => exact ih

/-- An empty record shows nothing at a path that does not begin with an inherited name. -/
theorem Seen.empty_getPath {key : Text} (strange : key ∉ inheritedNames) (rest : List Text)
    : (Value.record .nil).getPath (key :: rest) = .absent := by
  have missing : Fields.nil.read key = .absent := by
    rw [Fields.read, Fields.property, Property.ofRoot_of_notMem strange, Property.seen]
  change (Fields.nil.read key).getPath rest = _
  rw [missing, absent_getPath]

/-- At a path without inherited names, nothing is inherited. -/
theorem Seen.IsInherited.eq_absent {path : List Text} {seen : Seen} (inherited : seen.IsInherited path)
    (strange : ∀ key ∈ path, key ∉ inheritedNames)
    : seen = .absent := by
  obtain ⟨rest, somewhere, ending, rfl⟩ := inherited
  obtain ⟨key, more, rfl⟩ := List.exists_cons_of_ne_nil somewhere
  exact empty_getPath (strange key (ending.subset List.mem_cons_self)) more

namespace Value

/-- Past its first key, a path is followed from what a record shows there. -/
theorem getPath_cons (fields : Fields) (key : Text) (rest : List Text)
    : (record fields).getPath (key :: rest) = (fields.read key).getPath rest :=
  rfl

/-- A value that is no record blocks every path that goes on. -/
theorem touch_cons_of_plain {value : Value} (noRecord : value.fields? = none) (key : Text)
    (rest : List Text)
    : value.touch (key :: rest) = .blocks := by
  cases value with
  | record fields => cases noRecord
  | absent | null | flag | number | text | list => rfl

/-- A value that is defined at a path is seen there, by induction on the path. -/
theorem getPath_of_defines {value found : Value} {path : List Text}
    (defines : value.touch path = .defines found)
    : value.getPath path = found := by
  induction path generalizing value with
  | nil =>
      cases defines
      rfl
  | cons key rest ih =>
      cases value with
      | record fields =>
          rw [touch] at defines
          split at defines
          · cases defines
          · next inner held =>
              rw [getPath_cons, Fields.read_of_get? held]
              exact ih defines
      | absent | null | flag | number | text | list => cases defines

/-- At a path that is blocked nothing is seen, by induction on the path. -/
theorem getPath_of_blocks {value : Value} {path : List Text} (blocks : value.touch path = .blocks)
    : value.getPath path = .absent := by
  induction path generalizing value with
  | nil => cases blocks
  | cons key rest ih =>
      cases value with
      | record fields =>
          rw [touch] at blocks
          split at blocks
          · cases blocks
          · next inner held =>
              rw [getPath_cons, Fields.read_of_get? held]
              exact ih blocks
      | absent | null | flag | number | text | list => exact Seen.absent_getPath rest

/-- At a path that is missed, what is seen is inherited. By induction on the path: the record that
lacks a key shows under it what an empty record shows. -/
theorem isInherited_of_misses {value : Value} (rooted : value.IsRooted) {path : List Text}
    (misses : value.touch path = .misses)
    : (value.getPath path).IsInherited path := by
  induction path generalizing value with
  | nil => cases misses
  | cons key rest ih =>
      cases value with
      | record fields =>
          rw [IsRooted] at rooted
          rw [touch] at misses
          rw [getPath_cons]
          cases held : fields.get? key with
          | none =>
              refine ⟨key :: rest, List.cons_ne_nil _ _, List.suffix_refl _, ?_⟩
              rw [Fields.read_of_lacking rooted.parent held, getPath_cons]
          | some inner =>
              rw [held] at misses
              obtain ⟨ending, somewhere, suffix, seen⟩ := ih (rooted.of_get? held) misses
              rw [Fields.read_of_get? held]
              exact ⟨ending, somewhere, suffix.trans (List.suffix_cons _ _), seen⟩
      | absent | null | flag | number | text | list => cases misses

-----------------------------------------------------------------------------------------
-- One layer over another
-----------------------------------------------------------------------------------------

/-- Only a record is merged with what it is laid over. -/
theorem over_of_fields?_eq_none {upper : Value} (noRecord : upper.fields? = none) (below : Seen)
    : upper.over below = upper := by
  cases upper with
  | record fields => cases noRecord
  | absent | null | flag | number | text | list => rfl

/-- Only a record is merged with what is laid over it. -/
theorem over_noRecord (upper : Value) {below : Seen} (noRecord : below.fields? = none)
    : upper.over below = upper := by
  cases upper with
  | record fields => rw [Value.over, noRecord]
  | absent | null | flag | number | text | list => rfl

/-- A record laid over anything is a record. -/
theorem exists_over_record (fields : Fields) (below : Seen)
    : ∃ merged, (Value.record fields).over below = .record merged := by
  rw [Value.over]
  split <;> exact ⟨_, rfl⟩

end Value

namespace Fields

/-- A layer touches a path where the value under its first key does. -/
theorem touch_of_get? {layer : Fields} {key : Text} {value : Value}
    (held : layer.get? key = some value) (rest : List Text)
    : layer.touch (key :: rest) = value.touch rest := by
  rw [touch, Value.touch, held]

/-- A layer that lacks the first key of a path misses it. -/
theorem touch_of_lacking {layer : Fields} {key : Text} (lacks : layer.get? key = none)
    (rest : List Text)
    : layer.touch (key :: rest) = .misses := by
  rw [touch, Value.touch, lacks]

/-- Where the upper layer lacks the first key of a path, the lower one is followed. -/
theorem touch_merge_of_lacking (lower : Fields) {upper : Fields} (plain : upper.IsPlain) {key : Text}
    (lacks : upper.get? key = none) (rest : List Text)
    : (lower.merge upper).touch (key :: rest) = lower.touch (key :: rest) := by
  rw [touch, touch, Value.touch, Value.touch, get?_merge lower plain, lacks]

/-- Where the upper layer has the first key of a path, its value is followed as it is laid over what the
lower one shows. -/
theorem touch_merge_of_get? (lower : Fields) {upper : Fields} (plain : upper.IsPlain) {key : Text}
    {value : Value} (held : upper.get? key = some value) (rest : List Text)
    : (lower.merge upper).touch (key :: rest) = (value.over (lower.own.read key)).touch rest := by
  refine touch_of_get? ?_ rest
  rw [get?_merge lower plain, held]

/-- What merged layers say about a path, by what the upper layer says alone. -/
inductive TouchOver (lower merged : Fields) (path : List Text) : Touch → Prop
  | defines {value : Value} (below : Seen) (defines : merged.touch path = .defines (value.over below))
    : TouchOver lower merged path (.defines value)
  | blocks (blocks : merged.touch path = .blocks) : TouchOver lower merged path .blocks
  | kept (same : merged.touch path = lower.touch path) : TouchOver lower merged path .misses
  /-- What stood in the way of the path has been replaced by a record. -/
  | cleared (blocked : lower.touch path = .blocks) (misses : merged.touch path = .misses)
    : TouchOver lower merged path .misses

/-- A path that leads through merged records under its first key is followed inside of them. -/
theorem TouchOver.within {lower merged below inner : Fields} {key : Text} {rest : List Text}
    {said : Touch} (inside : TouchOver below inner rest said)
    (lowerInner : lower.touch (key :: rest) = below.touch rest)
    (mergedInner : merged.touch (key :: rest) = inner.touch rest)
    : TouchOver lower merged (key :: rest) said := by
  cases inside with
  | defines below defines => exact .defines below (mergedInner.trans defines)
  | blocks blocks => exact .blocks (mergedInner.trans blocks)
  | kept same => exact .kept (mergedInner.trans (same.trans lowerInner.symm))
  | cleared blocked misses => exact .cleared (lowerInner.trans blocked) (mergedInner.trans misses)

/-- A value of the upper layer that replaces what the lower one shows under the first key of a path. -/
theorem touchOver_of_replaced {lower merged : Fields} {key : Text} {value : Value} {rest : List Text}
    (noRecord : (lower.own.read key).fields? = none)
    (replaced : merged.touch (key :: rest) = value.touch rest)
    : TouchOver lower merged (key :: rest) (value.touch rest) := by
  cases said : value.touch rest with
  | defines found =>
      refine .defines .absent ?_
      rw [Value.over_noRecord found rfl, replaced, said]
  | blocks => exact .blocks (replaced.trans said)
  | misses =>
      -- Whatever the lower layer has under the key leads nowhere.
      cases below : lower.get? key with
      | none => exact .kept (by rw [replaced, said, touch_of_lacking below])
      | some held =>
          rw [read_of_get? (by rw [get?_own, below])] at noRecord
          refine .cleared ?_ (replaced.trans said)
          rw [touch_of_get? below]
          cases rest with
          | nil => cases said
          | cons next more => exact Value.touch_cons_of_plain noRecord next more

/-- By induction on the path. Where both layers have a record under the first key the two are merged,
and otherwise the upper layer decides, or the lower one if the upper one has nothing there. -/
theorem touchOver_merge (lower : Fields) {upper : Fields} (plain : upper.IsPlain) (key : Text)
    (rest : List Text)
    : TouchOver lower (lower.merge upper) (key :: rest) (upper.touch (key :: rest)) := by
  induction rest generalizing lower upper key with
  | nil =>
      cases held : upper.get? key with
      | none =>
          rw [touch_of_lacking held]
          exact .kept (touch_merge_of_lacking lower plain held [])
      | some value =>
          rw [touch_of_get? held]
          exact .defines _ (touch_merge_of_get? lower plain held [])
  | cons next more ih =>
      cases held : upper.get? key with
      | none =>
          rw [touch_of_lacking held]
          exact .kept (touch_merge_of_lacking lower plain held _)
      | some value =>
          have merged := touch_merge_of_get? lower plain held (next :: more)
          rw [touch_of_get? held]
          cases seen : (lower.own.read key).fields? with
          | none =>
              rw [Value.over_noRecord value seen] at merged
              exact touchOver_of_replaced seen merged
          | some below =>
              cases value with
              | record inner =>
                  have mine := get?_of_read_fields? lower.parent_own (plain.ne_gateKey held) seen
                  rw [get?_own] at mine
                  rw [Value.over, seen] at merged
                  exact (ih below (plain.of_get? held) next).within (touch_of_get? mine _) merged
              | absent | null | flag | number | text | list => exact .blocks merged

-----------------------------------------------------------------------------------------
-- All layers
-----------------------------------------------------------------------------------------

/-- Merging plain layers over a rooted record gives a rooted one, by induction on the layers. -/
theorem isRooted_foldl_merge {lower : Fields} (rooted : lower.IsRooted) {layers : List Fields}
    (plain : ∀ layer ∈ layers, layer.IsPlain)
    : (layers.foldl merge lower).IsRooted := by
  induction layers generalizing lower with
  | nil => exact rooted
  | cons layer rest ih =>
      exact ih (isRooted_merge rooted (plain layer List.mem_cons_self))
        fun other member => plain other (.tail _ member)

/-- Layers that miss a path change nothing there, except that they may clear a path that is blocked. By
induction on the layers. -/
theorem touch_foldl_of_misses (lower : Fields) {layers : List Fields}
    (plain : ∀ layer ∈ layers, layer.IsPlain) {key : Text} {rest : List Text}
    (misses : ∀ layer ∈ layers, layer.touch (key :: rest) = .misses)
    : TouchOver lower (layers.foldl merge lower) (key :: rest) .misses := by
  induction layers generalizing lower with
  | nil => exact .kept rfl
  | cons layer others ih =>
      have first := touchOver_merge lower (plain layer List.mem_cons_self) key rest
      rw [misses layer List.mem_cons_self] at first
      have later := ih (lower.merge layer) (fun other member => plain other (.tail _ member))
        fun other member => misses other (.tail _ member)
      rw [List.foldl_cons]
      cases first with
      | kept same =>
          cases later with
          | kept still => exact .kept (still.trans same)
          | cleared blocked cleared => exact .cleared (same.symm.trans blocked) cleared
      | cleared blocked cleared =>
          cases later with
          | kept still => exact .cleared blocked (still.trans cleared)
          | cleared _ misses => exact .cleared blocked misses

/-- So plain layers merge to a rooted record. -/
theorem isRooted_mergeAll {layers : List Fields} (plain : ∀ layer ∈ layers, layer.IsPlain)
    : (mergeAll layers).IsRooted := by
  cases layers with
  | nil => trivial
  | cons first rest =>
      exact isRooted_foldl_merge (plain first List.mem_cons_self).isRooted
        fun layer member => plain layer (.tail _ member)

section LastTouch

variable {earlier later : List Fields} {last : Fields}
  (plain : ∀ layer ∈ earlier ++ last :: later, layer.IsPlain) {key : Text} {rest : List Text}
  (misses : ∀ layer ∈ later, layer.touch (key :: rest) = .misses)

include plain misses

/-- After the last layer that touches a path, the merged layers say the same of it, except that a path
that is blocked may be cleared. Witness: the layers up to that one merged, and then the rest. -/
theorem touchOver_mergeAll
    : ∃ lower,
        TouchOver lower (mergeAll (earlier ++ last :: later)) (key :: rest) .misses
        ∧ ((lower = last) ∨ TouchOver (mergeAll earlier) lower (key :: rest) (last.touch (key :: rest)))
    := by
  have plainLater : ∀ layer ∈ later, layer.IsPlain := fun layer member =>
    plain layer (List.mem_append_right _ (.tail _ member))
  cases earlier with
  | nil => exact ⟨last, touch_foldl_of_misses last plainLater misses, .inl rfl⟩
  | cons first others =>
      refine ⟨(mergeAll (first :: others)).merge last, ?_, .inr ?_⟩
      · have split : mergeAll (first :: others ++ last :: later)
            = later.foldl merge ((mergeAll (first :: others)).merge last) := by
          simp [mergeAll]
        rw [split]
        exact touch_foldl_of_misses _ plainLater misses
      · exact touchOver_merge _ (plain last (by simp)) key rest

/-- If the last layer that touches a path blocks it, the merged layers block it or miss it. -/
theorem touch_mergeAll_of_blocks (blocks : last.touch (key :: rest) = .blocks)
    : (mergeAll (earlier ++ last :: later)).touch (key :: rest) = .blocks
      ∨ (mergeAll (earlier ++ last :: later)).touch (key :: rest) = .misses := by
  obtain ⟨lower, laid, reached⟩ := touchOver_mergeAll plain misses
  have blocked : lower.touch (key :: rest) = .blocks := by
    rcases reached with rfl | merged
    · exact blocks
    · rw [blocks] at merged
      cases merged with
      | blocks blocks => exact blocks
  cases laid with
  | kept same => exact .inl (same.trans blocked)
  | cleared _ misses => exact .inr misses

/-- If the last layer that touches a path defines a value there, so do the merged layers, and it is that
value laid over something. -/
theorem touch_mergeAll_of_defines {value : Value} (defines : last.touch (key :: rest) = .defines value)
    : ∃ below,
        (mergeAll (earlier ++ last :: later)).touch (key :: rest) = .defines (value.over below) := by
  obtain ⟨lower, laid, reached⟩ := touchOver_mergeAll plain misses
  obtain ⟨below, defined⟩ : ∃ below, lower.touch (key :: rest) = .defines (value.over below) := by
    rcases reached with rfl | merged
    · exact ⟨.absent, by rw [Value.over_noRecord value rfl, defines]⟩
    · rw [defines] at merged
      cases merged with
      | defines below defined => exact ⟨below, defined⟩
  cases laid with
  | kept same => exact ⟨below, same.trans defined⟩
  | cleared blocked _ => cases defined.symm.trans blocked

end LastTouch

/-- No layer touches a path, so the merged layers do not. -/
theorem touch_mergeAll_of_misses {layers : List Fields} (plain : ∀ layer ∈ layers, layer.IsPlain)
    {key : Text} {rest : List Text} (misses : ∀ layer ∈ layers, layer.touch (key :: rest) = .misses)
    : (mergeAll layers).touch (key :: rest) = .misses := by
  cases layers with
  | nil => rfl
  | cons first others =>
      have missed := misses first List.mem_cons_self
      have later := touch_foldl_of_misses first (fun layer member => plain layer (.tail _ member))
        fun layer member => misses layer (.tail _ member)
      cases later with
      | kept same => exact same.trans missed
      | cleared _ misses => exact misses

/-- What is seen at a path of merged layers, if they have no keys of the gate and no parents of their
own. If no layer touches the path, it is what records inherit. Otherwise the last layer that touches it
decides: if it blocks the path there is nothing but what records inherit, if it defines anything but a
record there that is what is seen, and if it defines a record a record is seen. Where no key of the path
is an inherited name, nothing is inherited. -/
theorem getPath_mergeAll_of_last_touch {layers : List Fields}
    (plain : ∀ layer ∈ layers, layer.IsPlain) (path : Text)
    : let keys := keysOfPath path
      let found := (Value.record (mergeAll layers)).getPath keys
      ((∀ layer ∈ layers, layer.touch keys = .misses) → found.IsInherited keys)
      ∧ (∀ earlier last later,
          layers = earlier ++ last :: later
          → (∀ layer ∈ later, layer.touch keys = .misses)
          → (last.touch keys = .blocks → found = .absent ∨ found.IsInherited keys)
            ∧ (∀ value : Value,
                last.touch keys = .defines value → value.fields? = none → found = value)
            ∧ ∀ fields,
                last.touch keys = .defines (.record fields)
                → ∃ merged, found = Value.record merged)
      ∧ ((∀ key ∈ keys, key ∉ inheritedNames) → ∀ seen : Seen, seen.IsInherited keys → seen = .absent)
    := by
  intro keys found
  obtain ⟨key, rest, split⟩ := List.exists_cons_of_ne_nil (Text.pieces_ne_nil _ _ path)
  replace split : keys = key :: rest := split
  have rooted : (Value.record (mergeAll layers)).IsRooted := isRooted_mergeAll plain
  refine ⟨fun misses => ?_, ?_, fun strange seen inherited => inherited.eq_absent strange⟩
  · rw [split] at misses
    have missed := touch_mergeAll_of_misses plain misses
    rw [← split] at missed
    exact Value.isInherited_of_misses rooted missed
  · rintro earlier last later rfl misses
    rw [split] at misses
    refine ⟨fun blocks => ?_, fun value defines noRecord => ?_, fun fields defines => ?_⟩
    · rw [split] at blocks
      rcases touch_mergeAll_of_blocks plain misses blocks with blocked | missed
      · rw [← split] at blocked
        exact .inl (Value.getPath_of_blocks blocked)
      · rw [← split] at missed
        exact .inr (Value.isInherited_of_misses rooted missed)
    · rw [split] at defines
      obtain ⟨below, defined⟩ := touch_mergeAll_of_defines plain misses defines
      rw [Value.over_of_fields?_eq_none noRecord, ← split] at defined
      exact Value.getPath_of_defines defined
    · rw [split] at defines
      obtain ⟨below, defined⟩ := touch_mergeAll_of_defines plain misses defines
      obtain ⟨merged, isRecord⟩ := Value.exists_over_record fields below
      rw [isRecord, ← split] at defined
      exact ⟨merged, Value.getPath_of_defines defined⟩

/-- Layers that have a record, null and records again under the same key. -/
def sampleLayers : List Fields :=
  let under (fields : Fields) : Fields := .cons (Text.ofString "a") (.record fields) .nil
  [ under (.cons (Text.ofString "b") (.flag true) (.cons (Text.ofString "c") (.flag true) .nil)),
    .cons (Text.ofString "a") .null .nil,
    under (.cons (Text.ofString "x") (.list []) .nil),
    under (.cons (Text.ofString "b") (.record (.cons (Text.ofString "y") .absent .nil)) .nil) ]

/-- In the sample layers one path is untouched, one is blocked by null, and two are defined last by a
list and by a record. -/
theorem getPath_mergeAll_of_last_touch_sample
    : let found (path : String) :=
        (Value.record (mergeAll sampleLayers)).getPath (keysOfPath (Text.ofString path))
      (∀ layer ∈ sampleLayers, layer.IsPlain)
      ∧ found "z" = .absent
      ∧ found "a.c" = .absent
      ∧ found "a.x" = Value.list []
      ∧ ∃ merged, found "a.b" = Value.record merged := by
  have plain : ∀ layer ∈ sampleLayers, layer.IsPlain := by
    simp [sampleLayers, IsPlain, Value.IsPlain, get?, gateKey, Text.ofString, Text.ofCharacter]
  have one {path : List Text} (first : Fields) {rest : List Fields}
      (misses : first.touch path = .misses) (others : ∀ layer ∈ rest, layer.touch path = .misses)
      : ∀ layer ∈ first :: rest, layer.touch path = .misses := by
    rintro layer (_ | ⟨_, member⟩)
    · exact misses
    · exact others layer member
  have none (path : List Text) : ∀ layer ∈ [], touch layer path = .misses := List.forall_mem_nil _
  have decided path := getPath_mergeAll_of_last_touch plain (Text.ofString path)
  refine ⟨plain, ?_, ?_, ?_, ?_⟩
  · obtain ⟨untouched, _, strange⟩ := decided "z"
    exact strange (by decide) _ (untouched (one _ rfl (one _ rfl (one _ rfl (one _ rfl (none _))))))
  · obtain ⟨_, touched, strange⟩ := decided "a.c"
    have blocked :=
      (touched (sampleLayers.take 1) _ _ rfl (one _ rfl (one _ rfl (none _)))).1 rfl
    exact blocked.elim id (strange (by decide) _)
  · exact ((decided "a.x").2.1 (sampleLayers.take 2) _ _ rfl (one _ rfl (none _))).2.1 _ rfl rfl
  · exact ((decided "a.b").2.1 (sampleLayers.take 3) _ _ rfl (none _)).2.2 _ rfl

/-- Records show what they inherit where no layer touches a path or a layer blocks it, and what a layer
has under the key of the gate is not seen there. -/
theorem layers_show_inherited
    : let toString := Text.ofString "toString"
      let blocking : List Fields :=
        [ .cons (Text.ofString "a") .null .nil, .cons (Text.ofString "a") (.record .nil) .nil ]
      let gate : Fields := .cons gateKey (.number 5) .nil
      touch .nil (keysOfPath toString) = .misses
      ∧ (Value.record (mergeAll [.nil])).getPath (keysOfPath toString) ≠ .absent
      ∧ blocking.map (·.touch (keysOfPath (Text.ofString "a.toString"))) = [.blocks, .misses]
      ∧ (Value.record (mergeAll blocking)).getPath (keysOfPath (Text.ofString "a.toString")) ≠ .absent
      ∧ gate.touch (keysOfPath gateKey) = .defines (.number 5)
      ∧ (Value.record (mergeAll [.nil, gate])).getPath (keysOfPath gateKey) ≠ Value.number 5 := by
  refine ⟨rfl, ?_, rfl, ?_, rfl, ?_⟩
  · nofun
  · nofun
  · nofun

end Fields

end StagedParser
