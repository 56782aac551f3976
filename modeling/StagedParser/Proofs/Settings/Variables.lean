import StagedParser.Proofs.Settings.Reordering
import StagedParser.Proofs.Settings.Spelling

/-! Settings from variables that do not get in each other's way.
If the paths of all settings in an environment part ways, the order of the variables shows in the order
of keys only, every variable can be read back at its path, and there is nothing else to be read.
-/

namespace StagedParser

-----------------------------------------------------------------------------------------
-- Texts without two underscores in a row
-----------------------------------------------------------------------------------------

namespace Text

/-- There are no two underscores in a row in a text. -/
def Unpaired (text : Text) : Prop :=
  ¬ [95, 95] <:+: text

/-- An empty text has no pairs. -/
theorem unpaired_nil : Unpaired [] := by
  simp [Unpaired]

/-- Pairs of underscores begin at the first unit or later. -/
theorem unpaired_cons {unit : CodeUnit} {rest : Text}
    : Unpaired (unit :: rest) ↔ (unit = 95 → rest.head? ≠ some 95) ∧ Unpaired rest := by
  have begins : [95, 95] <+: unit :: rest ↔ unit = 95 ∧ rest.head? = some 95 := by
    cases rest with
    | nil => simp [List.cons_prefix_cons]
    | cons next more => simp [List.cons_prefix_cons, eq_comm]
  rw [Unpaired, List.infix_cons_iff, begins, not_or, not_and, Unpaired]

/-- What a text is cut into begins with a part of the text, by induction on the text. -/
theorem head_pieces_prefix {separator text first : Text} {others : List Text}
    (cut : pieces separator 0 text = first :: others)
    : first <+: text := by
  induction text generalizing first others with
  | nil =>
      cases cut
      exact List.prefix_refl _
  | cons unit rest ih =>
      rw [pieces] at cut
      split at cut
      · cases cut
        exact List.nil_prefix
      · obtain ⟨part, more, cutRest⟩ := List.exists_cons_of_ne_nil (pieces_ne_nil separator 0 rest)
        rw [cutRest] at cut
        cases cut
        exact List.cons_prefix_cons.mpr ⟨rfl, ih cutRest⟩

/-- Cutting a text at pairs of underscores leaves none of them, by the steps of cutting. -/
theorem unpaired_of_mem_pieces {skip : Nat} {text piece : Text}
    (member : piece ∈ pieces [95, 95] skip text)
    : piece.Unpaired := by
  fun_induction pieces [95, 95] skip text generalizing piece with
  | case1 =>
      obtain rfl := List.mem_singleton.mp member
      exact unpaired_nil
  | case2 skip unit rest ih => exact ih member
  | case3 unit rest _ ih =>
      rcases List.mem_cons.mp member with rfl | later
      · exact unpaired_nil
      · exact ih later
  | case4 unit rest noPair ih =>
      obtain ⟨first, others, cut⟩ := List.exists_cons_of_ne_nil (pieces_ne_nil [95, 95] 0 rest)
      rw [cut] at member ih
      rcases List.mem_cons.mp member with rfl | later
      · -- The first piece goes on with what follows in the text, which is no second underscore.
        refine unpaired_cons.mpr ⟨?_, ih List.mem_cons_self⟩
        rintro rfl second
        obtain ⟨after, rfl⟩ := head_pieces_prefix cut
        obtain ⟨more, rfl⟩ := List.head?_eq_some_iff.mp second
        exact noPair (by simp)
      · exact ih (List.mem_cons_of_mem first later)

/-- Whatever a dotted path is cut into is a part of it, by induction on the path. -/
theorem infix_of_mem_pieces {unit : CodeUnit} {text piece : Text}
    (member : piece ∈ pieces [unit] 0 text)
    : piece <:+: text := by
  induction text generalizing piece with
  | nil =>
      obtain rfl := List.mem_singleton.mp member
      exact List.infix_refl _
  | cons first rest ih =>
      rw [pieces] at member
      split at member
      · rcases List.mem_cons.mp member with rfl | later
        · exact List.nil_infix
        · exact (ih later).trans (List.infix_cons (List.infix_refl _))
      · obtain ⟨part, others, cut⟩ := List.exists_cons_of_ne_nil (pieces_ne_nil [unit] 0 rest)
        rw [cut] at member
        rcases List.mem_cons.mp member with rfl | later
        · exact (List.cons_prefix_cons.mpr ⟨rfl, head_pieces_prefix cut⟩).isInfix
        · have inside : piece ∈ pieces [unit] 0 rest := cut ▸ List.mem_cons_of_mem part later
          exact (ih inside).trans (List.infix_cons (List.infix_refl _))

end Text

/-- The keys of joined paths are those of the paths, by induction on the paths. -/
theorem mem_keysOfPath_joinWith {parts : List Text} (some : parts ≠ []) {key : Text}
    (member : key ∈ keysOfPath (Text.joinWith Text.dot parts))
    : ∃ part ∈ parts, key ∈ keysOfPath part := by
  induction parts with
  | nil => exact absurd rfl some
  | cons first rest ih =>
      by_cases last : rest = []
      · subst last
        exact ⟨first, List.mem_cons_self, member⟩
      · rw [Text.joinWith_cons _ _ last, keysOfPath_append] at member
        rcases List.mem_append.mp member with here | later
        · exact ⟨first, List.mem_cons_self, here⟩
        · obtain ⟨part, inside, holds⟩ := ih last later
          exact ⟨part, List.mem_cons_of_mem first inside, holds⟩

namespace Environment

/-- No small letter or digit has an underscore as its capital. -/
theorem capital_ne_underscore {unit : CodeUnit}
    (marked : (Text.isLowerUnit unit || Text.isDigitUnit unit) = true)
    : capital unit ≠ 95 := by
  grind [capital, Text.isLowerUnit, Text.isDigitUnit]

/-- Marking capitals makes no pairs of underscores, by the steps of marking: a unit that is kept is
followed by a kept unit or by a capital or digit. -/
theorem unpaired_camelCase {text : Text} (unpaired : text.Unpaired) : (camelCase text).Unpaired := by
  fun_induction camelCase text with
  | case1 => exact unpaired
  | case2 unit => exact unpaired
  | case3 unit next rest marked ih =>
      have later := (Text.unpaired_cons.mp (Text.unpaired_cons.mp unpaired).2).2
      exact Text.unpaired_cons.mpr ⟨fun same => absurd same (capital_ne_underscore marked.2), ih later⟩
  | case4 unit next rest kept ih =>
      obtain ⟨apart, later⟩ := Text.unpaired_cons.mp unpaired
      refine Text.unpaired_cons.mpr ⟨fun same => ?_, ih later⟩
      have plain : next ≠ 95 := fun second => apart same (congrArg some second)
      rw [camelCase_cons_of_ne plain]
      exact fun second => plain (Option.some.inj second)

/-- No key on the way to a setting is the one of the gate, which begins with two underscores. -/
theorem gateKey_not_mem_keys (name : Text) : gateKey ∉ keysOfPath (pathOfName name) := by
  intro member
  have cut : (name.lowerCase.splitOn (Text.ofString "__")).map camelCase ≠ [] :=
    mt List.map_eq_nil_iff.mp (Text.pieces_ne_nil _ 0 _)
  obtain ⟨part, inside, holds⟩ := mem_keysOfPath_joinWith cut member
  obtain ⟨piece, among, rfl⟩ := List.mem_map.mp inside
  have unpaired := unpaired_camelCase (Text.unpaired_of_mem_pieces among)
  have begins : [95, 95] <:+: gateKey := ⟨[], gateKey.drop 2, by decide⟩
  exact unpaired (begins.trans (Text.infix_of_mem_pieces holds))

/-- The keys on the way to the setting that a variable holds, if it holds one. -/
def keys? (assignment : Text × Text) : Option (List Text) :=
  (settingPath? assignment.1).map keysOfPath

/-- The paths of the settings that the environment holds, in the order of the variables. -/
def paths (environment : Environment) : List (List Text) :=
  environment.filterMap keys?

/-- The path of a variable has a key at least. -/
theorem ne_nil_of_keys? {assignment : Text × Text} {keys : List Text}
    (found : keys? assignment = some keys)
    : keys ≠ [] := by
  obtain ⟨path, _, rfl⟩ := Option.map_eq_some_iff.mp found
  exact Text.pieces_ne_nil _ _ path

/-- The path of a variable never goes through the gate, since its name is cut at pairs of
underscores. -/
theorem gateKey_not_mem_of_keys? {assignment : Text × Text} {keys : List Text}
    (found : keys? assignment = some keys)
    : gateKey ∉ keys := by
  obtain ⟨path, decoded, rfl⟩ := Option.map_eq_some_iff.mp found
  rw [settingPath?] at decoded
  split at decoded
  · cases decoded
    exact gateKey_not_mem_keys _
  · cases decoded

/-- The value of a setting from a variable is no record. -/
theorem settingValue_plain (text : Text) : (settingValue text).fields? = none := by
  rw [settingValue]
  split
  · rfl
  · split
    · rfl
    · split <;> rfl

/-- So it is rooted. -/
theorem isRooted_settingValue (text : Text) : (settingValue text).IsRooted := by
  have plain := settingValue_plain text
  cases held : settingValue text with
  | record fields => cases held ▸ plain
  | absent | null | flag | number | text | list => trivial

-----------------------------------------------------------------------------------------
-- One variable
-----------------------------------------------------------------------------------------

/-- Puts the setting that a variable holds into fields by the own keys of records. -/
def graftSetting (fields : Fields) (assignment : Text × Text) : Fields :=
  (keys? assignment).elim fields (fields.graft · (settingValue assignment.2))

/-- A variable that holds a setting grafts its value. -/
theorem graftSetting_of_some (fields : Fields) {assignment : Text × Text} {keys : List Text}
    (found : keys? assignment = some keys)
    : graftSetting fields assignment = fields.graft keys (settingValue assignment.2) := by
  rw [graftSetting, found, Option.elim]

/-- A variable that holds none changes nothing. -/
theorem graftSetting_of_none (fields : Fields) {assignment : Text × Text}
    (missing : keys? assignment = none)
    : graftSetting fields assignment = fields := by
  rw [graftSetting, missing, Option.elim]

/-- A variable whose name lacks the leader holds no setting. -/
theorem keys?_of_unled {assignment : Text × Text} (unled : leader.isPrefixOf assignment.1 = false)
    : keys? assignment = none := by
  rw [keys?, settingPath?, unled]
  rfl

/-- Settings from variables keep records rooted. -/
theorem isRooted_graftSetting {fields : Fields} (rooted : fields.IsRooted) (assignment : Text × Text)
    : (graftSetting fields assignment).IsRooted := by
  cases found : keys? assignment with
  | none => rwa [graftSetting_of_none _ found]
  | some keys =>
      rw [graftSetting_of_some _ found]
      exact rooted.graft keys (isRooted_settingValue _)

/-- In records that inherit from the root, a setting is put by their own keys. -/
theorem addSetting_eq_graftSetting {fields : Fields} (rooted : fields.IsRooted)
    (assignment : Text × Text)
    : addSetting fields assignment = graftSetting fields assignment := by
  cases decoded : settingPath? assignment.1 with
  | none =>
      have missing : keys? assignment = none := by rw [keys?, decoded]; rfl
      rw [addSetting, decoded, graftSetting_of_none _ missing]
  | some path =>
      have found : keys? assignment = some (keysOfPath path) := by rw [keys?, decoded]; rfl
      rw [addSetting, decoded, graftSetting_of_some _ found]
      exact Fields.putPath_eq_graft rooted (gateKey_not_mem_of_keys? found) _

/-- The settings that the environment holds, by the own keys of records. By induction on the variables:
there is no way for a record to inherit from anything but the root. -/
theorem foldl_addSetting_eq {fields : Fields} (rooted : fields.IsRooted) (environment : Environment)
    : environment.foldl addSetting fields = environment.foldl graftSetting fields := by
  induction environment generalizing fields with
  | nil => rfl
  | cons assignment rest ih =>
      rw [List.foldl_cons, List.foldl_cons, addSetting_eq_graftSetting rooted]
      exact ih (isRooted_graftSetting rooted assignment)

/-- The settings of the environment are grafted one after another. -/
theorem settings_eq (environment : Environment)
    : environment.settings = environment.foldl graftSetting .nil :=
  foldl_addSetting_eq Fields.isRooted_nil environment

/-- Variables whose settings, if both hold one, are at paths that part ways. -/
def Compatible (assignment other : Text × Text) : Prop :=
  ∀ keys, keys? assignment = some keys → ∀ more, keys? other = some more → Diverge keys more

/-- Compatibility is mutual. -/
theorem Compatible.symm {assignment other : Text × Text} (compatible : Compatible assignment other)
    : Compatible other assignment :=
  fun more foundOther keys found => (compatible keys found more foundOther).symm

/-- Variables are compatible where their paths diverge. -/
theorem pairwise_compatible_iff {environment : Environment}
    : environment.Pairwise Compatible ↔ environment.paths.Pairwise Diverge :=
  List.pairwise_filterMap.symm

/-- A setting keeps records reordered. -/
theorem reordered_graftSetting {fields other : Fields} (reordered : fields.Reordered other)
    (assignment : Text × Text)
    : (graftSetting fields assignment).Reordered (graftSetting other assignment) := by
  cases found : keys? assignment with
  | none => rwa [graftSetting_of_none _ found, graftSetting_of_none _ found]
  | some keys =>
      rw [graftSetting_of_some _ found, graftSetting_of_some _ found]
      exact reordered.graft keys _

/-- Compatible variables can change places. -/
theorem reordered_graftSetting_graftSetting (fields : Fields) {assignment other : Text × Text}
    (compatible : Compatible assignment other)
    : (graftSetting (graftSetting fields assignment) other).Reordered
        (graftSetting (graftSetting fields other) assignment) := by
  cases found : keys? assignment with
  | none =>
      simp only [graftSetting_of_none _ found]
      exact .refl _
  | some keys =>
      cases foundOther : keys? other with
      | none =>
          simp only [graftSetting_of_none _ foundOther]
          exact .refl _
      | some more =>
          simp only [graftSetting_of_some _ found, graftSetting_of_some _ foundOther]
          exact Fields.reordered_graft_graft fields (compatible keys found more foundOther) _ _

-----------------------------------------------------------------------------------------
-- All variables
-----------------------------------------------------------------------------------------

/-- The paths of variables are those of the earlier and the later ones. -/
theorem paths_append (earlier later : Environment)
    : paths (earlier ++ later) = earlier.paths ++ later.paths :=
  List.filterMap_append

/-- A variable that holds a setting adds its path. -/
theorem paths_cons_of_some {assignment : Text × Text} {keys : List Text}
    (found : keys? assignment = some keys) (rest : Environment)
    : paths (assignment :: rest) = keys :: rest.paths :=
  List.filterMap_cons_some found

/-- One that holds none adds nothing. -/
theorem paths_cons_of_none {assignment : Text × Text} (missing : keys? assignment = none)
    (rest : Environment)
    : paths (assignment :: rest) = rest.paths :=
  List.filterMap_cons_none missing

/-- The same variables keep fields reordered, by induction on the variables. -/
theorem reordered_foldl {fields other : Fields} (reordered : fields.Reordered other)
    (environment : Environment)
    : (environment.foldl graftSetting fields).Reordered (environment.foldl graftSetting other) := by
  induction environment generalizing fields other with
  | nil => exact reordered
  | cons assignment rest ih => exact ih (reordered_graftSetting reordered assignment)

/-- Compatible variables in another order make reordered fields, by the ways of permuting them. -/
theorem reordered_foldl_of_perm {environment permuted : Environment}
    (perm : List.Perm environment permuted) (compatible : environment.Pairwise Compatible)
    (fields : Fields)
    : (environment.foldl graftSetting fields).Reordered (permuted.foldl graftSetting fields) := by
  induction perm generalizing fields with
  | nil => exact .refl fields
  | cons assignment _ ih => exact ih compatible.of_cons (graftSetting fields assignment)
  | swap assignment other rest =>
      have apart : Compatible other assignment :=
        List.rel_of_pairwise_cons compatible List.mem_cons_self
      exact reordered_foldl (reordered_graftSetting_graftSetting fields apart) rest
  | trans first _ ihFirst ihSecond =>
      have between := (first.pairwise_iff Compatible.symm).mp compatible
      exact (ihFirst compatible fields).trans (ihSecond between fields)

/-- Settings at paths that part from a path leave what is defined there, by induction on the variables.
-/
theorem touch_foldl_of_diverge {environment : Environment} {path : List Text}
    (diverge : ∀ other ∈ environment.paths, Diverge other path) {fields : Fields} {value : Value}
    (defines : fields.touch path = .defines value)
    : (environment.foldl graftSetting fields).touch path = .defines value := by
  induction environment generalizing fields with
  | nil => exact defines
  | cons assignment rest ih =>
      rw [List.foldl_cons]
      cases found : keys? assignment with
      | none =>
          rw [paths_cons_of_none found] at diverge
          rw [graftSetting_of_none _ found]
          exact ih diverge defines
      | some keys =>
          rw [paths_cons_of_some found] at diverge
          rw [graftSetting_of_some _ found]
          exact ih (fun other member => diverge other (List.mem_cons_of_mem keys member))
            (Fields.touch_graft_of_diverge (diverge keys List.mem_cons_self) _ defines)

/-- A variable is read back at its path: the variables after it leave that path alone. -/
theorem getPath_settings {environment : Environment}
    (diverge : environment.paths.Pairwise Diverge) {assignment : Text × Text}
    (member : assignment ∈ environment) {keys : List Text} (found : keys? assignment = some keys)
    : (Value.record environment.settings).getPath keys = settingValue assignment.2 := by
  obtain ⟨earlier, later, rfl⟩ := List.append_of_mem member
  rw [paths_append, paths_cons_of_some found] at diverge
  have after : ∀ other ∈ paths later, Diverge other keys := fun other inside =>
    (List.rel_of_pairwise_cons (List.pairwise_append.mp diverge).2.1 inside).symm
  apply Value.getPath_of_defines
  rw [settings_eq, List.foldl_append, List.foldl_cons, graftSetting_of_some _ found]
  exact touch_foldl_of_diverge after (Fields.touch_graft_self _ (ne_nil_of_keys? found) _)

/-- Variables make no leaves but at their paths, by induction on the variables. -/
theorem leaf_of_foldl {environment : Environment} {fields : Fields} {path : List Text} {value : Value}
    (leaf : value.fields? = none)
    (defines : (environment.foldl graftSetting fields).touch path = .defines value)
    : path ∈ environment.paths ∨ fields.touch path = .defines value := by
  induction environment generalizing fields with
  | nil => exact .inr defines
  | cons assignment rest ih =>
      rw [List.foldl_cons] at defines
      cases found : keys? assignment with
      | none =>
          rw [graftSetting_of_none _ found] at defines
          rw [paths_cons_of_none found]
          exact ih defines
      | some keys =>
          rw [graftSetting_of_some _ found] at defines
          rw [paths_cons_of_some found]
          rcases ih defines with member | before
          · exact .inl (List.mem_cons_of_mem keys member)
          · rcases Fields.leaf_of_graft (settingValue_plain _) leaf before with rfl | earlier
            · exact .inl List.mem_cons_self
            · exact .inr earlier

/-- Variables without the leader can be left out, by induction on the variables. -/
theorem foldl_filter_led (environment : Environment) (fields : Fields)
    : (environment.filter (leader.isPrefixOf ·.1)).foldl graftSetting fields
      = environment.foldl graftSetting fields := by
  induction environment generalizing fields with
  | nil => rfl
  | cons assignment rest ih =>
      rw [List.filter_cons]
      cases led : leader.isPrefixOf assignment.1 with
      | true => exact ih _
      | false =>
          rw [List.foldl_cons, graftSetting_of_none _ (keys?_of_unled led)]
          exact ih _

/-- Settings from an environment in which the paths of all settings part ways. The same variables in
any order make the same settings up to the order of keys; each variable's value is found at its path;
whatever is no record in the settings is at the path of a variable; and variables without the leader
count for nothing. -/
theorem settings_of_diverging_paths {environment : Environment}
    (diverge : environment.paths.Pairwise Diverge)
    : (∀ permuted,
        List.Perm environment permuted → environment.settings.Reordered (settings permuted))
      ∧ (∀ name value path,
          (name, value) ∈ environment
          → settingPath? name = some path
          → (Value.record environment.settings).getPath (keysOfPath path) = settingValue value)
      ∧ (∀ path value,
          environment.settings.touch path = .defines value
          → value.fields? = none
          → path ∈ environment.paths)
      ∧ settings (environment.filter (leader.isPrefixOf ·.1)) = environment.settings := by
  refine ⟨?_, ?_, ?_, ?_⟩
  · intro permuted perm
    rw [settings_eq, settings_eq]
    exact reordered_foldl_of_perm perm (pairwise_compatible_iff.mpr diverge) .nil
  · intro name value path member decoded
    exact getPath_settings diverge member (congrArg (Option.map keysOfPath) decoded)
  · intro path value defines leaf
    rw [settings_eq] at defines
    rcases leaf_of_foldl leaf defines with member | before
    · exact member
    · -- Before the first variable there are no fields at all.
      cases path with
      | nil =>
          cases before
          cases leaf
      | cons key rest => cases before
  · rw [settings_eq, settings_eq]
    exact foldl_filter_led environment .nil

instance (path other : List Text) : Decidable (Diverge path other) :=
  inferInstanceAs (Decidable (_ ∧ _))

/-- Two settings in one record, one on its own, and a variable that holds no setting. -/
def sampleEnvironment : Environment :=
  [ (Text.ofString "WEFT_COMPILE__DUMP_SOURCE", Text.ofString "true"),
    (Text.ofString "HOME", Text.ofString "7"),
    (Text.ofString "WEFT_DEBUG", Text.ofString "0"),
    (Text.ofString "WEFT_COMPILE__ENABLED", Text.ofString "no") ]

/-- The sample in either order, one of its settings, and the sample without the other variable.
Witness: its three paths part ways. -/
theorem settings_of_diverging_paths_sample
    : sampleEnvironment.paths.Pairwise Diverge
      ∧ sampleEnvironment.settings.Reordered (settings sampleEnvironment.reverse)
      ∧ (Value.record sampleEnvironment.settings).getPath
            (keysOfPath (Text.ofString "compile.dumpSource"))
          = Value.flag true
      ∧ settings (sampleEnvironment.filter (leader.isPrefixOf ·.1)) = sampleEnvironment.settings := by
  have diverge : sampleEnvironment.paths.Pairwise Diverge := by decide
  obtain ⟨reordered, found, _, led⟩ := settings_of_diverging_paths diverge
  exact ⟨diverge, reordered _ (List.reverse_perm _).symm, found _ _ _ List.mem_cons_self rfl, led⟩

end Environment

end StagedParser
