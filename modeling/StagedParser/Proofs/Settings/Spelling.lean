import StagedParser.Proofs.Settings.Paths
import StagedParser.Settings.Environment

/-! The names of variables for the paths of settings.
A path is spelled with two underscores between its keys and one before each capital of a key, all
letters as capitals. Reading such a name gives the path back, so every path of letters and digits has
a variable of its own.
-/

namespace StagedParser

namespace Text

-----------------------------------------------------------------------------------------
-- Texts that are cut and joined
-----------------------------------------------------------------------------------------

/-- No occurrence of a separator begins inside a text, whatever follows the text. -/
def Avoids (separator : Text) : Text → Prop
  | [] => True
  | unit :: rest =>
    (∀ more, separator.isPrefixOf (unit :: (rest ++ more)) = false) ∧ Avoids separator rest

/-- A text that begins with another unit is no prefix. -/
theorem isPrefixOf_cons_of_ne {first unit : CodeUnit} (differ : first ≠ unit) (more rest : Text)
    : (first :: more).isPrefixOf (unit :: rest) = false := by
  rw [List.isPrefixOf_cons_cons, beq_eq_false_iff_ne.mpr differ, Bool.false_and]

/-- A unit that begins no separator may stand in front of a text that avoids it. -/
theorem avoids_cons_of_ne {first unit : CodeUnit} (differ : first ≠ unit) {more rest : Text}
    (later : Avoids (first :: more) rest)
    : Avoids (first :: more) (unit :: rest) :=
  ⟨fun _ => isPrefixOf_cons_of_ne differ more _, later⟩

/-- The units of a separator that are still to pass are passed. -/
theorem pieces_skip (separator skipped rest : Text)
    : pieces separator skipped.length (skipped ++ rest) = pieces separator 0 rest := by
  induction skipped with
  | nil => rfl
  | cons unit more ih => exact ih

/-- A text in which no separator begins is the first piece of what it begins, by induction on the
text. -/
theorem pieces_of_avoids {separator first : Text} (avoids : Avoids separator first) {rest : Text}
    {others : List Text} (cut : pieces separator 0 rest = [] :: others)
    : pieces separator 0 (first ++ rest) = first :: others := by
  induction first with
  | nil => exact cut
  | cons unit more ih =>
      obtain ⟨here, later⟩ := avoids
      rw [List.cons_append, pieces, here rest, ih later]
      rfl

/-- A text that begins with a separator has an empty first piece. -/
theorem pieces_separator {separator : Text} (nonempty : separator ≠ []) (rest : Text)
    : pieces separator 0 (separator ++ rest) = [] :: pieces separator 0 rest := by
  obtain ⟨unit, more, rfl⟩ := List.exists_cons_of_ne_nil nonempty
  have found : (unit :: more).isPrefixOf (unit :: (more ++ rest)) = true :=
    List.isPrefixOf_iff_prefix.mpr (List.prefix_append (unit :: more) rest)
  rw [List.cons_append, pieces, if_pos found]
  exact congrArg ([] :: ·) (pieces_skip (unit :: more) more rest)

/-- Joined texts are cut where they were joined, by induction on the texts. -/
theorem splitOn_joinWith {separator : Text} (nonempty : separator ≠ []) {parts : List Text}
    (some : parts ≠ []) (avoid : ∀ part ∈ parts, Avoids separator part)
    : (joinWith separator parts).splitOn separator = parts := by
  rw [splitOn]
  induction parts with
  | nil => exact absurd rfl some
  | cons first rest ih =>
      have avoids := avoid first List.mem_cons_self
      cases rest with
      | nil =>
          have alone : pieces separator 0 (first ++ []) = [first] := pieces_of_avoids avoids rfl
          rwa [List.append_nil] at alone
      | cons second more =>
          have later := ih (List.cons_ne_nil second more) fun part member =>
            avoid part (List.mem_cons_of_mem first member)
          have cut := pieces_separator nonempty (joinWith separator (second :: more))
          rw [joinWith, List.append_assoc, pieces_of_avoids avoids cut, later]
          exact List.cons_ne_nil second more

/-- The units of joined parts are those of the separator and of the parts, by the recursion of
joining. -/
theorem mem_joinWith {separator : Text} {parts : List Text} {unit : CodeUnit}
    (member : unit ∈ joinWith separator parts)
    : unit ∈ separator ∨ ∃ part ∈ parts, unit ∈ part := by
  fun_induction joinWith separator parts with
  | case1 => cases member
  | case2 last => exact .inr ⟨last, List.mem_cons_self, member⟩
  | case3 first rest _ ih =>
      rcases List.mem_append.mp member with inside | later
      · rcases List.mem_append.mp inside with own | between
        · exact .inr ⟨first, List.mem_cons_self, own⟩
        · exact .inl between
      · rcases ih later with between | ⟨part, among, inside⟩
        · exact .inl between
        · exact .inr ⟨part, List.mem_cons_of_mem first among, inside⟩

/-- Units are changed alike in the separator and the parts. -/
theorem map_joinWith (change : CodeUnit → CodeUnit) (separator : Text) (parts : List Text)
    : (joinWith separator parts).map change
      = joinWith (separator.map change) (parts.map (·.map change)) := by
  fun_induction joinWith separator parts with
  | case1 => rfl
  | case2 last => rfl
  | case3 first rest several ih =>
      obtain ⟨second, more, rfl⟩ := List.exists_cons_of_ne_nil several
      simp only [List.map_append, ih, List.map_cons, joinWith]

/-- What stands between the keys of a dotted path. -/
def dot : Text := ofString "."

/-- A unit in front goes to the first part. -/
theorem extendFirst_append (unit : CodeUnit) {parts : List Text} (nonempty : parts ≠ [])
    (more : List Text)
    : extendFirst unit (parts ++ more) = extendFirst unit parts ++ more := by
  obtain ⟨first, others, rfl⟩ := List.exists_cons_of_ne_nil nonempty
  rfl

/-- A text is cut at a separator of one unit wherever it stands, by induction on what is before it. -/
theorem pieces_append_separator (unit : CodeUnit) (before after : Text)
    : pieces [unit] 0 (before ++ [unit] ++ after)
      = pieces [unit] 0 before ++ pieces [unit] 0 after := by
  induction before with
  | nil => exact pieces_separator (List.cons_ne_nil unit []) after
  | cons first rest ih =>
      rw [List.cons_append, List.cons_append, pieces, pieces]
      by_cases same : unit = first
      · subst same
        have begins (more : Text) : List.isPrefixOf [unit] (unit :: more) = true := by simp
        rw [if_pos (begins _), if_pos (begins _)]
        exact congrArg ([] :: ·) ih
      · have differs (more : Text) : List.isPrefixOf [unit] (first :: more) = false :=
          isPrefixOf_cons_of_ne same [] more
        rw [differs, differs, ih]
        exact extendFirst_append first (pieces_ne_nil _ 0 rest) _

/-- The first of several parts is followed by a separator. -/
theorem joinWith_cons (separator first : Text) {parts : List Text} (nonempty : parts ≠ [])
    : joinWith separator (first :: parts) = first ++ separator ++ joinWith separator parts := by
  obtain ⟨second, others, rfl⟩ := List.exists_cons_of_ne_nil nonempty
  rfl

/-- Parts are joined in two halves with a separator between, by induction on the first half. -/
theorem joinWith_append (separator : Text) {parts more : List Text} (nonempty : parts ≠ [])
    (further : more ≠ [])
    : joinWith separator (parts ++ more)
      = joinWith separator parts ++ separator ++ joinWith separator more := by
  induction parts with
  | nil => exact absurd rfl nonempty
  | cons first rest ih =>
      cases rest with
      | nil => exact joinWith_cons separator first further
      | cons second others =>
          have later : second :: others ++ more ≠ [] := List.cons_ne_nil second _
          rw [List.cons_append, joinWith_cons separator first later, ih (List.cons_ne_nil second others),
            joinWith_cons separator first (List.cons_ne_nil second others)]
          simp only [List.append_assoc]

/-- The pieces of a text, joined again, are the text. Witness: induction on the text. -/
theorem joinWith_pieces (unit : CodeUnit) (text : Text)
    : joinWith [unit] (pieces [unit] 0 text) = text := by
  induction text with
  | nil => rfl
  | cons first rest ih =>
      obtain ⟨part, others, cut⟩ := List.exists_cons_of_ne_nil (pieces_ne_nil [unit] 0 rest)
      rw [pieces]
      by_cases same : unit = first
      · subst same
        rw [if_pos (by simp)]
        change joinWith [unit] ([] :: pieces [unit] 0 rest) = _
        rw [joinWith_cons _ _ (pieces_ne_nil _ 0 rest), ih]
        rfl
      · rw [isPrefixOf_cons_of_ne same, cut]
        rw [cut] at ih
        change joinWith [unit] ((first :: part) :: others) = first :: rest
        cases others with
        | nil => exact congrArg (first :: ·) ih
        | cons second more => exact congrArg (first :: ·) ih

-----------------------------------------------------------------------------------------
-- Lower-casing of ASCII texts
-----------------------------------------------------------------------------------------

/-- The small letter of an ASCII capital; any other unit is its own. -/
def small (unit : CodeUnit) : CodeUnit :=
  if isUpperUnit unit then unit + 32 else unit

/-- The characters of an ASCII text are its units, by the recursion of reading characters. -/
theorem characters_of_ascii {text : Text} (ascii : ∀ unit ∈ text, unit < 128)
    : text.characters = text.map UInt16.toNat := by
  fun_induction characters text with
  | case1 => rfl
  | case2 unit => rfl
  | case3 high low rest paired ih =>
      have below := ascii high List.mem_cons_self
      simp only [isHighSurrogate, Bool.and_eq_true, decide_eq_true_eq] at paired
      exact absurd (UInt16.lt_of_lt_of_le below (by decide)) (UInt16.not_lt.mpr paired.1.1)
  | case4 high low rest unpaired ih =>
      exact congrArg (high.toNat :: ·)
        (ih fun unit member => ascii unit (List.mem_cons_of_mem high member))

/-- An ASCII text is stored as it is. -/
theorem wellFormed_of_ascii {text : Text} (ascii : ∀ unit ∈ text, unit < 128)
    : text.wellFormed = text := by
  rw [wellFormed, characters_of_ascii ascii, List.flatMap_map, List.flatMap_def]
  have each : ∀ unit ∈ text, ofCharacter
      (if isSurrogate unit.toNat then replacement else unit.toNat) = [unit] := by
    intro unit member
    have below : unit.toNat < 128 := ascii unit member
    have fits : unit.toNat < 65536 := by omega
    have single : isSurrogate unit.toNat = false := by
      grind [isSurrogate]
    simp [single, ofCharacter, fits]
  rw [List.map_congr_left each, ← List.flatMap_def, ← List.map_eq_flatMap, List.map_id']

/-- ASCII characters are lower-cased one by one, whatever stands around them. -/
theorem lowerCharacters_of_ascii {characters : List Nat} (ascii : ∀ c ∈ characters, c < 128)
    (before : List Nat)
    : LetterCase.lowerCharacters before characters
      = characters.flatMap LetterCase.lowerForm := by
  induction characters generalizing before with
  | nil => rfl
  | cons character rest ih =>
      have below := ascii character List.mem_cons_self
      have other : character ≠ LetterCase.capitalSigma := by
        rw [LetterCase.capitalSigma]
        omega
      rw [LetterCase.lowerCharacters, if_neg other, List.flatMap_cons,
        ih fun c member => ascii c (List.mem_cons_of_mem character member)]

/-- The lower form of an ASCII unit is one unit, by whether it is a capital. -/
theorem ofCharacter_lowerForm {unit : CodeUnit} (ascii : unit < 128)
    : (LetterCase.lowerForm unit.toNat).flatMap ofCharacter = [small unit] := by
  have below : unit.toNat < 128 := ascii
  have upper : isUpperUnit unit = true ↔ 65 ≤ unit.toNat ∧ unit.toNat ≤ 90 := by
    simp [isUpperUnit, UInt16.le_iff_toNat_le]
  rw [LetterCase.lowerForm, if_pos below, small]
  by_cases capital : isUpperUnit unit = true
  · rw [if_pos (upper.mp capital), if_pos capital]
    have fits : unit.toNat < 65504 := by omega
    simp [ofCharacter, fits]
  · rw [if_neg (mt upper.mpr capital), if_neg capital]
    have fits : unit.toNat < 65536 := by omega
    simp [ofCharacter, fits]

/-- Lower-casing an ASCII text makes small letters of its capitals. -/
theorem lowerCase_of_ascii {text : Text} (ascii : ∀ unit ∈ text, unit < 128)
    : text.lowerCase = text.map small := by
  have below : ∀ c ∈ text.map UInt16.toNat, c < 128 := by
    intro c member
    obtain ⟨unit, inside, rfl⟩ := List.mem_map.mp member
    exact ascii unit inside
  rw [lowerCase, characters_of_ascii ascii, lowerCharacters_of_ascii below, List.flatMap_assoc,
    List.flatMap_map, List.map_eq_flatMap]
  rw [List.flatMap_def, List.flatMap_def]
  exact congrArg List.flatten
    (List.map_congr_left fun unit member => ofCharacter_lowerForm (ascii unit member))

end Text

-----------------------------------------------------------------------------------------
-- Paths that are cut at their dots
-----------------------------------------------------------------------------------------

/-- The keys of a path that goes on after a dot. -/
theorem keysOfPath_append (path rest : Text)
    : keysOfPath (path ++ Text.dot ++ rest) = keysOfPath path ++ keysOfPath rest :=
  Text.pieces_append_separator 46 path rest

/-- A path has a key at least. -/
theorem keysOfPath_ne_nil (path : Text) : keysOfPath path ≠ [] :=
  Text.pieces_ne_nil _ 0 path

/-- The keys of a path joined by dots are the path. -/
theorem joinWith_keysOfPath (path : Text) : Text.joinWith Text.dot (keysOfPath path) = path :=
  Text.joinWith_pieces 46 path

/-- A path whose keys begin with those of another is the other, or goes on after it with a dot. -/
theorem eq_or_append_of_begins {path other : Text} (begins : keysOfPath path <+: keysOfPath other)
    : other = path ∨ ∃ rest, other = path ++ Text.dot ++ rest := by
  obtain ⟨more, same⟩ := begins
  have joined := joinWith_keysOfPath other
  rw [← same] at joined
  by_cases ended : more = []
  · rw [ended, List.append_nil, joinWith_keysOfPath] at joined
    exact .inl joined.symm
  · rw [Text.joinWith_append _ (keysOfPath_ne_nil path) ended, joinWith_keysOfPath] at joined
    exact .inr ⟨_, joined.symm⟩

namespace Environment

-----------------------------------------------------------------------------------------
-- Spelling keys
-----------------------------------------------------------------------------------------

/-- Whether a unit is an ASCII letter or a digit. -/
def isAlphanumeric (unit : CodeUnit) : Bool :=
  Text.isLowerUnit unit || Text.isUpperUnit unit || Text.isDigitUnit unit

/-- How a unit of a key is written in the name of a variable: a letter as a capital, and after an
underscore if it is one in the key. -/
def spellUnit (unit : CodeUnit) : Text :=
  if Text.isUpperUnit unit then [95, unit] else [capital unit]

/-- How a key is written in the name of a variable. -/
def spell (key : Text) : Text :=
  key.flatMap spellUnit

/-- The name of the variable for the setting at a path. -/
def nameOfPath (keys : List Text) : Text :=
  leader ++ Text.joinWith (Text.ofString "__") (keys.map spell)

/-- The units of names of variables: capitals, digits and underscores. -/
def isNameUnit (unit : CodeUnit) : Bool :=
  Text.isUpperUnit unit || Text.isDigitUnit unit || unit == 95

section Units

variable {unit : CodeUnit}

/-- A capital has its small letter 32 further on. -/
theorem isLowerUnit_add (upper : Text.isUpperUnit unit = true)
    : Text.isLowerUnit (unit + 32) = true := by
  grind [Text.isUpperUnit, Text.isLowerUnit]

/-- And that letter has it as its capital. -/
theorem capital_add (upper : Text.isUpperUnit unit = true) : capital (unit + 32) = unit := by
  grind [capital, Text.isUpperUnit, Text.isLowerUnit]

/-- A small letter is no underscore. -/
theorem ne_underscore_of_isLowerUnit (lower : Text.isLowerUnit unit = true) : unit ≠ 95 := by
  grind [Text.isLowerUnit]

/-- Neither is any letter or digit. -/
theorem ne_underscore (alphanumeric : isAlphanumeric unit = true) : unit ≠ 95 := by
  grind [isAlphanumeric, Text.isUpperUnit, Text.isLowerUnit, Text.isDigitUnit]

/-- Made a capital and then small again, a unit that was no capital is itself. -/
theorem small_capital (other : Text.isUpperUnit unit = false) : Text.small (capital unit) = unit := by
  grind [capital, Text.small, Text.isUpperUnit, Text.isLowerUnit]

/-- A unit as the reader of names sees it: as a small letter or digit, marked if it was a capital. -/
theorem map_small_spellUnit (unit : CodeUnit)
    : (spellUnit unit).map Text.small
      = if Text.isUpperUnit unit then [95, unit + 32] else [unit] := by
  rw [spellUnit]
  cases upper : Text.isUpperUnit unit with
  | true =>
      have marked : Text.small unit = unit + 32 := if_pos upper
      exact congrArg (fun letter => [95, letter]) marked
  | false => exact congrArg List.singleton (small_capital upper)

/-- Spelling letters and digits takes units that names may have. -/
theorem isNameUnit_of_mem_spellUnit (alphanumeric : isAlphanumeric unit = true) {written : CodeUnit}
    (member : written ∈ spellUnit unit)
    : isNameUnit written = true := by
  rw [spellUnit] at member
  split at member
  · simp only [List.mem_cons, List.not_mem_nil, or_false] at member
    rcases member with rfl | rfl
    · rfl
    · grind [isNameUnit]
  · rw [List.mem_singleton] at member
    subst member
    grind [isNameUnit, isAlphanumeric, capital, Text.isUpperUnit, Text.isLowerUnit]

end Units

/-- A unit that is no underscore is kept. -/
theorem camelCase_cons_of_ne {unit : CodeUnit} (plain : unit ≠ 95) (rest : Text)
    : camelCase (unit :: rest) = unit :: camelCase rest := by
  cases rest with
  | nil => rfl
  | cons next more => simp [camelCase, plain]

/-- A small letter after an underscore becomes a capital. -/
theorem camelCase_marked {unit : CodeUnit} (lower : Text.isLowerUnit unit = true) (rest : Text)
    : camelCase (95 :: unit :: rest) = capital unit :: camelCase rest := by
  simp [camelCase, lower]

/-- Reading a spelled key gives the key back, by induction on the key. -/
theorem camelCase_spell {key : Text} (alphanumeric : ∀ unit ∈ key, isAlphanumeric unit = true)
    : camelCase ((spell key).map Text.small) = key := by
  induction key with
  | nil => rfl
  | cons unit rest ih =>
      obtain ⟨here, later⟩ := List.forall_mem_cons.mp alphanumeric
      have read := ih later
      rw [spell, List.flatMap_cons, List.map_append, map_small_spellUnit]
      cases upper : Text.isUpperUnit unit with
      | true =>
          refine (camelCase_marked (isLowerUnit_add upper) _).trans ?_
          rw [capital_add upper]
          exact congrArg (unit :: ·) read
      | false =>
          refine (camelCase_cons_of_ne (ne_underscore here) _).trans ?_
          exact congrArg (unit :: ·) read

/-- There are no two underscores in a row in a spelled key or at its end, by induction on the key:
each underscore is followed by a letter. -/
theorem avoids_spell {key : Text} (alphanumeric : ∀ unit ∈ key, isAlphanumeric unit = true)
    : Text.Avoids [95, 95] ((spell key).map Text.small) := by
  induction key with
  | nil => trivial
  | cons unit rest ih =>
      obtain ⟨here, later⟩ := List.forall_mem_cons.mp alphanumeric
      have avoids := ih later
      rw [spell, List.flatMap_cons, List.map_append, map_small_spellUnit]
      cases upper : Text.isUpperUnit unit with
      | true =>
          have letter := (ne_underscore_of_isLowerUnit (isLowerUnit_add upper)).symm
          exact ⟨fun more => Text.isPrefixOf_cons_of_ne letter [] _,
            Text.avoids_cons_of_ne letter avoids⟩
      | false => exact Text.avoids_cons_of_ne (ne_underscore here).symm avoids

/-- A key of letters and digits has no dot in it. -/
theorem avoids_dot {key : Text} (alphanumeric : ∀ unit ∈ key, isAlphanumeric unit = true)
    : Text.Avoids [46] key := by
  induction key with
  | nil => trivial
  | cons unit rest ih =>
      obtain ⟨here, later⟩ := List.forall_mem_cons.mp alphanumeric
      have plain : 46 ≠ unit := by
        rintro rfl
        cases here
      exact Text.avoids_cons_of_ne plain (ih later)

-----------------------------------------------------------------------------------------
-- Whole names
-----------------------------------------------------------------------------------------

/-- The units of the name for a path are those of names. -/
theorem isNameUnit_of_mem_joined {keys : List Text}
    (alphanumeric : ∀ key ∈ keys, ∀ unit ∈ key, isAlphanumeric unit = true) {unit : CodeUnit}
    (member : unit ∈ Text.joinWith (Text.ofString "__") (keys.map spell))
    : isNameUnit unit = true := by
  rcases Text.mem_joinWith member with between | ⟨part, among, inside⟩
  · have underscore : unit = 95 := by simpa [Text.ofString, Text.ofCharacter] using between
    rw [underscore]
    rfl
  · obtain ⟨key, listed, rfl⟩ := List.mem_map.mp among
    obtain ⟨own, ofKey, written⟩ := List.mem_flatMap.mp inside
    exact isNameUnit_of_mem_spellUnit (alphanumeric key listed own ofKey) written

/-- The units of names are ASCII. -/
theorem lt_of_isNameUnit {unit : CodeUnit} (isName : isNameUnit unit = true) : unit < 128 := by
  grind [isNameUnit, Text.isUpperUnit, Text.isDigitUnit]

/-- Keys of letters and digits, joined by dots, are the keys of that path. -/
theorem keysOfPath_joinWith {keys : List Text} (somewhere : keys ≠ [])
    (alphanumeric : ∀ key ∈ keys, ∀ unit ∈ key, isAlphanumeric unit = true)
    : keysOfPath (Text.joinWith (Text.ofString ".") keys) = keys :=
  Text.splitOn_joinWith (by decide) somewhere fun key member => avoids_dot (alphanumeric key member)

/-- Reading the name for a path gives the path back: the name is cut between the keys, since there are
no two underscores in a row elsewhere, and each key is read back on its own. -/
theorem settingPath?_nameOfPath {keys : List Text} (somewhere : keys ≠ [])
    (alphanumeric : ∀ key ∈ keys, ∀ unit ∈ key, isAlphanumeric unit = true)
    : settingPath? (nameOfPath keys) = some (Text.joinWith (Text.ofString ".") keys) := by
  let read (key : Text) : Text := (spell key).map Text.small
  have ascii : ∀ unit ∈ Text.joinWith (Text.ofString "__") (keys.map spell), unit < 128 :=
    fun unit member => lt_of_isNameUnit (isNameUnit_of_mem_joined alphanumeric member)
  have lowered : (Text.joinWith (Text.ofString "__") (keys.map spell)).lowerCase
      = Text.joinWith (Text.ofString "__") (keys.map read) := by
    rw [Text.lowerCase_of_ascii ascii, Text.map_joinWith, List.map_map]
    rfl
  have cut : (Text.joinWith (Text.ofString "__") (keys.map read)).splitOn (Text.ofString "__")
      = keys.map read := by
    refine Text.splitOn_joinWith (by decide) (by simpa using somewhere) fun part member => ?_
    obtain ⟨key, listed, rfl⟩ := List.mem_map.mp member
    exact avoids_spell (alphanumeric key listed)
  have back : (keys.map read).map camelCase = keys := by
    rw [List.map_map]
    refine (List.map_congr_left fun key member => ?_).trans (List.map_id keys)
    exact camelCase_spell (alphanumeric key member)
  rw [settingPath?, nameOfPath, if_pos (List.isPrefixOf_iff_prefix.mpr (List.prefix_append _ _)),
    List.drop_left, pathOfName, lowered, cut, back]

/-- The name for a path has units that names may have. -/
theorem isNameUnit_of_mem_nameOfPath {keys : List Text}
    (alphanumeric : ∀ key ∈ keys, ∀ unit ∈ key, isAlphanumeric unit = true) {unit : CodeUnit}
    (member : unit ∈ nameOfPath keys)
    : isNameUnit unit = true := by
  rcases List.mem_append.mp member with leading | inside
  · have all : leader.all isNameUnit = true := by decide
    exact List.all_eq_true.mp all unit leading
  · exact isNameUnit_of_mem_joined alphanumeric inside

/-- The environment can hold a variable under the name for a path, and keeps the name as it is. -/
theorem isName_nameOfPath {keys : List Text}
    (alphanumeric : ∀ key ∈ keys, ∀ unit ∈ key, isAlphanumeric unit = true)
    : isName (nameOfPath keys) = true ∧ stored (nameOfPath keys) = nameOfPath keys := by
  have each : ∀ unit ∈ nameOfPath keys, isNameUnit unit = true := fun unit member =>
    isNameUnit_of_mem_nameOfPath alphanumeric member
  have nonzero : ∀ unit ∈ nameOfPath keys, (unit != 0) = true := by
    intro unit member
    have isUnit := each unit member
    grind [isNameUnit, Text.isUpperUnit, Text.isDigitUnit]
  constructor
  · have unequal : 61 ∉ nameOfPath keys := fun member => by cases each 61 member
    have nonempty : nameOfPath keys ≠ [] := List.append_ne_nil_of_left_ne_nil (by decide) _
    simp [isName, unequal, nonempty]
  · have whole : (nameOfPath keys ++ []).takeWhile (· != 0) = nameOfPath keys ++ [] :=
      List.takeWhile_append_of_pos nonzero
    rw [List.append_nil] at whole
    rw [stored, whole,
      Text.wellFormed_of_ascii fun unit member => lt_of_isNameUnit (each unit member)]

/-- Every path whose keys are made of letters and digits has a variable for its setting. Reading the
name of that variable gives the keys with dots between them, and no key is cut or joined on the way;
other paths have other names; the environment can hold the variable under that very name; and where
the variable comes last, its value is found at the path. -/
theorem setting_at_nameOfPath {keys : List Text} (somewhere : keys ≠ [])
    (alphanumeric : ∀ key ∈ keys, ∀ unit ∈ key, isAlphanumeric unit = true)
    : settingPath? (nameOfPath keys) = some (Text.joinWith (Text.ofString ".") keys)
      ∧ keysOfPath (Text.joinWith (Text.ofString ".") keys) = keys
      ∧ (∀ others,
          others ≠ []
          → (∀ key ∈ others, ∀ unit ∈ key, isAlphanumeric unit = true)
          → nameOfPath others = nameOfPath keys
          → others = keys)
      ∧ (isName (nameOfPath keys) = true ∧ stored (nameOfPath keys) = nameOfPath keys)
      ∧ ∀ (earlier : Environment) value,
          (Value.record (settings (earlier ++ [(nameOfPath keys, value)]))).getPath keys
            = settingValue value := by
  have decoded := settingPath?_nameOfPath somewhere alphanumeric
  have read := keysOfPath_joinWith somewhere alphanumeric
  refine ⟨decoded, read, ?_, isName_nameOfPath alphanumeric, ?_⟩
  · intro others somewhereElse alphanumericOthers same
    have decodedOthers := settingPath?_nameOfPath somewhereElse alphanumericOthers
    rw [same, decoded] at decodedOthers
    have joined := Option.some.inj decodedOthers
    rw [← keysOfPath_joinWith somewhereElse alphanumericOthers, ← joined, read]
  · intro earlier value
    have added : ∀ fields, addSetting fields (nameOfPath keys, value)
        = fields.putPath keys (settingValue value) := by
      intro fields
      simp only [addSetting, decoded, read]
    rw [settings, List.foldl_append, List.foldl_cons, List.foldl_nil, added]
    refine Fields.getPath_putPath_self _ somewhere (fun gate => ?_) _
    cases alphanumeric gateKey gate 95 (by decide)

/-- A path with capitals next to each other, at the end of a key and before a digit. -/
def samplePath : List Text :=
  [Text.ofString "compile", Text.ofString "dumpAST", Text.ofString "aB2"]

/-- The name of the sample path is read back, whatever was set before. -/
theorem setting_at_nameOfPath_sample
    : samplePath ≠ []
      ∧ (∀ key ∈ samplePath, ∀ unit ∈ key, isAlphanumeric unit = true)
      ∧ nameOfPath samplePath = Text.ofString "WEFT_COMPILE__DUMP_A_S_T__A_B2"
      ∧ settingPath? (nameOfPath samplePath) = some (Text.ofString "compile.dumpAST.aB2")
      ∧ ∀ (earlier : Environment) value,
          (Value.record (settings (earlier ++ [(nameOfPath samplePath, value)]))).getPath samplePath
            = settingValue value := by
  have somewhere : samplePath ≠ [] := List.cons_ne_nil _ _
  have alphanumeric : ∀ key ∈ samplePath, ∀ unit ∈ key, isAlphanumeric unit = true := by
    have all : samplePath.all (·.all isAlphanumeric) = true := rfl
    simpa only [List.all_eq_true] using all
  obtain ⟨decoded, _, _, _, reached⟩ := setting_at_nameOfPath somewhere alphanumeric
  exact ⟨somewhere, alphanumeric, rfl, decoded, reached⟩

end Environment

end StagedParser
