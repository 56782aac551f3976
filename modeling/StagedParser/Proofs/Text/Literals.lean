import StagedParser.Text.Quoted

/-! Reading string literals of generated code.
A reader takes a literal from the start of a source: it ends at the first quote that no backslash
hides, and escapes stand for units as the language of the code has them. What is written for a text
is read back as this text, and the reader stops right after it, whatever source follows.
-/

namespace StagedParser

namespace Text

-----------------------------------------------------------------------------------------
-- The reader
-----------------------------------------------------------------------------------------

def carriageReturn : CodeUnit := 13

/-- Whether a unit ends a line of source: line feed, carriage return, and the two separators. -/
def endsLine (unit : CodeUnit) : Bool :=
  unit = lineFeed || unit = carriageReturn || unit = 0x2028 || unit = 0x2029

/-- The value of a hexadecimal digit, of either case. -/
def hexValue? (unit : CodeUnit) : Option Nat :=
  if isDigitUnit unit then some (unit.toNat - 48)
  else if 65 ≤ unit && unit ≤ 70 then some (unit.toNat - 55)
  else if 97 ≤ unit && unit ≤ 102 then some (unit.toNat - 87)
  else none

/-- The number that hexadecimal digits denote. -/
def hexNumber? (digits : Text) : Option Nat :=
  digits.foldlM (fun n digit => (hexValue? digit).map (16 * n + ·)) 0

/-- The unit that an escape by exactly `count` hexadecimal digits stands for. -/
def hexEscape? (count : Nat) (source : Text) : Option Text :=
  if count ≤ source.length then (hexNumber? (source.take count)).map ([·.toUInt16]) else none

/-- The character that an escape by hexadecimal digits in braces stands for, and how many units it
takes. -/
def bracedEscape? (source : Text) : Option (Text × Nat) :=
  let digits := source.takeWhile (· ≠ 125)
  if digits ≠ [] ∧ digits.length < source.length then
    match hexNumber? digits with
    | some n => if n ≤ 0x10FFFF then some (ofCharacter n, digits.length + 1) else none
    | none => none
  else
    none

/-- The digits of an octal escape that begins with `first`: up to three, and up to two from `4` on. -/
def octalDigits (first : CodeUnit) (rest : Text) : Text :=
  first :: (rest.takeWhile fun unit => 48 ≤ unit && unit ≤ 55).take (if first ≤ 51 then 2 else 1)

/-- The number that octal digits denote. -/
def octalNumber (digits : Text) : Nat :=
  digits.foldl (fun n digit => 8 * n + (digit.toNat - 48)) 0

/-- An escape by decimal digits: `\0` is NUL unless a digit follows. Strict code has no other one; any
other code reads octal numbers, and `\8` and `\9` as the digits themselves. -/
def digitEscape? (strict : Bool) (first : CodeUnit) (rest : Text) : Option (Text × Nat) :=
  if first = 48 && !(rest.head?.map isDigitUnit).getD false then some ([0], 1)
  else if strict then none
  else if 56 ≤ first then some ([first], 1)
  else
    let digits := octalDigits first rest
    some ([(octalNumber digits).toUInt16], digits.length)

/-- The unit that the two-unit escape with a letter stands for; most stand for themselves. -/
def letterEscape (letter : CodeUnit) : CodeUnit :=
  if letter = 98 then 8
  else if letter = 116 then 9
  else if letter = 110 then 10
  else if letter = 118 then 11
  else if letter = 102 then 12
  else if letter = 114 then 13
  else letter

/-- What an escape stands for, and how many units it takes after its backslash. The end of a line is
escaped to go on with the literal on the next one, and stands for nothing. -/
def escape? (strict : Bool) : Text → Option (Text × Nat)
  | [] => none
  | mark :: rest =>
    if mark = 120 then (hexEscape? 2 rest).map (·, 3)
    else if mark = 117 then
      if rest.head? = some 123 then
        (bracedEscape? rest.tail).map fun (value, taken) => (value, taken + 2)
      else (hexEscape? 4 rest).map (·, 5)
    else if isDigitUnit mark then digitEscape? strict mark rest
    else if mark = carriageReturn && rest.head? = some lineFeed then some ([], 2)
    else if endsLine mark then some ([], 1)
    else some ([letterEscape mark], 1)

/-- Reads the rest of a literal, up to the quote that closes it; returns the text and the source after
the quote. A line may not end inside of a literal, except at the separators. -/
def readUnits? (strict : Bool) : Text → Option (Text × Text)
  | [] => none
  | unit :: rest =>
    if unit = quoteMark then some ([], rest)
    else if unit = backslash then
      match escape? strict rest with
      | some (value, taken) =>
        (readUnits? strict (rest.drop taken)).map fun (text, after) => (value ++ text, after)
      | none => none
    else if unit = lineFeed || unit = carriageReturn then none
    else (readUnits? strict rest).map fun (text, after) => (unit :: text, after)
termination_by source => source.length

/-- Reads a literal from the start of a source; returns the text and the source after it. -/
def readLiteral? (strict : Bool) : Text → Option (Text × Text)
  | [] => none
  | unit :: rest => if unit = quoteMark then readUnits? strict rest else none

/-- The units of a text that no backslash hides. A backslash hides the unit after it and itself. -/
def bare : Text → Text
  | [] => []
  | [unit] => [unit]
  | unit :: next :: rest => if unit = backslash then bare rest else unit :: bare (next :: rest)

-----------------------------------------------------------------------------------------
-- Escapes are read back
-----------------------------------------------------------------------------------------

/-- Every digit denotes its number. -/
theorem hexValue?_hexDigit : ∀ n < 16, hexValue? (hexDigit 65 n) = some n := by
  decide

/-- The four digits of a unit denote the unit. -/
theorem hexNumber?_hexDigits (unit : CodeUnit)
    : hexNumber? (hexDigits 65 unit) = some unit.toNat := by
  have bound : unit.toNat < 65536 := unit.toNat_lt
  have digit (n : Nat) : hexValue? (hexDigit 65 (n % 16)) = some (n % 16) :=
    hexValue?_hexDigit _ (Nat.mod_lt _ (by decide))
  simp only [hexNumber?, hexDigits, List.map_cons, List.map_nil, List.foldlM_cons, List.foldlM_nil,
    digit, Option.map_some, Option.bind_eq_bind, Option.bind_some, Option.pure_def, Option.some.injEq]
  omega

/-- Reading four digits gives the unit. -/
theorem hexEscape?_hexDigits (unit : CodeUnit) (rest : Text)
    : hexEscape? 4 (hexDigits 65 unit ++ rest) = some [unit] := by
  have length : (hexDigits 65 unit).length = 4 := rfl
  have taken : (hexDigits 65 unit ++ rest).take 4 = hexDigits 65 unit := List.take_left' length
  rw [hexEscape?, if_pos (by rw [List.length_append]; omega), taken, hexNumber?_hexDigits]
  simp

/-- Whether a text starts with a decimal digit. -/
def leadsWithDigit (text : Text) : Bool :=
  (text.head?.map isDigitUnit).getD false

/-- The units that are escaped by a letter, and their letters. -/
def letterEscapes : List (CodeUnit × CodeUnit) :=
  [ (backslash, backslash), (quoteMark, quoteMark), (8, 98), (9, 116), (10, 110), (11, 118),
    (12, 102), (13, 114) ]

/-- A letter that was chosen is the first one, or one of the others. -/
theorem or_of_ite_eq_some {condition : Prop} [Decidable condition] {first letter : CodeUnit}
    {others : Option CodeUnit} (chosen : (if condition then some first else others) = some letter)
    : condition ∧ first = letter ∨ others = some letter := by
  split at chosen
  · next holds => exact .inl ⟨holds, Option.some.inj chosen⟩
  · exact .inr chosen

/-- A unit with an escape letter is in the table. -/
theorem mem_letterEscapes {unit letter : CodeUnit} (chosen : escapeLetter? unit = some letter)
    : (unit, letter) ∈ letterEscapes := by
  rw [escapeLetter?] at chosen
  iterate 8
    rcases or_of_ite_eq_some chosen with ⟨rfl, rfl⟩ | chosen
    · decide
  cases chosen

/-- A letter of the table is read as its unit. -/
theorem escape?_letter (strict : Bool) {unit letter : CodeUnit}
    (member : (unit, letter) ∈ letterEscapes) (rest : Text)
    : escape? strict (letter :: rest) = some ([unit], 1) := by
  simp only [letterEscapes, List.mem_cons, Prod.mk.injEq, List.not_mem_nil, or_false] at member
  rcases member with ⟨rfl, rfl⟩ | ⟨rfl, rfl⟩ | ⟨rfl, rfl⟩ | ⟨rfl, rfl⟩ | ⟨rfl, rfl⟩ | ⟨rfl, rfl⟩
    | ⟨rfl, rfl⟩ | ⟨rfl, rfl⟩
  all_goals rfl

/-- The zero is read from two digits. -/
theorem escape?_x00 (strict : Bool) (rest : Text)
    : escape? strict (ofString "x00" ++ rest) = some ([0], 3) := by
  have number : hexNumber? [48, 48] = some 0 := by decide
  change (hexEscape? 2 (48 :: 48 :: rest)).map (·, 3) = _
  rw [hexEscape?, if_pos (by simp)]
  change ((hexNumber? [48, 48]).map _).map _ = _
  rw [number]
  rfl

/-- It is read from one if no digit follows. -/
theorem escape?_zero (strict : Bool) {rest : Text} (undivided : leadsWithDigit rest = false)
    : escape? strict (ofString "0" ++ rest) = some ([0], 1) := by
  change digitEscape? strict 48 rest = _
  rw [digitEscape?, ← leadsWithDigit, undivided]
  rfl

/-- Any unit is read from four digits. -/
theorem escape?_hexDigits (strict : Bool) (unit : CodeUnit) (rest : Text)
    : escape? strict (117 :: (hexDigits 65 unit ++ rest)) = some ([unit], 5) := by
  have unbraced : ∀ n < 16, hexDigit 65 n ≠ 123 := by decide
  have first : (hexDigits 65 unit ++ rest).head? ≠ some 123 := by
    intro same
    exact unbraced _ (Nat.mod_lt _ (by decide)) (Option.some.inj same)
  change (if (hexDigits 65 unit ++ rest).head? = some 123 then _
    else (hexEscape? 4 (hexDigits 65 unit ++ rest)).map (·, 5)) = _
  rw [if_neg first, hexEscape?_hexDigits]
  rfl

-----------------------------------------------------------------------------------------
-- Literals are read back
-----------------------------------------------------------------------------------------

section Reading

variable {strict : Bool}

/-- A quotation mark ends the literal. -/
theorem readUnits?_quoteMark (rest : Text)
    : readUnits? strict (quoteMark :: rest) = some ([], rest) := by
  rw [readUnits?, if_pos rfl]

/-- An escape is read as what it denotes, and reading goes on after it. -/
theorem readUnits?_escape {value source : Text} {taken : Nat}
    (escape : escape? strict source = some (value, taken))
    : readUnits? strict (backslash :: source)
      = (readUnits? strict (source.drop taken)).map fun (text, after) => (value ++ text, after) := by
  rw [readUnits?, if_neg (by decide), if_pos rfl, escape]

/-- A unit between the blank and the last ASCII character that needs no escape stands for itself. -/
theorem readUnits?_plain {unit : CodeUnit} (plain : escapeLetter? unit = none) (rest : Text)
    : readUnits? strict (unit :: rest)
      = (readUnits? strict rest).map fun (text, after) => (unit :: text, after) := by
  have others : unit ≠ backslash ∧ unit ≠ quoteMark ∧ unit ≠ lineFeed ∧ unit ≠ carriageReturn := by
    refine ⟨?_, ?_, ?_, ?_⟩ <;> rintro rfl <;> cases plain
  obtain ⟨noEscape, noQuote, noLineFeed, noReturn⟩ := others
  rw [readUnits?, if_neg noQuote, if_neg noEscape, if_neg (by simp [noLineFeed, noReturn])]

/-- A unit is read back from what is written for it, if the source goes on with a digit where the text
does. -/
theorem readUnits?_literalUnit (unit : CodeUnit) {text source : Text}
    (follows : leadsWithDigit source = leadsWithDigit text)
    : readUnits? strict (literalUnit unit text ++ source)
      = (readUnits? strict source).map fun (text, after) => (unit :: text, after) := by
  rw [literalUnit]
  cases chosen : escapeLetter? unit with
  | some letter =>
      exact readUnits?_escape (escape?_letter strict (mem_letterEscapes chosen) source)
  | none =>
      dsimp only
      split
      · next isNul =>
        subst isNul
        rw [← leadsWithDigit]
        split
        · exact readUnits?_escape (escape?_x00 strict source)
        · next leading =>
          have undivided : leadsWithDigit source = false := by
            rw [follows]
            exact eq_false_of_ne_true leading
          exact readUnits?_escape (escape?_zero strict undivided)
      · split
        · exact readUnits?_escape (escape?_hexDigits strict unit source)
        · exact readUnits?_plain chosen source

end Reading

/-- A hexadecimal digit is printable, and neither a quote nor a backslash. -/
theorem printable_of_isSome_hexValue? {digit : CodeUnit} (isDigit : (hexValue? digit).isSome)
    : (32 ≤ digit ∧ digit ≤ 127) ∧ digit ≠ quoteMark ∧ digit ≠ backslash := by
  simp only [hexValue?, isDigitUnit, Bool.and_eq_true, decide_eq_true_eq] at isDigit
  simp only [quoteMark, backslash]
  repeat' split at isDigit
  case isFalse => cases isDigit
  all_goals grind

/-- The units of the table are no digits, and their letters are printable. -/
theorem printable_of_mem_letterEscapes
    : ∀ escape ∈ letterEscapes,
        isDigitUnit escape.1 = false ∧ 32 ≤ escape.2 ∧ escape.2 ≤ 127 := by
  simp only [letterEscapes, List.forall_mem_cons, List.not_mem_nil, false_implies, implies_true]
  decide

/-- What is written for a unit: the unit itself if it is printable and means nothing else, and
otherwise an escape. No escape is written for a digit, and an escape has only hexadecimal digits
after its first two units. -/
theorem literalUnit_cases (unit : CodeUnit) (text : Text)
    : (literalUnit unit text = [unit]
        ∧ (32 ≤ unit ∧ unit ≤ 127) ∧ unit ≠ quoteMark ∧ unit ≠ backslash)
      ∨ isDigitUnit unit = false
        ∧ ∃ mark digits,
            literalUnit unit text = backslash :: mark :: digits
            ∧ (32 ≤ mark ∧ mark ≤ 127)
            ∧ ∀ digit ∈ digits, (hexValue? digit).isSome := by
  rw [literalUnit]
  cases chosen : escapeLetter? unit with
  | some letter =>
      obtain ⟨noDigit, printable⟩ := printable_of_mem_letterEscapes _ (mem_letterEscapes chosen)
      exact .inr ⟨noDigit, letter, [], rfl, printable, by simp⟩
  | none =>
      dsimp only
      split
      · next isNul =>
        subst isNul
        split
        · refine .inr ⟨rfl, 120, [48, 48], rfl, by decide, fun digit member => ?_⟩
          obtain rfl : digit = 48 := by simpa using member
          rfl
        · exact .inr ⟨rfl, 48, [], rfl, by decide, by simp⟩
      · split
        · next outside =>
          refine .inr ⟨?_, 117, hexDigits 65 unit, rfl, by decide, ?_⟩
          · grind [isDigitUnit]
          · intro digit member
            simp only [hexDigits, List.mem_map, List.mem_cons, List.not_mem_nil, or_false] at member
            obtain ⟨n, among, rfl⟩ := member
            rw [hexValue?_hexDigit n (by omega)]
            rfl
        · next inside =>
          refine .inl ⟨rfl, ?_, ?_, ?_⟩
          · grind
          · rintro rfl
            cases chosen
          · rintro rfl
            cases chosen

/-- What is written for a text starts with a digit where the text does: digits are written as they
are. -/
theorem leadsWithDigit_literalUnits (text rest : Text)
    : leadsWithDigit (literalUnits text ++ quoteMark :: rest) = leadsWithDigit text := by
  cases text with
  | nil => rfl
  | cons unit text =>
      rw [literalUnits, List.append_assoc]
      rcases literalUnit_cases unit text with ⟨plain, _⟩ | ⟨noDigit, mark, digits, escaped, _⟩
      · rw [plain]
        rfl
      · rw [escaped]
        change isDigitUnit backslash = isDigitUnit unit
        rw [noDigit]
        rfl

/-- What is written for a text is read back as the text, up to the quote that closes it, by induction
on the text. -/
theorem readUnits?_literalUnits (strict : Bool) (text rest : Text)
    : readUnits? strict (literalUnits text ++ quoteMark :: rest) = some (text, rest) := by
  induction text with
  | nil => exact readUnits?_quoteMark rest
  | cons unit text ih =>
      rw [literalUnits, List.append_assoc,
        readUnits?_literalUnit unit (leadsWithDigit_literalUnits text rest), ih]
      rfl

/-- A literal is read back as its text, and what follows it is left. -/
theorem readLiteral?_literal (strict : Bool) (text rest : Text)
    : readLiteral? strict (text.literal ++ rest) = some (text, rest) := by
  rw [literal, List.cons_append, List.append_assoc]
  exact readUnits?_literalUnits strict text rest

/-- Sources that begin with literals are the same only if the literals and what follows them are. -/
theorem literal_append_inj {text other rest more : Text}
    (same : text.literal ++ rest = other.literal ++ more)
    : text = other ∧ rest = more := by
  have left := readLiteral?_literal true text rest
  have right := readLiteral?_literal true other more
  rw [← same, left] at right
  exact Prod.mk.inj (Option.some.inj right)

/-- Literals are written in printable units, by induction on the text. -/
theorem printable_of_mem_literalUnits {text : Text} {unit : CodeUnit}
    (member : unit ∈ literalUnits text)
    : 32 ≤ unit ∧ unit ≤ 127 := by
  induction text with
  | nil => cases member
  | cons first text ih =>
      rw [literalUnits, List.mem_append] at member
      rcases member with here | later
      · rcases literalUnit_cases first text with
          ⟨plain, printable, _⟩ | ⟨_, mark, digits, escaped, rest⟩
        · rw [plain, List.mem_singleton] at here
          rw [here]
          exact printable
        · obtain ⟨printable, hexadecimal⟩ := rest
          rw [escaped, List.mem_cons, List.mem_cons] at here
          rcases here with rfl | rfl | digit
          · decide
          · exact printable
          · exact (printable_of_isSome_hexValue? (hexadecimal unit digit)).1
      · exact ih later

/-- A unit that is no backslash stays. -/
theorem bare_cons_of_ne {unit : CodeUnit} (shown : unit ≠ backslash) (rest : Text)
    : bare (unit :: rest) = unit :: bare rest := by
  cases rest with
  | nil => rfl
  | cons next rest => rw [bare, if_neg shown]

/-- So do units without a backslash, by induction on them. -/
theorem bare_append_of_not_mem {text : Text} (shown : backslash ∉ text) (rest : Text)
    : bare (text ++ rest) = text ++ bare rest := by
  induction text with
  | nil => rfl
  | cons unit text ih =>
      rw [List.mem_cons, not_or] at shown
      obtain ⟨differs, later⟩ := shown
      rw [List.cons_append, bare_cons_of_ne (Ne.symm differs), ih later, List.cons_append]

/-- What is written for a text leaves no backslash open, so it hides nothing of what follows, by
induction on the text. -/
theorem bare_literalUnits_append (text rest : Text)
    : bare (literalUnits text ++ rest) = bare (literalUnits text) ++ bare rest := by
  induction text generalizing rest with
  | nil => rfl
  | cons unit text ih =>
      rw [literalUnits, List.append_assoc]
      rcases literalUnit_cases unit text with
        ⟨plain, _, _, shown⟩ | ⟨_, mark, digits, escaped, _, digital⟩
      · rw [plain, List.singleton_append, List.singleton_append, bare_cons_of_ne shown,
          bare_cons_of_ne shown, ih, List.cons_append]
      · have shown : backslash ∉ digits := fun member =>
          (printable_of_isSome_hexValue? (digital _ member)).2.2 rfl
        simp only [escaped, List.cons_append, bare, if_true, bare_append_of_not_mem shown, ih,
          List.append_assoc]

/-- No quote stands bare in what is written for a text, by induction on the text. -/
theorem quoteMark_not_mem_bare_literalUnits (text : Text) : quoteMark ∉ bare (literalUnits text) := by
  induction text with
  | nil => exact List.not_mem_nil
  | cons unit text ih =>
      rw [literalUnits]
      rcases literalUnit_cases unit text with
        ⟨plain, _, noQuote, shown⟩ | ⟨_, mark, digits, escaped, _, digital⟩
      · rw [plain, List.singleton_append, bare_cons_of_ne shown, List.mem_cons]
        rintro (same | later)
        · exact noQuote same.symm
        · exact ih later
      · have shown : backslash ∉ digits := fun member =>
          (printable_of_isSome_hexValue? (digital _ member)).2.2 rfl
        have noQuote : quoteMark ∉ digits := fun member =>
          (printable_of_isSome_hexValue? (digital _ member)).2.1 rfl
        simp only [escaped, List.cons_append, bare, if_true, bare_append_of_not_mem shown,
          List.mem_append]
        rintro (here | later)
        · exact noQuote here
        · exact ih later

end Text

end StagedParser
