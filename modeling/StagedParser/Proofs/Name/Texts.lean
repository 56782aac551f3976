import StagedParser.Name

/-! The texts of names tell names apart.
A name that was requested has an underscore after its base, and what follows it says where the name
was requested. There is no underscore in what follows, so the base ends at the last underscore of the
name, whatever the base itself looks like.
-/

namespace StagedParser

def Text.underscore : CodeUnit := 95

/-- The digits of a number can be read back as characters. -/
theorem Text.characters_ofNat (n : Nat)
    : (Text.ofNat n).map (fun unit => Char.ofNat unit.toNat) = Nat.toDigits 10 n := by
  rw [Text.ofNat, List.map_map]
  refine (List.map_congr_left fun digit member => ?_).trans (List.map_id _)
  have isDigit := Nat.isDigit_of_mem_toDigits (by decide) (by decide) member
  have small : digit.toNat < 2 ^ 16 := by
    simp only [Char.isDigit, Bool.and_eq_true, decide_eq_true_eq] at isDigit
    have upper : digit.toNat ≤ 57 := isDigit.2
    omega
  change Char.ofNat (UInt16.ofNat digit.toNat).toNat = digit
  rw [UInt16.toNat_ofNat', Nat.mod_eq_of_lt small, Char.ofNat_toNat]

/-- Different numbers have different digits. -/
theorem Text.ofNat_injective {left right : Nat} (same : Text.ofNat left = Text.ofNat right)
    : left = right := by
  have digits : Nat.toDigits 10 left = Nat.toDigits 10 right := by
    rw [← characters_ofNat left, ← characters_ofNat right, same]
  have values := congrArg (Nat.ofDigitChars 10 · 0) digits
  simpa only [Nat.ofDigitChars_ten_toDigits] using values

/-- The digits of a number are digit units. -/
theorem Text.isDigitUnit_of_mem_ofNat {n : Nat} {unit : CodeUnit} (member : unit ∈ Text.ofNat n)
    : isDigitUnit unit = true := by
  obtain ⟨digit, inside, rfl⟩ := List.mem_map.mp member
  have isDigit := Nat.isDigit_of_mem_toDigits (by decide) (by decide) inside
  simp only [Char.isDigit, Bool.and_eq_true, decide_eq_true_eq] at isDigit
  have lower : 48 ≤ digit.toNat := isDigit.1
  have upper : digit.toNat ≤ 57 := isDigit.2
  have same : digit.toNat.toUInt16.toNat = digit.toNat := by
    rw [Nat.toUInt16, UInt16.toNat_ofNat', Nat.mod_eq_of_lt (by omega)]
  simp only [isDigitUnit, Bool.and_eq_true, decide_eq_true_eq, UInt16.le_iff_toNat_le, same]
  exact ⟨lower, upper⟩

/-- A text up to its first underscore and the text after it are determined by the whole. -/
theorem Text.append_underscore_inj {left right : Text} {more other : Text}
    (plainLeft : underscore ∉ left) (plainRight : underscore ∉ right)
    (same : left ++ underscore :: more = right ++ underscore :: other)
    : left = right ∧ more = other := by
  induction left generalizing right with
  | nil =>
      cases right with
      | nil => exact ⟨rfl, by simpa using same⟩
      | cons unit rest =>
          rw [List.nil_append, List.cons_append, List.cons.injEq] at same
          exact absurd (same.1 ▸ List.mem_cons_self) plainRight
  | cons unit rest ih =>
      cases right with
      | nil =>
          rw [List.nil_append, List.cons_append, List.cons.injEq] at same
          exact absurd (same.1 ▸ List.mem_cons_self) plainLeft
      | cons first others =>
          rw [List.cons_append, List.cons_append, List.cons.injEq] at same
          rw [List.mem_cons, not_or] at plainLeft plainRight
          obtain ⟨heads, tails⟩ := same
          obtain ⟨bases, rests⟩ := ih plainLeft.2 plainRight.2 tails
          exact ⟨by rw [heads, bases], rests⟩

namespace Name

/-- What follows the base of a requested name and an underscore. -/
def Mark.suffix : Mark → Text
  | .verbatim => []
  | .inScope scope => Text.ofNat scope
  | .loose index => Text.ofString "g" ++ Text.ofNat index

/-- The text of a requested name is its base, an underscore and its suffix. -/
theorem text_of_requested {name : Name} (requested : name.mark ≠ .verbatim)
    : name.text = name.base ++ Text.underscore :: name.mark.suffix := by
  obtain ⟨mark, base⟩ := name
  cases mark with
  | verbatim => exact absurd rfl requested
  | inScope scope => simp [text, Mark.suffix, Text.ofString, Text.ofCharacter, Text.underscore]
  | loose index => simp [text, Mark.suffix, Text.ofString, Text.ofCharacter, Text.underscore]

/-- A suffix is made of digits and perhaps one letter in front of them. -/
theorem Mark.mem_suffix {mark : Mark} {unit : CodeUnit} (member : unit ∈ mark.suffix)
    : unit = 103 ∨ Text.isDigitUnit unit = true := by
  cases mark with
  | verbatim => cases member
  | inScope scope => exact .inr (Text.isDigitUnit_of_mem_ofNat member)
  | loose index =>
      rcases List.mem_append.mp member with letter | digit
      · exact .inl (List.mem_singleton.mp letter)
      · exact .inr (Text.isDigitUnit_of_mem_ofNat digit)

/-- There is no underscore in a suffix, only letters and digits. -/
theorem Mark.underscore_not_mem_suffix (mark : Mark) : Text.underscore ∉ mark.suffix := by
  intro member
  rcases mem_suffix member with letter | digit
  · cases letter
  · cases digit

/-- The letter that starts the suffix of a name from outside of all scopes is no digit. -/
theorem Mark.suffix_inScope_ne_loose (scope index : Nat)
    : (Mark.inScope scope).suffix ≠ (Mark.loose index).suffix := by
  intro same
  have member : 103 ∈ (Mark.inScope scope).suffix := by
    rw [same]
    exact List.mem_cons_self
  cases Text.isDigitUnit_of_mem_ofNat member

/-- Different marks have different suffixes, by the kinds of marks. -/
theorem Mark.suffix_injective {left right : Mark} (requestedLeft : left ≠ .verbatim)
    (requestedRight : right ≠ .verbatim) (same : left.suffix = right.suffix)
    : left = right := by
  cases left with
  | verbatim => exact absurd rfl requestedLeft
  | inScope scope =>
      cases right with
      | verbatim => exact absurd rfl requestedRight
      | inScope other => rw [Text.ofNat_injective same]
      | loose index => exact absurd same (suffix_inScope_ne_loose scope index)
  | loose index =>
      cases right with
      | verbatim => exact absurd rfl requestedRight
      | inScope scope => exact absurd same.symm (suffix_inScope_ne_loose scope index)
      | loose other => rw [Text.ofNat_injective (List.append_cancel_left same)]

/-- Requested names are told apart by their texts. Witness: read from the end, a text is the suffix up
to the first underscore, and then the base. -/
theorem eq_of_text_eq {left right : Name} (requestedLeft : left.mark ≠ .verbatim)
    (requestedRight : right.mark ≠ .verbatim) (same : left.text = right.text)
    : left = right := by
  rw [text_of_requested requestedLeft, text_of_requested requestedRight] at same
  have reversed := congrArg List.reverse same
  simp only [List.reverse_append, List.reverse_cons, List.append_assoc, List.singleton_append]
    at reversed
  obtain ⟨suffixes, bases⟩ := Text.append_underscore_inj
    (fun member => left.mark.underscore_not_mem_suffix (List.mem_reverse.mp member))
    (fun member => right.mark.underscore_not_mem_suffix (List.mem_reverse.mp member)) reversed
  have marks := Mark.suffix_injective requestedLeft requestedRight (List.reverse_inj.mp suffixes)
  obtain ⟨mark, base⟩ := left
  obtain ⟨other, otherBase⟩ := right
  exact congr (congrArg Name.mk marks) (List.reverse_inj.mp bases)

/-- The text of a requested name is no identifier without an underscore. -/
theorem text_not_mem_of_requested {name : Name} (requested : name.mark ≠ .verbatim)
    {identifiers : List Text}
    (without : ∀ identifier ∈ identifiers, Text.underscore ∉ identifier)
    : name.text ∉ identifiers := by
  intro member
  apply without name.text member
  rw [text_of_requested requested]
  simp

/-- A name that was requested, with a base that has no underscore of its own. -/
structure Plain (name : Name) : Prop where
  requested : name.mark ≠ .verbatim
  base : Text.underscore ∉ name.base

end Name

end StagedParser
