import StagedParser.Number.Arithmetic

/-! Whole numbers.
Up to `2 ^ 53` a natural number is a number exactly, and points at the unit it counts to. A larger
one may be rounded, but never to below that limit.
-/

namespace StagedParser

namespace Number

/-- Numbers are exact up to the power of two that the precision gives. -/
theorem exactLimit_eq : exactLimit = Nat.pow 2 precision := by
  decide

/-- A natural number up to the limit is itself, with no power of two. -/
theorem ofNat_eq_finite {n : Nat} (small : n ≤ exactLimit) : ofNat n = .finite n 0 := by
  rw [ofNat, ofInt, ofFraction, if_pos ⟨rfl, by simpa using small⟩]

/-- Natural numbers up to the limit can be told apart as numbers. -/
theorem ofNat_inj {m n : Nat} (small : m ≤ exactLimit) (smaller : n ≤ exactLimit)
    : ofNat m = ofNat n ↔ m = n := by
  rw [ofNat_eq_finite small, ofNat_eq_finite smaller]
  simp only [finite.injEq, and_true]
  exact Int.natCast_inj

/-- So is an integer. -/
theorem ofInt_eq_finite {n : Int} (small : n.natAbs ≤ exactLimit) : ofInt n = .finite n 0 := by
  rw [ofInt, ofFraction, if_pos ⟨rfl, small⟩]

/-- The difference of natural numbers up to the limit is exact. -/
theorem sub_ofNat {m n : Nat} (small : m ≤ exactLimit) (smaller : n ≤ exactLimit)
    : (ofNat m).sub (ofNat n) = ofInt (m - n) := by
  rw [ofNat_eq_finite small, ofNat_eq_finite smaller, sub, neg, add]
  have small : (m - n : Int).natAbs ≤ exactLimit := by omega
  have exact : ofFraction (m - n) 0 = .finite (m - n) 0 := ofInt_eq_finite small
  simp [twoPower, ← Int.sub_eq_add_neg, exact, ofInt]

/-- Natural numbers up to the limit are equal in a comparison just if they are the same. -/
theorem isEqual_ofNat {m n : Nat} (small : m ≤ exactLimit) (smaller : n ≤ exactLimit)
    : (ofNat m).isEqual (ofNat n) = true ↔ m = n := by
  rw [isEqual, Bool.and_eq_true, decide_eq_true_iff, decide_eq_true_iff, ofNat_inj small smaller]
  refine and_iff_right ?_
  rw [ofNat_eq_finite small]
  nofun

/-- Adding to a natural number up to the limit rounds the sum only. -/
theorem plus_ofNat {n : Nat} (small : n ≤ exactLimit) (count : Nat)
    : (ofNat n).plus count = ofNat (n + count) := by
  rw [ofNat_eq_finite small, plus, ofNat, ofInt]
  simp [twoPower]

/-- A whole number points at the unit that it counts to. -/
theorem index_finite_zero (n : Nat) : (Number.finite n 0).index = n := by
  simp [index, truncate, twoPower]

/-- A natural number up to the limit points at the unit it counts to. -/
theorem index_ofNat {n : Nat} (small : n ≤ exactLimit) : (ofNat n).index = n := by
  rw [ofNat_eq_finite small, index_finite_zero]

/-- Rounding a quotient does not go below its whole part, by how it is rounded. -/
theorem le_roundQuotient (numerator denominator : Nat)
    : numerator / denominator ≤ roundQuotient numerator denominator := by
  simp only [roundQuotient]
  split
  · exact Nat.le_refl _
  · split
    · exact Nat.le_succ _
    · exact Nat.le_add_right _ _

/-- Numbers beyond the limit are rounded to a full mantissa times a power of two, or to infinity. -/
theorem index_ofRatio_ge {n : Nat} (large : exactLimit < n)
    : exactLimit ≤ (ofRatio false n 1).index := by
  have positive : n ≠ 0 := by omega
  have bits : precision ≤ n.log2 := by
    rw [Nat.le_log2 positive, ← Nat.pow_eq, ← exactLimit_eq]
    exact Nat.le_of_lt large
  obtain ⟨up, bits⟩ : ∃ up, n.log2 = up + 1 + (precision - 1) :=
    ⟨n.log2 - precision, by simp only [precision] at bits ⊢; omega⟩
  have guess : (n.log2 : Int) - Nat.log2 1 - (precision - 1 : Nat) = Int.ofNat (up + 1) := by
    have one : Nat.log2 1 = 0 := by decide
    rw [bits, one]
    simp
  have full : Nat.pow 2 (precision - 1) ≤ n / (1 * Nat.pow 2 (up + 1)) := by
    rw [Nat.one_mul, Nat.pow_eq, Nat.pow_eq, Nat.le_div_iff_mul_le (Nat.two_pow_pos _), ← Nat.pow_add,
      Nat.add_comm, ← bits]
    exact Nat.log2_self_le positive
  have exponent : max (Int.ofNat (up + 1)) leastExponent = Int.ofNat (up + 1) := by
    simp only [leastExponent, Int.ofNat_eq_natCast]
    omega
  simp only [ofRatio, if_neg positive, guess, scaled, if_neg (Nat.not_lt.mpr full), exponent]
  split
  · have enough : precision ≤ 1024 := by decide
    rw [index, truncate, outermost, exactLimit_eq]
    -- Any exponent from the precision on would do; the one at hand is too large to be evaluated.
    generalize 1024 = bits at enough ⊢
    rw [signed, if_neg Bool.false_ne_true, Int.toNat_natCast]
    exact Nat.pow_le_pow_right (by decide) enough
  · have rounded := Nat.le_trans full (le_roundQuotient n (1 * Nat.pow 2 (up + 1)))
    rw [ofParts, signed, if_neg Bool.false_ne_true, index_finite_zero, exactLimit_eq]
    calc
      2 ^ precision = 2 ^ (precision - 1) * 2 ^ 1 := by rw [← Nat.pow_add]; rfl
      _ ≤ roundQuotient n (1 * Nat.pow 2 (up + 1)) * Nat.pow 2 (up + 1) :=
        Nat.mul_le_mul rounded (Nat.pow_le_pow_right (by decide) (by omega))

/-- A natural number beyond the limit points to no unit before the limit. -/
theorem index_ofNat_ge {n : Nat} (large : exactLimit ≤ n) : exactLimit ≤ (ofNat n).index := by
  rcases Nat.eq_or_lt_of_le large with rfl | larger
  · exact Nat.le_of_eq (index_ofNat (Nat.le_refl _)).symm
  · have sign : decide ((n : Int) < 0) = false := decide_eq_false (by omega)
    rw [ofNat, ofInt, ofFraction, if_neg (by simp; omega), sign]
    exact index_ofRatio_ge larger

/-- Finite numbers without a scale are ordered as their mantissas. -/
theorem finite_le_finite {m n : Int} : finite m 0 ≤ finite n 0 ↔ m ≤ n := by
  change (!decide (n * 1 < m * 1)) = true ↔ m ≤ n
  simp

/-- Natural numbers up to the limit are ordered as numbers. -/
theorem ofNat_le_ofNat {m n : Nat} (small : m ≤ n) (limit : n ≤ exactLimit) : ofNat m ≤ ofNat n := by
  rw [ofNat_eq_finite limit, ofNat_eq_finite (Nat.le_trans small limit), finite_le_finite]
  exact Int.ofNat_le.mpr small

/-- Integers up to the limit are less as numbers if they are less. -/
theorem ofInt_lt_ofInt {m n : Int} (small : m.natAbs ≤ exactLimit) (smaller : n.natAbs ≤ exactLimit)
    : ofInt m < ofInt n ↔ m < n := by
  change (ofInt m).isLess (ofInt n) = true ↔ m < n
  rw [ofInt_eq_finite small, ofInt_eq_finite smaller, isLess]
  simp [twoPower]

/-- They can be told apart as numbers. -/
theorem ofInt_inj {m n : Int} (small : m.natAbs ≤ exactLimit) (smaller : n.natAbs ≤ exactLimit)
    : ofInt m = ofInt n ↔ m = n := by
  rw [ofInt_eq_finite small, ofInt_eq_finite smaller]
  simp

/-- Natural numbers up to the limit are less as numbers if they are less. -/
theorem ofNat_lt_ofNat {m n : Nat} (small : m ≤ exactLimit) (smaller : n ≤ exactLimit)
    : ofNat m < ofNat n ↔ m < n := by
  rw [ofNat, ofNat, ofInt_lt_ofInt (by simpa using small) (by simpa using smaller), Int.ofNat_lt]

/-- A natural number is its own next whole number. -/
theorem ceiling_ofNat {n : Nat} (small : n ≤ exactLimit) : (ofNat n).ceiling = n := by
  rw [ofNat_eq_finite small, ceiling]
  simp [twoPower]

end Number

end StagedParser
