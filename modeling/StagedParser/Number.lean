import StagedParser.Text

/-!
Numbers are binary floating-point numbers of 53 significant bits. A finite one is kept as
`mantissa / 2 ^ scale` in lowest terms, so equal numbers are equal values; there is one zero. One
more value stands for the result of a calculation that has none; it compares with nothing.
Anything else is rounded to the nearest number, a tie going to the even mantissa; whole numbers up
to `2 ^ 53` need no rounding.
-/

namespace StagedParser

/-- A floating-point number: finite in lowest terms, one of the two infinities, or no number at
all. -/
inductive Number where
  | finite (mantissa : Int) (scale : Nat)
  | infinite (negative : Bool)
  | nan
deriving DecidableEq, Repr

namespace Number

def precision : Nat := 53

/-- The least exponent of a mantissa. -/
def leastExponent : Int := -1074

/-- The greatest exponent of a full mantissa. -/
def greatestExponent : Int := 971

/-- The whole number `2 ^ 53`: it and all whole numbers below it are numbers. -/
def exactLimit : Nat := 9007199254740992

/-- Halves an even mantissa as long as the scale allows it, lowering the scale each time. -/
def lowestTerms (mantissa : Nat) : (scale : Nat) → Nat × Nat
  | 0 => (mantissa, 0)
  | scale + 1 =>
    if mantissa % 2 = 0 then lowestTerms (mantissa / 2) scale else (mantissa, scale + 1)

/-- A natural number with a sign. -/
def signed (negative : Bool) (magnitude : Nat) : Int :=
  if negative then -(magnitude : Int) else magnitude

/-- The signed number `mantissa * 2 ^ exponent` in lowest terms. -/
def ofParts (negative : Bool) (mantissa : Nat) (exponent : Int) : Number :=
  match exponent with
  | .ofNat up => .finite (signed negative (mantissa * Nat.pow 2 up)) 0
  | .negSucc down =>
    let (mantissa, scale) := lowestTerms mantissa (down + 1)
    .finite (signed negative mantissa) scale

/-- The integer nearest to `numerator / denominator`, the even one of two equally near. -/
def roundQuotient (numerator denominator : Nat) : Nat :=
  let quotient := numerator / denominator
  let twiceRest := 2 * (numerator % denominator)
  if twiceRest < denominator then quotient
  else if denominator < twiceRest then quotient + 1
  else quotient + quotient % 2

/-- The quotient `numerator / denominator / 2 ^ exponent`, as a pair of naturals. -/
def scaled (numerator denominator : Nat) (exponent : Int) : Nat × Nat :=
  match exponent with
  | .ofNat up => (numerator, denominator * Nat.pow 2 up)
  | .negSucc down => (numerator * Nat.pow 2 (down + 1), denominator)

/-- The number nearest to `numerator / denominator`. -/
def ofRatio (negative : Bool) (numerator denominator : Nat) : Number :=
  if numerator = 0 then
    .finite 0 0
  else
    let guess : Int := (Nat.log2 numerator : Int) - Nat.log2 denominator - (precision - 1 : Nat)
    let (n, d) := scaled numerator denominator guess
    let ideal := if n / d < Nat.pow 2 (precision - 1) then guess - 1 else guess
    let exponent := max ideal leastExponent
    let (n, d) := scaled numerator denominator exponent
    let mantissa := roundQuotient n d
    let full := Nat.pow 2 precision ≤ mantissa
    if greatestExponent < exponent ∨ (exponent = greatestExponent ∧ full) then
      .infinite negative
    else
      ofParts negative mantissa exponent

/-- The number nearest to `numerator / 2 ^ scale`. -/
def ofFraction (numerator : Int) (scale : Nat) : Number :=
  if scale = 0 ∧ numerator.natAbs ≤ exactLimit then
    .finite numerator 0
  else
    ofRatio (numerator < 0) numerator.natAbs (Nat.pow 2 scale)

/-- The number nearest to `digits * 10 ^ scale`. -/
def ofDecimal (digits scale : Int) : Number :=
  let magnitude := digits.natAbs
  let places : Int := (Nat.toDigits 10 magnitude).length + scale
  if magnitude = 0 ∨ places < -400 then
    .finite 0 0
  else if 400 < places then
    .infinite (digits < 0)
  else
    match scale with
    | .ofNat up => ofRatio (digits < 0) (magnitude * Nat.pow 10 up) 1
    | .negSucc down => ofRatio (digits < 0) magnitude (Nat.pow 10 (down + 1))

/-- The number nearest to an integer. -/
def ofInt (n : Int) : Number :=
  ofFraction n 0

/-- The number nearest to a natural number. -/
def ofNat (n : Nat) : Number :=
  ofInt n

instance (n : Nat) : OfNat Number n := ⟨ofNat n⟩

/-- The integer that a number is, if it is one. -/
def toInt? : Number → Option Int
  | .finite mantissa 0 => some mantissa
  | _ => none

end Number

end StagedParser
