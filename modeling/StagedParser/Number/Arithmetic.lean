import StagedParser.Number

/-!
Sums, order and whole parts of numbers. A sum is the number nearest to the exact sum, so a whole
number below `2 ^ 53` has the next whole number as its successor, and a larger one may have itself.
-/

namespace StagedParser

namespace Number

/-- A power of two as an integer. -/
def twoPower (exponent : Nat) : Int :=
  Int.ofNat (Nat.pow 2 exponent)

def neg : Number → Number
  | .finite mantissa scale => .finite (-mantissa) scale
  | .infinite negative => .infinite (!negative)
  | .nan => .nan

/-- The sum with an integer. -/
def plus : Number → Int → Number
  | .finite mantissa scale, n => ofFraction (mantissa + n * twoPower scale) scale
  | .infinite negative, _ => .infinite negative
  | .nan, _ => .nan

/-- The sum of two numbers; opposite infinities have none. -/
def add : Number → Number → Number
  | .finite m s, .finite n t =>
    ofFraction (m * twoPower (max s t - s) + n * twoPower (max s t - t)) (max s t)
  | .finite .., .infinite negative => .infinite negative
  | .infinite negative, .finite .. => .infinite negative
  | .infinite a, .infinite b => if a = b then .infinite a else .nan
  | _, _ => .nan

/-- The difference of two numbers; equal infinities have none. -/
def sub (a b : Number) : Number :=
  a.add b.neg

def isLess : Number → Number → Bool
  | .finite m s, .finite n t => m * twoPower t < n * twoPower s
  | .finite .., .infinite negative => !negative
  | .infinite negative, .finite .. => negative
  | .infinite a, .infinite b => a && !b
  | _, _ => false

def isAtMost : Number → Number → Bool
  | .nan, _ | _, .nan => false
  | a, b => !b.isLess a

/-- Whether two numbers are equal in a comparison: what is no number does not even equal itself. -/
def isEqual (a b : Number) : Bool :=
  a ≠ .nan && a = b

instance : LT Number := ⟨fun a b => a.isLess b = true⟩

instance : LE Number := ⟨fun a b => a.isAtMost b = true⟩

instance (a b : Number) : Decidable (a < b) :=
  inferInstanceAs (Decidable (a.isLess b = true))

instance (a b : Number) : Decidable (a ≤ b) :=
  inferInstanceAs (Decidable (a.isAtMost b = true))

/-- The integer that stands for an infinity: none of the finite numbers reaches it. -/
def outermost (negative : Bool) : Int :=
  signed negative (Nat.pow 2 1024)

/-- The whole part of a number, toward zero; zero where there is no number. -/
def truncate : Number → Int
  | .finite mantissa scale => mantissa.tdiv (twoPower scale)
  | .infinite negative => outermost negative
  | .nan => 0

/-- The least integer that is no less than a number; zero where there is no number. -/
def ceiling : Number → Int
  | .finite mantissa scale => -((-mantissa) / twoPower scale)
  | .infinite negative => outermost negative
  | .nan => 0

/-- The index of the unit that a number points at, if it is not negative. -/
def index (n : Number) : Nat :=
  n.truncate.toNat

end Number

end StagedParser
