import StagedParser.Number

/-!
The text of a number has the fewest decimal digits that round back to it, and of those the nearest.
Notation is positional up to 21 places before the point and five zeros after it, and has an exponent
elsewhere.
-/

namespace StagedParser

namespace Number

/-- A positive decimal `digits * 10 ^ (point - count)`, where `count` is the number of digits: the
point stands after the first `point` of them. -/
structure Decimal where
  digits : Nat
  point : Int
deriving DecidableEq, Repr

/-- The open or closed interval of reals that round to a number, all ends over one denominator. -/
structure Interval where
  low : Nat
  value : Nat
  high : Nat
  denominator : Nat
  closed : Bool

/-- The interval of reals that round to the positive number `mantissa / 2 ^ scale`. Its lower half
is narrower at a power of two, and its ends belong to it when the full mantissa is even. -/
def interval (mantissa scale : Nat) : Interval :=
  let bits : Int := (Nat.log2 mantissa + 1 : Nat)
  let least := max (bits - precision - scale) leastExponent
  let (n, d) := scaled mantissa (Nat.pow 2 scale) least
  let full := n / d
  let below := if full = Nat.pow 2 (precision - 1) ∧ leastExponent < least then 1 else 2
  let quarter := least - 2
  let up := Nat.pow 2 quarter.toNat
  { low := (4 * full - below) * up
    value := 4 * full * up
    high := (4 * full + 2) * up
    denominator := Nat.pow 2 (-quarter).toNat
    closed := full % 2 = 0 }

/-- Whether `numerator / denominator` lies in an interval. -/
def Interval.contains (i : Interval) (numerator denominator : Nat) : Bool :=
  let below := i.low * denominator
  let above := i.high * denominator
  let here := numerator * i.denominator
  if i.closed then below ≤ here && here ≤ above else below < here && here < above

/-- The number of places before the decimal point of `numerator / denominator`: zero or negative
when zeros follow the point. -/
def pointOf (numerator denominator : Nat) : (fuel : Nat) → Int
  | 0 => 0
  | fuel + 1 =>
    if denominator ≤ numerator then
      (Nat.toDigits 10 (numerator / denominator)).length
    else
      pointOf (numerator * 10) denominator fuel - 1

/-- The nearest decimal with `count` digits that lies in the interval, if there is one. -/
def decimalOfLength (i : Interval) (point : Int) (count : Nat) : Option Nat :=
  let place := point - count
  let up := Nat.pow 10 place.toNat
  let down := Nat.pow 10 (-place).toNat
  let unit := i.denominator * up
  let value := i.value * down
  let floor := value / unit
  let rest := 2 * (value % unit)
  let nearer := if rest < unit then floor else if unit < rest then floor + 1 else floor + floor % 2
  let farther := if nearer = floor then floor + 1 else floor
  [nearer, farther].find? fun candidate => 0 < candidate && i.contains (candidate * up) down

/-- Drops the zeros at the end of a digit string. -/
def dropZeros (digits : Nat) : Nat :=
  if h : digits ≠ 0 ∧ digits % 10 = 0 then dropZeros (digits / 10) else digits
termination_by digits
decreasing_by omega

/-- The shortest decimal that rounds to the positive number `mantissa / 2 ^ scale`. -/
def shortest (mantissa scale : Nat) : Decimal :=
  let i := interval mantissa scale
  let point := pointOf i.value i.denominator 400
  let found := (List.range' 1 17).findSome? fun count =>
    (decimalOfLength i point count).map fun digits => (digits, count)
  match found with
  | some (digits, count) =>
    { digits := dropZeros digits, point := point + ((Nat.toDigits 10 digits).length - count) }
  | none => { digits := 0, point := 1 }

def zeros (count : Nat) : Text :=
  List.replicate count 48

def Decimal.text (d : Decimal) : Text :=
  let digits := Text.ofNat d.digits
  let count : Int := digits.length
  if count ≤ d.point ∧ d.point ≤ 21 then
    digits ++ zeros (d.point - count).toNat
  else if 0 < d.point ∧ d.point ≤ 21 then
    digits.take d.point.toNat ++ Text.ofString "." ++ digits.drop d.point.toNat
  else if -6 < d.point ∧ d.point ≤ 0 then
    Text.ofString "0." ++ zeros (-d.point).toNat ++ digits
  else
    let power := d.point - 1
    let fraction := if count = 1 then [] else Text.ofString "." ++ digits.drop 1
    let sign := Text.ofString (if power < 0 then "e-" else "e+")
    digits.take 1 ++ fraction ++ sign ++ Text.ofNat power.natAbs

/-- The text of a number. A whole number up to `2 ^ 53` has all its digits. -/
def text : Number → Text
  | .nan => Text.ofString "NaN"
  | .infinite negative => Text.ofString (if negative then "-Infinity" else "Infinity")
  | .finite mantissa scale =>
    if scale = 0 ∧ mantissa.natAbs ≤ exactLimit then
      Text.ofInt mantissa
    else
      let digits := (shortest mantissa.natAbs scale).text
      if mantissa < 0 then Text.ofString "-" ++ digits else digits

end Number

end StagedParser
