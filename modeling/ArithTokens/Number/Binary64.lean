import ArithTokens.Number.Decimal

/-!
# Binary64 numbers

A number of the IEEE 754 format binary64 is its sign and the lower 63 bits of its pattern, the
*magnitude*.  Magnitudes are ordered as their values are: first the zero and the subnormal
numbers, then the normal ones, then `infinity`, and above it the patterns that are not numbers.

Every finite magnitude is a whole number of *units* of `2 ^ -1074`, so its value is the natural
number `units m` and rounding is exact arithmetic on natural numbers.

    units m = significand m * 2 ^ shift m
    nearest n d   the magnitude nearest to `n / d` units, ties to the even one
    ofDecimal d   the number nearest to a decimal, with the decimal's sign
-/

namespace ArithTokens

/-- The sign bit of a pattern, `2 ^ 63`. -/
def Binary64.signBit : Nat :=
  0x8000000000000000

/-- The bit above the fraction, `2 ^ 52`: the lowest bit of the exponent in a pattern, and the
leading bit of the significand of a normal number. -/
def Binary64.hiddenBit : Nat :=
  0x10000000000000

/-- A binary64 pattern: the sign bit and the other 63 bits. -/
structure Binary64 where
  negative : Bool
  magnitude : Nat
  magnitude_lt : magnitude < Binary64.signBit
deriving DecidableEq

namespace Binary64

/-! ## Patterns -/

def ofBits (n : Nat) : Binary64 :=
  ⟨n / signBit % 2 = 1, n % signBit, Nat.mod_lt n (by decide)⟩

def bits (x : Binary64) : Nat :=
  (if x.negative then signBit else 0) + x.magnitude

/-- The magnitude of the infinities: the largest exponent and no fraction. -/
def infinity : Nat :=
  2047 * hiddenBit

def isNaN (x : Binary64) : Bool :=
  infinity < x.magnitude

/-- Equality of values: the two zeros are equal, and what is not a number equals nothing. -/
def valueEq (x y : Binary64) : Bool :=
  !x.isNaN && !y.isNaN && x.magnitude = y.magnitude && (x.magnitude = 0 || x.negative = y.negative)

/-! ## Values -/

/-- The unit is `2 ^ -unitPlaces`. -/
def unitPlaces : Nat :=
  1074

/-- The significand of a finite magnitude, as a natural number below `2 ^ 53`. -/
def significand (m : Nat) : Nat :=
  if m < hiddenBit then m else hiddenBit + m % hiddenBit

/-- How far the significand is shifted left; subnormal numbers share the least shift with the
smallest normal ones. -/
def shift (m : Nat) : Nat :=
  m / hiddenBit - 1

/-- The value of a finite magnitude in units. -/
def units (m : Nat) : Nat :=
  significand m * Nat.pow 2 (shift m)

/-! ## Rounding -/

/-- The natural number nearest to `n / d`, the even one if two are equally near. -/
def roundHalfEven (n d : Nat) : Nat :=
  let q := n / d
  let r := n % d
  if 2 * r < d ∨ (2 * r = d ∧ q % 2 = 0) then q else q + 1

/-- The magnitude nearest to `n / d` units, the even one if two are equally near.  The significand
is rounded at the shift that leaves 53 binary digits; a carry out of it lands on the next pattern
by itself, and everything from the middle above the largest finite number on is infinite. -/
def nearest (n d : Nat) : Nat :=
  let s := Nat.log2 (n / d) - 52
  min infinity (s * hiddenBit + roundHalfEven n (d * Nat.pow 2 s))

/-- The magnitude nearest to `c / 10 ^ places`. -/
def nearestDecimal (c places : Nat) : Nat :=
  nearest (c * Nat.pow 2 unitPlaces) (Nat.pow 10 places)

theorem nearest_le_infinity (n d : Nat) : nearest n d ≤ infinity :=
  Nat.min_le_left _ _

theorem nearestDecimal_lt (c places : Nat) : nearestDecimal c places < signBit :=
  Nat.lt_of_le_of_lt (nearest_le_infinity _ _) (by decide)

/-- The number nearest to a decimal.  The sign is kept even where the magnitude rounds to zero. -/
def ofDecimal (d : Decimal) : Binary64 :=
  ⟨d.negative, nearestDecimal d.coefficient d.places, nearestDecimal_lt _ _⟩

/-- The value of a number literal; `none` for any other text. -/
def ofLiteral? (s : Text) : Option Binary64 :=
  (Decimal.ofLiteral? s).map ofDecimal

end Binary64

end ArithTokens
