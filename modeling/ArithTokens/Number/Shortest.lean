import ArithTokens.Number.Binary64

/-!
# The shortest decimal of a binary64 number

Every finite magnitude is an exact decimal: `exact m / 10 ^ places m`.  For one digit, two digits
and so on, the two neighbours of that decimal on the grid of so many leading digits are read
back; the first grid with a neighbour that reads as the same magnitude gives the decimal, and of
two such neighbours the nearer one is taken, the upper one if they are equally near.  On the grid
of all its digits the decimal itself is a neighbour, so the search always ends with an answer.
-/

namespace ArithTokens.Binary64

/-! ## The exact decimal -/

/-- The decimal places that the exact value of a finite magnitude has at most. -/
def places (m : Nat) : Nat :=
  unitPlaces - shift m

/-- The exact value of a finite magnitude times `10 ^ places m`.  One of the two powers is one. -/
def exact (m : Nat) : Nat :=
  significand m * Nat.pow 2 (shift m - unitPlaces) * Nat.pow 5 (unitPlaces - shift m)

/-! ## The search -/

/-- The neighbour of the exact value on the grid `step` that reads back as `m`, the nearer one if
both do. -/
def onGrid? (m step : Nat) : Option Nat :=
  let value := exact m
  let low := value / step * step
  let high := low + step
  let lowReads := nearestDecimal low (places m) = m
  let highReads := nearestDecimal high (places m) = m
  if lowReads ∧ ¬(highReads ∧ high - value ≤ value - low) then some low
  else if highReads then some high
  else none

/-- The decimal with the fewest digits that reads back as `m`, times `10 ^ places m`. -/
def shortest (m : Nat) : Nat :=
  let size := (Text.ofNat (exact m)).length
  ((List.range size).findSome? fun k => onGrid? m (Nat.pow 10 (size - 1 - k))).getD (exact m)

/-! ## The written form -/

/-- The text of a number: the positional form of its shortest decimal, with a minus sign wherever
the sign bit is set; `inf` for the infinities and, whatever its sign bit, `NaN` for what is not a
number. -/
def toText (x : Binary64) : Text :=
  if x.isNaN then "NaN".toList
  else if x.magnitude = infinity then
    (if x.negative then ['-'] else []) ++ "inf".toList
  else (Decimal.mk x.negative (shortest x.magnitude) (places x.magnitude)).toLiteral

end ArithTokens.Binary64
