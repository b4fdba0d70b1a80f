import ArithTokens.Text.Basic

/-!
# Decimals

A decimal is a sign, a coefficient and a number of decimal places.  A number literal is an
optional minus sign, digits, and optionally a point with more digits.

Reading a literal gives the decimal with exactly its digits: as many places as there are digits
after the point.  Writing gives the positional form without needless zeros: no exponent, no
trailing zero in the fraction, and no point without a fraction.
-/

namespace ArithTokens

/-- The number `coefficient / 10 ^ places`, with the sign beside it so that there is a negative
zero. -/
structure Decimal where
  negative : Bool
  coefficient : Nat
  places : Nat
deriving DecidableEq

namespace Decimal

/-! ## Reading -/

/-- Reads digits, optionally followed by a point and more digits; nothing else may follow. -/
def ofUnsigned? (negative : Bool) (s : Text) : Option Decimal :=
  let whole := s.takeWhile Char.isDigit
  if whole = [] then none
  else
    match s.dropWhile Char.isDigit with
    | [] => some ⟨negative, Nat.ofDigitChars 10 whole 0, 0⟩
    | point :: fraction =>
      if point = '.' ∧ fraction ≠ [] ∧ fraction.all Char.isDigit then
        some ⟨negative, Nat.ofDigitChars 10 (whole ++ fraction) 0, fraction.length⟩
      else none

/-- Reads a number literal; `none` for any other text. -/
def ofLiteral? : Text → Option Decimal
  | [] => none
  | c :: s => if c = '-' then ofUnsigned? true s else ofUnsigned? false (c :: s)

/-! ## Writing -/

/-- All decimal places, zeros at either end included. -/
def fractionDigits (d : Decimal) : Text :=
  (Text.ofNat (d.coefficient % Nat.pow 10 d.places)).alignRight '0' d.places

/-- The positional form: the whole part without leading zeros, and the fraction, if it is not
zero, without trailing ones. -/
def toLiteral (d : Decimal) : Text :=
  let fraction := d.fractionDigits.dropTrailing (· = '0')
  (if d.negative then ['-'] else []) ++ Text.ofNat (d.coefficient / Nat.pow 10 d.places) ++
    if fraction = [] then [] else '.' :: fraction

end Decimal

end ArithTokens
