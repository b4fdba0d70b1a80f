import ArithTokens.Text.Basic

/-!
# Limits

Requests that are outside the limits of this library and have no answer: reading a character
where the text has ended, an offset too large for a position, and a caret line too wide for its
field.  A text of the greatest length `Position.greatest` still has a position at its end.
-/

namespace ArithTokens

/-- The request that has no answer. -/
inductive Limit
  | endOfText
  | offset (n : Nat)
  | fieldWidth
deriving DecidableEq

def Limit.message : Limit → Text
  | endOfText => "lexer read past end of input".toList
  | offset n => "offset ".toList ++ Text.ofNat n ++ " exceeds u32".toList
  | fieldWidth => "Formatting argument out of range".toList

namespace Position

def greatest : Nat :=
  0xffffffff

/-- The position at an offset, unless the offset is too large. -/
def ofOffset (n : Nat) : Except Limit Nat :=
  if n ≤ greatest then .ok n else .error (.offset n)

end Position

end ArithTokens
