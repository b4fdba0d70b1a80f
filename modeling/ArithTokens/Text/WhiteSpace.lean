import ArithTokens.Text.Basic
import ArithTokens.Text.Ranges

/-!
# White space

The Unicode property `White_Space`, and the text without white space at its end.  This class is
wider than the blanks that separate tokens: it decides only how a line is shown.

    isWhiteSpace c = true ↔ its code point lies in one of the ranges        (isWhiteSpace_iff)
-/

namespace ArithTokens.WhiteSpace

/-- The code points with the property `White_Space`. -/
def ranges : List (Nat × Nat) :=
  [(0x9, 0xd), (0x20, 0x20), (0x85, 0x85), (0xa0, 0xa0), (0x1680, 0x1680), (0x2000, 0x200a),
    (0x2028, 0x2029), (0x202f, 0x202f), (0x205f, 0x205f), (0x3000, 0x3000)]

def isWhiteSpace (c : Char) : Bool :=
  Ranges.contains ranges c.toNat

def trimEnd (s : Text) : Text :=
  s.dropTrailing isWhiteSpace

theorem ascending_ranges : Ranges.Ascending ranges := by
  decide

theorem isWhiteSpace_iff {c : Char} :
    isWhiteSpace c = true ↔ ∃ r ∈ ranges, r.1 ≤ c.toNat ∧ c.toNat ≤ r.2 :=
  Ranges.contains_iff ascending_ranges c.toNat

end ArithTokens.WhiteSpace
