import ArithTokens.Text.Basic
import ArithTokens.Text.Lines

/-!
# Places

The place of a position is its line, counted from one, the text of that line, and the column in
it, counted from zero.  A line ends after its line feed only.  The position at the end of a text
belongs to the last line, even if that line has its line feed; a text without characters has one
empty line; behind the end there are no places.
-/

namespace ArithTokens

structure Place where
  line : Nat
  text : Text
  column : Nat
deriving DecidableEq

namespace Place

/-- The place of a position in lines of which the first has the number `line`. -/
def among? (line position : Nat) : List Text → Option Place
  | [] => none
  | text :: more =>
    if position < text.length then some ⟨line, text, position⟩
    else if more.isEmpty then
      if position = text.length then some ⟨line, text, position⟩ else none
    else among? (line + 1) (position - text.length) more

/-- The lines of a text; there is always one. -/
def linesOf (s : Text) : List Text :=
  if s.isEmpty then [[]] else Lines.cut '\n' s

def find? (s : Text) (position : Nat) : Option Place :=
  among? 1 position (linesOf s)

end Place

end ArithTokens
