import ArithTokens.Text.Basic
import ArithTokens.Text.Unprintable

/-!
# Escaped characters

Two ways to show a character that may be invisible.

* `ascii`: in a text of visible ASCII characters only; everything else by its code point.
* `quoted`: between quotation marks; visible characters of all scripts stay as they are, and only
  the mark that encloses the text needs a backslash.
-/

namespace ArithTokens.Escape

/-- A character by its code point, in hexadecimal digits between braces. -/
def codePoint (c : Char) : Text :=
  ['\\', 'u', '\x7b'] ++ Nat.toDigits 16 c.toNat ++ ['\x7d']

/-! ## Visible ASCII -/

def ascii (c : Char) : Text :=
  if c = '\t' then ['\\', 't']
  else if c = '\r' then ['\\', 'r']
  else if c = '\n' then ['\\', 'n']
  else if c = '\'' ∨ c = '"' ∨ c = '\\' then ['\\', c]
  else if 0x20 ≤ c.toNat ∧ c.toNat ≤ 0x7e then [c]
  else codePoint c

/-! ## Quotation -/

/-- A character between quotation marks `mark`. -/
def within (mark c : Char) : Text :=
  if c.toNat = 0 then ['\\', '0']
  else if c = '\t' then ['\\', 't']
  else if c = '\r' then ['\\', 'r']
  else if c = '\n' then ['\\', 'n']
  else if c = '\\' ∨ c = mark then ['\\', c]
  else if Unprintable.isUnprintable c then codePoint c
  else [c]

def quoted (mark : Char) (s : Text) : Text :=
  mark :: s.flatMap (within mark) ++ [mark]

end ArithTokens.Escape
