import ArithTokens.Text.Basic

/-!
# Graphic renditions

A terminal shows text in the rendition that was selected last.  Aspects of it (bold, italics,
underlined, colors) have numbers, and the number zero selects the plain rendition.
-/

namespace ArithTokens.Rendition

/-- Selects an aspect of the rendition by its number. -/
def select (number : Nat) : Text :=
  ['\x1b', '['] ++ Text.ofNat number ++ ['m']

/-- A text with the given aspects, and the plain rendition behind it. -/
def render (numbers : List Nat) (s : Text) : Text :=
  numbers.flatMap select ++ s ++ select 0

def bold : Nat :=
  1

def dim : Nat :=
  2

def italic : Nat :=
  3

def underlined : Nat :=
  4

end ArithTokens.Rendition
