import ArithTokens.LexError
import ArithTokens.Limit
import ArithTokens.Place
import ArithTokens.Text.WhiteSpace

/-!
# Diagnostics

A diagnostic shows an error under the line that it is reported in:

    Error: UnexpectedCharacter (Unexpected character ...)
    -> stdin:1
      |
    1 | 5 $ 3
      | --^

The line is shown without the spaces at its start and the white space at its end.  The caret
stands under the column of the position, or under the first character shown if the column lies in
the spaces left out.  The caret is aligned to the right in a field, and a field has a greatest
width: a position too far on has no diagnostic.
-/

namespace ArithTokens

namespace Diagnostic

/-- The greatest width of the field of the caret. -/
def greatestWidth : Nat :=
  65535

/-- The first line: the name of the cause, and the tip in parentheses. -/
def heading (cause : Cause) : Text :=
  "Error: ".toList ++ cause.name ++
    match cause.tip? with
    | some tip => " (".toList ++ tip ++ ")".toList
    | none => []

/-- The number of spaces at the start of a line. -/
def indentation (line : Text) : Nat :=
  (line.takeWhile (· = ' ')).length

def shown (line : Text) : Text :=
  WhiteSpace.trimEnd (line.drop (indentation line))

/-- The column of the caret in the line as it is shown. -/
def caretColumn (place : Place) : Nat :=
  place.column - indentation place.text

/-- The line that says where the error is. -/
def location (origin : Text) (line : Nat) : Text :=
  "-> ".toList ++ origin ++ ':' :: Text.ofNat line

/-- The bar that separates line numbers as long as that of `line` from the text. -/
def gutter (line : Nat) : Text :=
  Text.alignRight ' ' ((Text.ofNat line).length + 2) ['|']

/-- The lines that show a place, where `line` is the number to show. -/
def excerpt (line : Nat) (place : Place) : List Text :=
  [gutter line,
    Text.ofNat line ++ " | ".toList ++ shown place.text,
    gutter line ++ ' ' :: Text.alignRight '-' (caretColumn place + 1) ['^']]

end Diagnostic

/-- The diagnostic of an error in a text.  The text comes from `origin`, after `linesBefore` other
lines of it. -/
def LexError.diagnostic (e : LexError) (source origin : Text) (linesBefore : Nat) :
    Except Limit Text :=
  match Place.find? source e.position with
  | none => .ok (Text.ofLines [Diagnostic.heading e.cause, "-> ".toList ++ origin])
  | some place =>
    if Diagnostic.greatestWidth < Diagnostic.caretColumn place + 1 then .error .fieldWidth
    else
      let line := place.line + linesBefore
      .ok (Text.ofLines (Diagnostic.heading e.cause :: Diagnostic.location origin line ::
        Diagnostic.excerpt line place))

end ArithTokens
