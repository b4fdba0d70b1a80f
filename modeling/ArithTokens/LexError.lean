import ArithTokens.Text.Escape

/-!
# Errors

An error is a cause and the position that it is reported at.  Its message is one line: the cause
in words, with the characters of the text quoted, and the position.  The tip says how to mend the
text; it shows a single character in visible ASCII and a literal as it stands.
-/

namespace ArithTokens

/-- Why a text has no tokens. -/
inductive Cause
  | unexpectedCharacter (character : Char)
  | unterminatedFloat (literal : Text)
  | unreadableNumber (literal : Text)
  | inputTooLong (length : Nat)
deriving DecidableEq

namespace Cause

def name : Cause → Text
  | unexpectedCharacter _ => "UnexpectedCharacter".toList
  | unterminatedFloat _ => "UnterminatedFloat".toList
  | unreadableNumber _ => "NumberParseError".toList
  | inputTooLong _ => "InputTooLong".toList

def detail : Cause → Text
  | unexpectedCharacter c => "unexpected character: ".toList ++ Escape.quoted '\'' [c]
  | unterminatedFloat literal => "unterminated float: ".toList ++ Escape.quoted '"' literal
  | unreadableNumber literal => "error parsing number: ".toList ++ Escape.quoted '"' literal
  | inputTooLong n => "input too long: ".toList ++ Text.ofNat n ++ " characters".toList

/-- How to mend the text. -/
def tip? : Cause → Option Text
  | unexpectedCharacter c =>
    some ("Unexpected character `".toList ++ Escape.ascii c ++
      "`, only numbers, parentheses and + - * / are allowed".toList)
  | unterminatedFloat literal =>
    some ("Unterminated float: `".toList ++ literal ++
      "`, a decimal point must be followed by a digit".toList)
  | unreadableNumber _ => none
  | inputTooLong n =>
    some ("Input of ".toList ++ Text.ofNat n ++
      " characters is too long, split it into smaller lines".toList)

end Cause

structure LexError where
  cause : Cause
  position : Nat
deriving DecidableEq

def LexError.message (e : LexError) : Text :=
  e.cause.detail ++ " at position ".toList ++ Text.ofNat e.position

end ArithTokens
