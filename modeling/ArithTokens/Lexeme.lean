import ArithTokens.LexError
import ArithTokens.Token

/-!
# Lexemes

The scanner cuts off the front of a text the longest piece that can belong together: its first
*lexeme*.  One character after the lexeme decides where it ends, and nothing before it matters.
A lexeme is read as a token or as the cause of an error.

    Lexeme.first? s = some l → ∃ rest, s = l.text ++ rest              (exists_append_of_first?)
    Lexeme.first? s = some l → l.text ≠ []                             (text_ne_nil_of_first?)
    Lexeme.first? s = none ↔ s = []                                    (first?_eq_none_iff)
-/

namespace ArithTokens

/-- Whether a character only separates lexemes. -/
def isBlank (c : Char) : Bool :=
  c = ' ' || c = '\n'

/-- Whether a character is one of the ten ASCII digits. -/
def isDigit (c : Char) : Bool :=
  c.isDigit

/-- A piece of text that belongs together. -/
inductive Lexeme
  /-- A character that stands for a kind of token. -/
  | symbol (kind : Kind) (character : Char)
  /-- A complete number literal. -/
  | number (literal : Text)
  /-- A number literal that ends in its point. -/
  | openFraction (literal : Text)
  /-- A character that belongs to no token. -/
  | stray (character : Char)
deriving DecidableEq

namespace Lexeme

/-! ## Algorithm -/

def text : Lexeme → Text
  | symbol _ c => [c]
  | number literal => literal
  | openFraction literal => literal
  | stray c => [c]

/-- The number literal that starts with the characters `sign` and goes on in `s`: all the digits,
and after a point all the digits again. -/
def ofDigits (sign s : Text) : Lexeme :=
  let whole := sign ++ s.takeWhile isDigit
  match s.dropWhile isDigit with
  | [] => number whole
  | c :: s =>
    if c = '.' then
      let fraction := s.takeWhile isDigit
      if fraction = [] then openFraction (whole ++ [c]) else number (whole ++ c :: fraction)
    else number whole

def startsWithDigit (s : Text) : Bool :=
  s.head?.any isDigit

/-- The first lexeme of a text that starts with no blank; `none` for the empty text. -/
def first? : Text → Option Lexeme
  | [] => none
  | c :: s =>
    match Kind.ofPunctuation? c with
    | some kind => some (symbol kind c)
    | none =>
      if c = '-' then
        some (if startsWithDigit s then ofDigits [c] s else symbol .minus c)
      else if isDigit c then some (ofDigits [] (c :: s))
      else some (stray c)

/-- Reads a lexeme that starts at an offset.  An open fraction is reported where its first digit
should be, the other errors where the lexeme starts. -/
def read (start : Nat) (l : Lexeme) : Except LexError Token :=
  let span := ⟨start, start + l.text.length⟩
  match l with
  | symbol kind _ => .ok ⟨kind, none, span⟩
  | number literal =>
    match Binary64.ofLiteral? literal with
    | some value => .ok ⟨.number, some value, span⟩
    | none => .error ⟨.unreadableNumber literal, span.start⟩
  | openFraction literal => .error ⟨.unterminatedFloat literal, span.stop⟩
  | stray c => .error ⟨.unexpectedCharacter c, span.start⟩

/-! ## Lemmas -/

theorem first?_eq_none_iff (s : Text) : first? s = none ↔ s = [] := by
  cases s with
  | nil => simp [first?]
  | cons c s =>
    simp only [first?, reduceCtorEq, iff_false]
    split
    · simp
    · split
      · simp
      · split <;> simp

/-- A number literal is a front part of the text. -/
theorem exists_append_of_ofDigits (sign s : Text) :
    ∃ rest, sign ++ s = (ofDigits sign s).text ++ rest := by
  have hs : s.takeWhile isDigit ++ s.dropWhile isDigit = s := List.takeWhile_append_dropWhile
  unfold ofDigits
  cases h : s.dropWhile isDigit with
  | nil =>
    rw [h] at hs
    exact ⟨[], by simp only [text, List.append_assoc, hs]⟩
  | cons c r =>
    rw [h] at hs
    have hr : r.takeWhile isDigit ++ r.dropWhile isDigit = r := List.takeWhile_append_dropWhile
    simp only
    split
    · split
      · exact ⟨r, by simp [text, hs]⟩
      · exact ⟨r.dropWhile isDigit, by simp [text, hr, hs]⟩
    · exact ⟨c :: r, by simp [text, hs]⟩

/-- The first lexeme is a front part of the text. -/
theorem exists_append_of_first? {s : Text} {l : Lexeme} (h : first? s = some l) :
    ∃ rest, s = l.text ++ rest := by
  cases s with
  | nil => cases h
  | cons c s =>
    unfold first? at h
    simp only at h
    split at h
    · cases h
      exact ⟨s, rfl⟩
    · split at h
      · cases h
        split
        · exact exists_append_of_ofDigits [c] s
        · exact ⟨s, rfl⟩
      · split at h
        · cases h
          exact exists_append_of_ofDigits [] (c :: s)
        · cases h
          exact ⟨s, rfl⟩

/-- A number literal that starts with something is not empty. -/
theorem text_ofDigits_ne_nil {sign s : Text} (h : sign ++ s.takeWhile isDigit ≠ []) :
    (ofDigits sign s).text ≠ [] := by
  unfold ofDigits
  cases s.dropWhile isDigit with
  | nil => exact h
  | cons c r =>
    simp only
    split
    · split <;> simp [text]
    · exact h

/-- A lexeme is not empty. -/
theorem text_ne_nil_of_first? {s : Text} {l : Lexeme} (h : first? s = some l) : l.text ≠ [] := by
  cases s with
  | nil => cases h
  | cons c s =>
    unfold first? at h
    simp only at h
    split at h
    · cases h
      simp [text]
    · split at h
      · cases h
        split
        · exact text_ofDigits_ne_nil (by simp)
        · simp [text]
      · split at h
        · next hd =>
          cases h
          exact text_ofDigits_ne_nil (by simp [hd])
        · cases h
          simp [text]

end Lexeme

end ArithTokens
