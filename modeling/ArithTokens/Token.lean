import ArithTokens.Number.Shortest
import ArithTokens.Limit

/-!
# Tokens

A token is its kind, the value of a number, and the span of the text that it was read from.  The
single characters that stand for a kind on their own are listed here; the minus sign is not one
of them, because it may start a negative number.
-/

namespace ArithTokens

/-! ## Kinds -/

/-- The kinds of tokens; the last token of every text is `endOfInput`. -/
inductive Kind
  | endOfInput
  | number
  | openParen
  | closeParen
  | plus
  | minus
  | star
  | slash
deriving DecidableEq

namespace Kind

def name : Kind → Text
  | endOfInput => "EOF".toList
  | number => "Number".toList
  | openParen => "OpenParen".toList
  | closeParen => "CloseParen".toList
  | plus => "Plus".toList
  | minus => "Minus".toList
  | star => "Star".toList
  | slash => "Slash".toList

def all : List Kind :=
  [endOfInput, number, openParen, closeParen, plus, minus, star, slash]

/-- The kind that a character stands for whatever follows it. -/
def ofPunctuation? (c : Char) : Option Kind :=
  if c = '(' then some openParen
  else if c = ')' then some closeParen
  else if c = '*' then some star
  else if c = '/' then some slash
  else if c = '+' then some plus
  else none

theorem mem_all (k : Kind) : k ∈ all := by
  cases k <;> decide

end Kind

/-! ## Spans -/

/-- The positions from `start` on and before `stop`. -/
structure Span where
  start : Nat
  stop : Nat
deriving DecidableEq

namespace Span

/-- The span between two offsets, where both are positions. -/
def ofOffsets (start stop : Nat) : Except Limit Span :=
  match Position.ofOffset start with
  | .error limit => .error limit
  | .ok start =>
    match Position.ofOffset stop with
    | .error limit => .error limit
    | .ok stop => .ok ⟨start, stop⟩

def slice (s : Text) (span : Span) : Text :=
  (s.drop span.start).take (span.stop - span.start)

end Span

/-! ## Tokens -/

structure Token where
  kind : Kind
  value : Option Binary64
  span : Span
deriving DecidableEq

namespace Token

/-- The token that ends a text of `offset` characters. -/
def atEnd (offset : Nat) : Token :=
  ⟨.endOfInput, none, ⟨offset, offset⟩⟩

def isEnd (t : Token) : Bool :=
  t.kind = .endOfInput

/-- Equality with numbers compared by value. -/
def valueEq (t u : Token) : Bool :=
  t.kind = u.kind && sameValue t.value u.value && t.span = u.span
where
  /-- Both absent, or both present and equal as numbers. -/
  sameValue : Option Binary64 → Option Binary64 → Bool
    | none, none => true
    | some x, some y => x.valueEq y
    | _, _ => false

/-- The name of the kind, and the value, if there is one, in parentheses. -/
def toText (t : Token) : Text :=
  match t.value with
  | none => t.kind.name
  | some x => t.kind.name ++ '(' :: x.toText ++ [')']

/-- A list of tokens between brackets, separated by commas. -/
def listText (tokens : List Token) : Text :=
  '[' :: ", ".toList.intercalate (tokens.map toText) ++ [']']

end Token

end ArithTokens
