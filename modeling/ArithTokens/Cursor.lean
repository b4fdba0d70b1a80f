import ArithTokens.Lexeme

/-!
# Cursors

A cursor stands between two characters of a text: it knows how many characters it has passed and
which are left.  Moving it is the only way to change it, and no step looks back.  A step is given
twice: by lexemes as `next`, and one character at a time as `guardedNext`, where nothing is taken for
granted about the text and its length.

    after c.next the rest is shorter, unless the token is the end of the text   (next_rest_lt)
    c.next skips blanks, then one lexeme; the rest is what follows both          (next_append)
-/

namespace ArithTokens

/-- The number of characters passed, and the characters left. -/
structure Cursor where
  offset : Nat
  rest : Text
deriving DecidableEq

namespace Cursor

/-! ## Algorithm -/

/-- Refuses texts of this length if no position is at their end.  Nothing else of them matters. -/
def checkLength (length : Nat) : Except LexError Unit :=
  if length ≤ Position.greatest then .ok () else .error ⟨.inputTooLong length, 0⟩

/-- The cursor at the start of a text, unless the text is too long for its positions. -/
def ofText (s : Text) : Except LexError Cursor :=
  (checkLength s.length).map fun _ => ⟨0, s⟩

/-- The cursor `n` characters further on. -/
def forward (n : Nat) (c : Cursor) : Cursor :=
  ⟨c.offset + n, c.rest.drop n⟩

def isAtEnd (c : Cursor) : Bool :=
  c.rest.isEmpty

def current (c : Cursor) : Except Limit Char :=
  match c.rest with
  | [] => .error .endOfText
  | x :: _ => .ok x

/-- The character under the cursor, and the cursor behind it; at the end nothing moves. -/
def advance (c : Cursor) : Except Limit Char × Cursor :=
  match c.rest with
  | [] => (.error .endOfText, c)
  | x :: rest => (.ok x, ⟨c.offset + 1, rest⟩)

/-- The cursor behind the blanks that it stands before. -/
def skipBlanks (c : Cursor) : Cursor :=
  c.forward (c.rest.takeWhile isBlank).length

/-- The next token or error, and the cursor behind its lexeme.  At the end of the text this is
the end token, however often it is asked for. -/
def next (c : Cursor) : Except LexError Token × Cursor :=
  let start := c.skipBlanks
  match Lexeme.first? start.rest with
  | none => (.ok (Token.atEnd start.offset), start)
  | some l => (l.read start.offset, start.forward l.text.length)

/-! ## Guarded steps

The same step, taken one character at a time.  A character is read only behind a check that the text
goes on, and an offset becomes a position only if it is small enough; a read or an offset that fails
has no answer. -/

/-- The character under the cursor, and the cursor behind it. -/
def take (c : Cursor) : Except Limit (Char × Cursor) :=
  match c.advance with
  | (.error limit, _) => .error limit
  | (.ok x, after) => .ok (x, after)

/-- Whether there is a character in `p` under the cursor. -/
def isAt (p : Char → Bool) (c : Cursor) : Except Limit Bool :=
  if c.isAtEnd then .ok false else c.current.map p

theorem rest_lt_of_take {c after : Cursor} {x : Char} (h : c.take = .ok (x, after)) :
    after.rest.length < c.rest.length := by
  obtain ⟨n, s⟩ := c
  cases s with
  | nil => cases h
  | cons y s =>
    cases h
    exact Nat.lt_succ_self s.length

/-- The characters in `p` before the first other one, and the cursor behind them. -/
def takeRun (p : Char → Bool) (c : Cursor) : Except Limit (Text × Cursor) :=
  match c.isAt p with
  | .error limit => .error limit
  | .ok false => .ok ([], c)
  | .ok true =>
    match _ : c.take with
    | .error limit => .error limit
    | .ok (x, after) => (takeRun p after).map fun (xs, last) => (x :: xs, last)
termination_by c.rest.length
decreasing_by exact rest_lt_of_take ‹_›

/-- The token of a number literal between two offsets. -/
def guardedNumber (literal : Text) (start stop : Nat) : Except Limit (Except LexError Token) :=
  match Binary64.ofLiteral? literal with
  | some value => do return .ok ⟨.number, some value, ← Span.ofOffsets start stop⟩
  | none => do return .error ⟨.unreadableNumber literal, ← Position.ofOffset start⟩

/-- The number that starts with `first` at offset `start` and goes on under the cursor. -/
def guardedDigits (first : Char) (start : Nat) (c : Cursor) :
    Except Limit (Except LexError Token × Cursor) := do
  let (digits, c) ← c.takeRun isDigit
  if ← c.isAt (· = '.') then
    let (point, c) ← c.take
    if ← c.isAt isDigit then
      let (fraction, c) ← c.takeRun isDigit
      return (← guardedNumber (first :: digits ++ point :: fraction) start c.offset, c)
    else
      let position ← Position.ofOffset c.offset
      return (.error ⟨.unterminatedFloat (first :: digits ++ [point]), position⟩, c)
  else
    return (← guardedNumber (first :: digits) start c.offset, c)

/-- The token or error of the lexeme under the cursor, and the cursor behind it. -/
def guardedLexeme (c : Cursor) : Except Limit (Except LexError Token × Cursor) := do
  let start := c.offset
  let (x, c) ← c.take
  match Kind.ofPunctuation? x with
  | some kind => return (.ok ⟨kind, none, ← Span.ofOffsets start c.offset⟩, c)
  | none =>
    if x = '-' then
      if ← c.isAt isDigit then c.guardedDigits x start
      else return (.ok ⟨.minus, none, ← Span.ofOffsets start c.offset⟩, c)
    else if isDigit x then c.guardedDigits x start
    else return (.error ⟨.unexpectedCharacter x, ← Position.ofOffset start⟩, c)

/-- The next token or error, and the cursor behind its lexeme. -/
def guardedNext (c : Cursor) : Except Limit (Except LexError Token × Cursor) := do
  let (_, c) ← c.takeRun isBlank
  if c.isAtEnd then return (.ok ⟨.endOfInput, none, ← Span.ofOffsets c.offset c.offset⟩, c)
  else c.guardedLexeme

/-! ## Sessions -/

/-- What can be asked of a cursor. -/
inductive Request
  | current
  | advance
  | isAtEnd
  | next
  /-- Hands over a token for safe keeping, which concerns the text in no way. -/
  | keep (token : Token)
deriving DecidableEq

inductive Reply
  | character (result : Except Limit Char)
  | flag (result : Bool)
  | token (result : Except LexError Token)
  | done

def perform (c : Cursor) : Request → Reply × Cursor
  | .current => (.character c.current, c)
  | .advance => (.character c.advance.1, c.advance.2)
  | .isAtEnd => (.flag c.isAtEnd, c)
  | .next => (.token c.next.1, c.next.2)
  | .keep _ => (.done, c)

/-! ## Lemmas -/

theorem ofText_of_length_le {s : Text} (h : s.length ≤ Position.greatest) :
    ofText s = .ok ⟨0, s⟩ := by
  unfold ofText checkLength
  rw [if_pos h]
  rfl

theorem ofText_of_greatest_lt {s : Text} (h : Position.greatest < s.length) :
    ofText s = .error ⟨.inputTooLong s.length, 0⟩ := by
  unfold ofText checkLength
  rw [if_neg (Nat.not_le.mpr h)]
  rfl

theorem rest_skipBlanks (c : Cursor) : c.skipBlanks.rest = c.rest.dropWhile isBlank := by
  have h : c.rest.takeWhile isBlank ++ c.rest.dropWhile isBlank = c.rest :=
    List.takeWhile_append_dropWhile
  have hd := congrArg (List.drop (c.rest.takeWhile isBlank).length) h
  rw [List.drop_left] at hd
  exact hd.symm

/-- A step skips blanks and one lexeme. -/
theorem next_append (c : Cursor) {l : Lexeme} (h : Lexeme.first? c.skipBlanks.rest = some l) :
    c.rest = c.rest.takeWhile isBlank ++ l.text ++ c.next.2.rest := by
  obtain ⟨r, hr⟩ := Lexeme.exists_append_of_first? h
  have hn : c.next.2.rest = r := by
    unfold next
    simp only [h]
    show c.skipBlanks.rest.drop l.text.length = r
    rw [hr]
    simp
  rw [hn, List.append_assoc, ← hr, rest_skipBlanks, List.takeWhile_append_dropWhile]

/-- A step that does not give the end token leaves a shorter rest. -/
theorem next_rest_lt {c after : Cursor} {t : Token} (h : c.next = (.ok t, after))
    (ht : ¬t.isEnd = true) : after.rest.length < c.rest.length := by
  cases hl : Lexeme.first? c.skipBlanks.rest with
  | none =>
    unfold next at h
    simp only [hl, Prod.mk.injEq, Except.ok.injEq] at h
    rw [← h.1] at ht
    exact absurd rfl ht
  | some l =>
    have ha := congrArg List.length (c.next_append hl)
    have hp := List.length_pos_iff.mpr (Lexeme.text_ne_nil_of_first? hl)
    rw [h] at ha
    simp only [List.length_append] at ha
    omega

end Cursor

end ArithTokens
