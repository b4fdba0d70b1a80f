import ArithTokens.Text.Basic

/-!
# Control sequences

A terminal obeys control sequences and shows the rest of a text.  A sequence starts with the
escape character; the character after it decides how far the sequence goes:

* `[` starts a command, which ends with a character from `@` to `~`;
* `P` starts a device control string: a header of parameters and intermediate characters, one more
  character, and then a string;
* `X`, `^` and `_` start a string, which ends with the octet `9c` of the text in UTF-8;
* `]` starts a title, which ends with the bell character;
* any other character ends the sequence, after intermediate characters if there are any.

Another escape character starts the next sequence, and the characters 18 and 1a (in hexadecimal)
end any sequence.  A line break or tab in a command or right after the escape character is shown;
so is what follows it, up to the next character that is never shown, where the sequence goes on.
-/

namespace ArithTokens.ControlSequence

/-! ## Algorithm -/

/-- The part of a control sequence that the next character belongs to. -/
inductive Part
  /-- Right after the escape character. -/
  | escape
  /-- After the escape character and intermediate characters. -/
  | intermediate
  /-- In a command. -/
  | command
  /-- At the start of a device control string. -/
  | device
  /-- After parameters of a device control string. -/
  | deviceParameter
  /-- After intermediate characters of a device control string. -/
  | deviceIntermediate
  /-- In a string. -/
  | string
  /-- In a title. -/
  | title
deriving DecidableEq

namespace Part

/-- Whether a character has the octet that ends a string. -/
def endsString (c : Char) : Bool :=
  (String.utf8EncodeChar c).contains 0x9c

/-- The part after one more character of the sequence; `none` if it is the last one. -/
def next (part : Part) (c : Char) : Option Part :=
  match part with
  | escape =>
    if c = '[' then some command
    else if c = ']' then some title
    else if c = 'P' then some device
    else if c = 'X' ∨ c = '^' ∨ c = '_' then some string
    else if ' ' ≤ c ∧ c ≤ '/' then some intermediate
    else if '0' ≤ c ∧ c ≤ '~' then none
    else some escape
  | intermediate => if '0' ≤ c ∧ c ≤ '~' then none else some intermediate
  | command => if '@' ≤ c ∧ c ≤ '~' then none else some command
  | device =>
    if '@' ≤ c ∧ c ≤ '~' then some string
    else if '0' ≤ c ∧ c ≤ '?' then some deviceParameter
    else if ' ' ≤ c ∧ c ≤ '/' then some deviceIntermediate
    else some device
  | deviceParameter =>
    if '<' ≤ c ∧ c ≤ '~' then some string
    else if ' ' ≤ c ∧ c ≤ '/' then some deviceIntermediate
    else some deviceParameter
  | deviceIntermediate => if '0' ≤ c ∧ c ≤ '~' then some string else some deviceIntermediate
  | string => if endsString c then none else some string
  | title => if c = '\x07' then none else some title

/-- Whether a line break or tab in this part is shown. -/
def isInterruptible : Part → Bool
  | escape => true
  | intermediate => true
  | command => true
  | _ => false

end Part

def isLayout (c : Char) : Bool :=
  c = '\t' || c = '\n' || c = '\x0c' || c = '\r'

/-- Whether a character outside of control sequences is shown. -/
def isShown (c : Char) : Bool :=
  isLayout c || (' ' ≤ c && c ≠ '\x7f')

/-- Where the next character stands. -/
inductive Mode
  /-- Outside of control sequences. -/
  | plain
  /-- In a control sequence. -/
  | inside (part : Part)
  /-- In text shown between two characters of a control sequence. -/
  | suspended (part : Part)
deriving DecidableEq

namespace Mode

/-- Whether a character is shown in this mode. -/
def isShown : Mode → Char → Bool
  | plain, c => ControlSequence.isShown c
  | inside part, c => part.isInterruptible && isLayout c
  | suspended _, c => ControlSequence.isShown c

/-- The mode after a character that is shown.  A character beyond ASCII ends a suspended
sequence. -/
def afterShown : Mode → Char → Mode
  | plain, _ => plain
  | inside part, _ => suspended part
  | suspended part, c => if c.toNat < 0x80 then suspended part else plain

/-- The mode where the part is known, if the sequence goes on. -/
def ofPart? : Option Part → Mode
  | none => plain
  | some part => inside part

/-- The mode after a character that is not shown. -/
def afterHidden (m : Mode) (c : Char) : Mode :=
  if c = '\x1b' then inside .escape
  else if c = '\x18' ∨ c = '\x1a' then plain
  else
    match m with
    | plain => plain
    | inside part => ofPart? (part.next c)
    | suspended part => ofPart? (part.next c)

end Mode

/-- What a terminal shows of a text that starts in the given mode. -/
def visibleFrom : Mode → Text → Text
  | _, [] => []
  | m, c :: s =>
    if m.isShown c then c :: visibleFrom (m.afterShown c) s else visibleFrom (m.afterHidden c) s

def visible (s : Text) : Text :=
  visibleFrom .plain s

end ArithTokens.ControlSequence
