import ArithTokens.LexError
import ArithTokens.Text.Rendition

/-!
# The log

A run leaves events behind.  An event is one line of the log: the time, its level, a message, and
named values.  Without `verbose` only warnings are kept.  In color, the time is dim, each level
has its color, and the names of values are in italics.
-/

namespace ArithTokens.Command

inductive Level
  | debug
  | info
  | warn
deriving DecidableEq

inductive Event
  /-- The input is open. -/
  | reading (origin : Text)
  /-- Ill-formed octets of a line were replaced. -/
  | replaced
  /-- A line gave `count` tokens. -/
  | tokenized (line count : Nat)
  /-- A line gave an error. -/
  | failed (line : Nat) (error : LexError)
  /-- All lines have been read. -/
  | done (failures : Nat)
deriving DecidableEq

namespace Level

/-- The name of a level, five characters wide. -/
def name : Level → Text
  | debug => "DEBUG".toList
  | info => " INFO".toList
  | warn => " WARN".toList

/-- The number that selects the color of a level. -/
def color : Level → Nat
  | debug => 34
  | info => 32
  | warn => 33

end Level

namespace Event

def level : Event → Level
  | reading _ => .info
  | replaced => .warn
  | tokenized _ _ => .debug
  | failed _ _ => .warn
  | done _ => .info

def message : Event → Text
  | reading _ => "reading expressions".toList
  | replaced => "replaced invalid UTF-8 in input".toList
  | tokenized _ _ => "tokenized".toList
  | failed _ _ => "failed to tokenize".toList
  | done _ => "done".toList

def fields : Event → List (Text × Text)
  | reading origin => [("origin".toList, origin)]
  | replaced => []
  | tokenized line count =>
    [("line".toList, Text.ofNat line), ("tokens".toList, Text.ofNat count)]
  | failed line error => [("line".toList, Text.ofNat line), ("error".toList, error.message)]
  | done failures => [("failures".toList, Text.ofNat failures)]

/-- Whether an event is kept: warnings always, the others only when the log is verbose. -/
def isKept (verbose : Bool) (e : Event) : Bool :=
  verbose || e.level = .warn

end Event

/-- A text with the given aspect, if the log is colored. -/
def paint (colored : Bool) (number : Nat) (s : Text) : Text :=
  if colored then Rendition.render [number] s else s

/-- The line of an event in the log. -/
def Event.toText (colored : Bool) (time : Text) (e : Event) : Text :=
  paint colored Rendition.dim time ++ ' ' :: paint colored e.level.color e.level.name ++
    ' ' :: e.message ++ e.fields.flatMap fun (name, value) =>
      ' ' :: paint colored Rendition.italic name ++ paint colored Rendition.dim ['='] ++ value

end ArithTokens.Command
