import ArithTokens.Text.Lines
import ArithTokens.Text.Utf8

/-!
# The lines of an input

An input is a sequence of octets.  Its lines end after a line feed; a line is read without its
line feed and without one carriage return right before it.  A carriage return anywhere else, or at
the end of an input that does not end in a line feed, belongs to the line.  The octets that are left
are decoded.

The lines are given twice: all at once as `inputLines`, and as a reader takes them, one after the
other, as `readings`.
-/

namespace ArithTokens.Command

/-! ## Lines -/

def lineFeed : UInt8 :=
  0x0a

def carriageReturn : UInt8 :=
  0x0d

/-- The octets of a line without its terminator. -/
def dropTerminator (line : List UInt8) : List UInt8 :=
  Lines.dropTerminator lineFeed carriageReturn line

/-- The lines of an input, without their terminators. -/
def inputLines (octets : List UInt8) : List (List UInt8) :=
  (Lines.cut lineFeed octets).map dropTerminator

/-! ## Line by line -/

structure Reading where
  /-- The octets of the line, without its terminator. -/
  octets : List UInt8
  text : Text
  /-- Whether there is a warning that octets were replaced. -/
  isReplaced : Bool
deriving DecidableEq

def Reading.ofOctets (octets : List UInt8) : Reading :=
  ⟨octets, Utf8.textOf octets, !Utf8.isWellFormed octets⟩

/-- Reads one line, unless the input has ended, and leaves the rest. -/
def nextLine? (input : List UInt8) : Option (Reading × List UInt8) :=
  let (line, rest) := Lines.readUntil lineFeed input
  if line.isEmpty then none else some (.ofOctets (dropTerminator line), rest)

theorem nextLine?_nil : nextLine? [] = none :=
  rfl

theorem nextLine?_of_ne_nil {input : List UInt8} (h : input ≠ []) : nextLine? input =
    some (.ofOctets (dropTerminator (Lines.readUntil lineFeed input).1),
      (Lines.readUntil lineFeed input).2) :=
  if_neg (by simpa using Lines.fst_readUntil_ne_nil lineFeed h)

theorem length_lt_of_nextLine? {input rest : List UInt8} {r : Reading}
    (h : nextLine? input = some (r, rest)) : rest.length < input.length := by
  by_cases hn : input = []
  · subst hn
    cases h
  · rw [nextLine?_of_ne_nil hn] at h
    cases h
    exact Lines.length_snd_readUntil_lt lineFeed hn

/-- The readings of an input, one after the other until there is none. -/
def readings (input : List UInt8) : List Reading :=
  match h : nextLine? input with
  | none => []
  | some (r, rest) =>
    have := length_lt_of_nextLine? h
    r :: readings rest
termination_by input.length

theorem readings_of_none {input : List UInt8} (h : nextLine? input = none) :
    readings input = [] := by
  rw [readings]
  split
  · rfl
  · next he =>
    rw [h] at he
    cases he

theorem readings_of_some {input rest : List UInt8} {r : Reading}
    (h : nextLine? input = some (r, rest)) : readings input = r :: readings rest := by
  rw [readings]
  split
  · next he =>
    rw [h] at he
    cases he
  · next he =>
    rw [h] at he
    cases he
    rfl

end ArithTokens.Command
