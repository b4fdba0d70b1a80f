import ArithTokens.Command.Input
import ArithTokens.Command.Log
import ArithTokens.Diagnostic
import ArithTokens.Tokenize

/-!
# Runs

A run reads an input line by line and writes one entry for each: the list of its tokens, or the
diagnostic of its error.  An entry depends on its line and the number of lines before it, and on
nothing else.  A run stops early in two cases: behind the first failure, if it is to fail fast,
and at a diagnostic that has no text.
-/

namespace ArithTokens.Command

/-! ## Entries -/

/-- What a run finds out about one line. -/
structure Entry where
  /-- The number of the line, counted from one. -/
  line : Nat
  /-- Whether the octets of the line are well-formed. -/
  isWellFormed : Bool
  /-- The tokens of the line, or its error. -/
  answer : Except LexError (List Token)
  /-- What is written for the line. -/
  written : Except Limit Text

namespace Entry

/-- The entry of a line that comes after `linesBefore` other lines. -/
def ofLine (origin : Text) (linesBefore : Nat) (octets : List UInt8) : Entry :=
  let text := Utf8.textOf octets
  let answer := tokenize text
  { line := linesBefore + 1
    isWellFormed := Utf8.isWellFormed octets
    answer := answer
    written :=
      match answer with
      | .ok tokens => .ok (Token.listText tokens ++ ['\n'])
      | .error e => e.diagnostic text origin linesBefore }

/-- The entries of lines that come after `linesBefore` other lines. -/
def after (origin : Text) (linesBefore : Nat) (lines : List (List UInt8)) : List Entry :=
  (lines.zipIdx linesBefore).map fun (octets, k) => ofLine origin k octets

def ofLines (origin : Text) (lines : List (List UInt8)) : List Entry :=
  after origin 0 lines

def isFailure (e : Entry) : Bool :=
  match e.answer with
  | .ok _ => false
  | .error _ => true

def events (e : Entry) : List Event :=
  (if e.isWellFormed then [] else [.replaced]) ++
    match e.answer with
    | .ok tokens => [.tokenized e.line tokens.length]
    | .error error => [.failed e.line error]

/-- Whether a run stops at this entry. -/
def stops (failFast : Bool) (e : Entry) : Bool :=
  match e.written with
  | .error _ => true
  | .ok _ => failFast && e.isFailure

/-- The text of an entry that has one. -/
def text (e : Entry) : Text :=
  match e.written with
  | .error _ => []
  | .ok s => s

end Entry

/-! ## Runs -/

inductive Ending
  /-- All lines have been read. -/
  | complete
  /-- A line has failed, and the run was to fail fast. -/
  | failedFast
  /-- A diagnostic has no text. -/
  | outOfLimit (limit : Limit)
deriving DecidableEq

structure Run where
  output : List Text
  events : List Event
  ending : Ending

namespace Run

/-- The run over entries, as far as it goes. -/
def ofEntries (failFast : Bool) (entries : List Entry) : Run :=
  let before := entries.takeWhile (!·.stops failFast)
  match entries.dropWhile (!·.stops failFast) with
  | [] =>
    { output := before.map Entry.text
      events := before.flatMap Entry.events ++ [.done (before.countP Entry.isFailure)]
      ending := .complete }
  | last :: _ =>
    match last.written with
    | .ok s =>
      { output := before.map Entry.text ++ [s]
        events := before.flatMap Entry.events ++ last.events
        ending := .failedFast }
    | .error limit =>
      { output := before.map Entry.text
        events := before.flatMap Entry.events ++ last.events
        ending := .outOfLimit limit }

def ofInput (failFast : Bool) (origin : Text) (octets : List UInt8) : Run :=
  let run := ofEntries failFast (Entry.ofLines origin (inputLines octets))
  { run with events := .reading origin :: run.events }

end Run

/-! ## Lemmas -/

namespace Entry
variable (origin : Text) (n : Nat)

theorem length_after (lines : List (List UInt8)) :
    (after origin n lines).length = lines.length := by
  unfold after
  rw [List.length_map, List.length_zipIdx]

theorem after_cons (octets : List UInt8) (more : List (List UInt8)) :
    after origin n (octets :: more) = ofLine origin n octets :: after origin (n + 1) more := rfl

/-- Lines are numbered through. -/
theorem after_append (first more : List (List UInt8)) :
    after origin n (first ++ more) =
      after origin n first ++ after origin (n + first.length) more := by
  unfold after
  rw [List.zipIdx_append, List.map_append]

end Entry

end ArithTokens.Command
