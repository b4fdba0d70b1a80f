import ArithTokens.Command.Log

/-!
# Lines of the log

What a line of the log says, in words: the name of its level, a message, and values with their
names.  The line of each event is given in full, with the time in front; in a log without color it
is plain text.

    2026-01-01T00:00:00Z DEBUG tokenized line=1 tokens=2
    2026-01-01T00:00:00Z  WARN failed to tokenize line=2 error=unexpected character: '$' at position 1
    2026-01-01T00:00:00Z  INFO done failures=1

    e.toText colored time = e.logLine.toText colored time                          (toText_eq)
-/

namespace ArithTokens.Command

/-! ## Definitions -/

def Level.word : Level → String
  | debug => "DEBUG"
  | info => "INFO"
  | warn => "WARN"

/-- The mark of a level in color: blue, green or yellow. -/
def Level.mark : Level → String
  | debug => "34"
  | info => "32"
  | warn => "33"

/-- What a line of the log says behind its time. -/
structure LogLine where
  level : Level
  message : String
  /-- The values that it names, in their order. -/
  values : List (String × Text)
deriving DecidableEq

namespace LogLine

def reading (origin : Text) : LogLine :=
  ⟨.info, "reading expressions", [("origin", origin)]⟩

def replaced : LogLine :=
  ⟨.warn, "replaced invalid UTF-8 in input", []⟩

def tokenized (line count : Nat) : LogLine :=
  ⟨.debug, "tokenized", [("line", Text.ofNat line), ("tokens", Text.ofNat count)]⟩

def failed (line : Nat) (error : Text) : LogLine :=
  ⟨.warn, "failed to tokenize", [("line", Text.ofNat line), ("error", error)]⟩

def done (failures : Nat) : LogLine :=
  ⟨.info, "done", [("failures", Text.ofNat failures)]⟩

/-- A part of a line.  In color a mark stands before it, and the mark of plain text behind it. -/
def part (colored : Bool) (mark : String) (s : Text) : Text :=
  if colored then "\x1b[".toList ++ mark.toList ++ ['m'] ++ s ++ "\x1b[0m".toList else s

/-- The line as it is written; the words of levels are five characters wide. -/
def toText (colored : Bool) (time : Text) (l : LogLine) : Text :=
  part colored "2" time ++
    ' ' :: part colored l.level.mark (Text.alignRight ' ' 5 l.level.word.toList) ++
    ' ' :: l.message.toList ++ l.values.flatMap fun (name, value) =>
      ' ' :: part colored "3" name.toList ++ part colored "2" ['='] ++ value

end LogLine

/-- What the line of an event says. -/
def Event.logLine : Event → LogLine
  | reading origin => .reading origin
  | replaced => .replaced
  | tokenized line count => .tokenized line count
  | failed line error => .failed line error.message
  | done failures => .done failures

/-! ## Lemmas -/

theorem LogLine.tokenized_ne_failed {line m count : Nat} {error : Text} :
    tokenized line count ≠ failed m error :=
  fun h => nomatch congrArg level h

theorem LogLine.tokenized_inj {line m count k : Nat} (h : tokenized line count = tokenized m k) :
    count = k := by
  have hvalues := congrArg values h
  simp only [tokenized, List.cons.injEq, Prod.mk.injEq, true_and, and_true] at hvalues
  exact Text.ofNat_inj hvalues.2

theorem Level.name_eq (l : Level) : l.name = Text.alignRight ' ' 5 l.word.toList := by
  cases l <;> decide

theorem paint_eq_part (colored : Bool) (number : Nat) (s : Text) :
    paint colored number s = LogLine.part colored (String.ofList (Text.ofNat number)) s := by
  unfold paint LogLine.part
  cases colored with
  | false => rfl
  | true => simp [Rendition.render, Rendition.select, Text.ofNat]

theorem Level.mark_eq (l : Level) : l.mark = String.ofList (Text.ofNat l.color) := by
  cases l <;> decide

namespace Event

theorem level_logLine (e : Event) : e.logLine.level = e.level := by
  cases e <;> rfl

theorem message_logLine (e : Event) : e.logLine.message.toList = e.message := by
  cases e <;> rfl

theorem fields_eq (e : Event) :
    e.fields = e.logLine.values.map fun (name, value) => (name.toList, value) := by
  cases e <;> rfl

/-- The line of an event is written in full. -/
theorem toText_eq (colored : Bool) (time : Text) (e : Event) :
    e.toText colored time = e.logLine.toText colored time := by
  have hdim : String.ofList (Text.ofNat Rendition.dim) = "2" := by decide
  have hitalic : String.ofList (Text.ofNat Rendition.italic) = "3" := by decide
  unfold toText LogLine.toText
  rw [fields_eq, List.flatMap_map, message_logLine, level_logLine, Level.name_eq, Level.mark_eq]
  simp only [paint_eq_part, hdim, hitalic]

end Event

example : (Event.tokenized 1 2).toText false "now".toList =
    "now DEBUG tokenized line=1 tokens=2".toList := by
  decide

end ArithTokens.Command
