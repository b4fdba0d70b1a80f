import ArithTokens.Command.Response
import ArithTokens.Proofs.LineReading

/-!
# Line ends

A line may end in a line feed, or in a carriage return and a line feed, and the last line of an
input need not end at all.  Reading a line takes its end away with it, whole and once: nothing of
the end is left in the line or in front of the next one.  So inputs that differ in the ends of their
lines only are read alike, and have the same response.

    nextLine? (line ++ end ++ rest) = the reading of line, and rest              (nextLine?_append)
    the input is lines with ends → inputLines input = lines                   (IsEnded.inputLines)
    a and b are the same lines with ends → these lines are read, and the
      responses are the same                                               (response_eq_of_isEnded)

The lines must be plain.  If a line itself ended in a carriage return, that would be taken for a
part of the line end where only a line feed follows.
-/

namespace ArithTokens

/-! ## Definitions -/

namespace Command

/-- What may stand behind a line. -/
inductive LineEnd
  /-- A line feed. -/
  | single
  /-- A carriage return and a line feed. -/
  | double

def LineEnd.octets : LineEnd → List UInt8
  | single => [lineFeed]
  | double => [carriageReturn, lineFeed]

/-- There is no line feed in the line, and no carriage return at its end. -/
def IsPlain (line : List UInt8) : Prop :=
  lineFeed ∉ line ∧ line.getLast? ≠ some carriageReturn

instance (line : List UInt8) : Decidable (IsPlain line) :=
  inferInstanceAs (Decidable (_ ∧ _))

/-- The input is these lines.  Behind each stands one of the line ends, or nothing behind the last
one, which then is not empty. -/
inductive IsEnded : List (List UInt8) → List UInt8 → Prop
  | nil : IsEnded [] []
  | last {line : List UInt8} : line ≠ [] → IsEnded [line] line
  | cons {line : List UInt8} {lines : List (List UInt8)} {rest : List UInt8} (e : LineEnd) :
      IsEnded lines rest → IsEnded (line :: lines) (line ++ e.octets ++ rest)

end Command

/-! ## Reading up to a terminator -/

namespace Lines

variable {α : Type} [DecidableEq α] {t : α} {front : List α} (h : t ∉ front)
include h

theorem readUntil_append (rest : List α) :
    readUntil t (front ++ t :: rest) = (front ++ [t], rest) := by
  induction front with
  | nil => exact if_pos rfl
  | cons x front ih =>
    rw [List.mem_cons, not_or] at h
    rw [List.cons_append, readUntil, if_neg (Ne.symm h.1), ih h.2]
    rfl

theorem readUntil_of_notMem : readUntil t front = (front, []) := by
  induction front with
  | nil => rfl
  | cons x front ih =>
    rw [List.mem_cons, not_or] at h
    rw [readUntil, if_neg (Ne.symm h.1), ih h.2]

end Lines

namespace Command

/-! ## Reading a line -/

section
variable {line : List UInt8} (h : IsPlain line)
include h

/-- A plain line with its end is read up to the line feed, and the end is dropped. -/
theorem IsPlain.exists_concat (e : LineEnd) :
    ∃ body, line ++ e.octets = body ++ [lineFeed] ∧ lineFeed ∉ body ∧
      dropTerminator (body ++ [lineFeed]) = line := by
  obtain ⟨hfeed, hreturn⟩ := h
  have hdrop (body : List UInt8) : dropTerminator (body ++ [lineFeed]) =
      if body.getLast? = some carriageReturn then body.dropLast else body :=
    Lines.dropTerminator_concat body
  cases e with
  | single =>
    refine ⟨line, rfl, hfeed, ?_⟩
    rw [hdrop, if_neg hreturn]
  | double =>
    refine ⟨line ++ [carriageReturn], List.append_cons line _ _, ?_, ?_⟩
    · rw [List.mem_append, not_or]
      exact ⟨hfeed, by decide⟩
    · -- no second carriage return is dropped, so nothing need be known of the end of `line`
      rw [hdrop, List.getLast?_concat, if_pos rfl, List.dropLast_concat]

/-- Reading a line leaves what stands behind its end. -/
theorem nextLine?_append (e : LineEnd) (rest : List UInt8) :
    nextLine? (line ++ e.octets ++ rest) = some (.ofOctets line, rest) := by
  obtain ⟨body, he, hbody, hdrop⟩ := h.exists_concat e
  have hne : body ++ lineFeed :: rest ≠ [] := by simp
  rw [he, List.append_assoc, List.singleton_append, nextLine?_of_ne_nil hne,
    Lines.readUntil_append hbody, hdrop]

/-- A line without an end is read to the end of the input. -/
theorem nextLine?_of_isPlain (hne : line ≠ []) : nextLine? line = some (.ofOctets line, []) := by
  have hdrop : dropTerminator line = line := Lines.dropTerminator_of_notMem h.1
  rw [nextLine?_of_ne_nil hne, Lines.readUntil_of_notMem h.1, hdrop]

end

/-! ## Reading an input -/

section
variable {lines : List (List UInt8)} (h : ∀ line ∈ lines, IsPlain line) {input : List UInt8}
  (hi : IsEnded lines input)
include h hi

theorem IsEnded.readings : readings input = lines.map Reading.ofOctets := by
  induction hi with
  | nil => exact readings_of_none nextLine?_nil
  | last hne =>
    have hline := List.forall_mem_singleton.mp h
    rw [readings_of_some (nextLine?_of_isPlain hline hne), readings_of_none nextLine?_nil]
    rfl
  | cons e _ ih =>
    obtain ⟨hline, hlines⟩ := List.forall_mem_cons.mp h
    rw [readings_of_some (nextLine?_append hline e _), ih hlines]
    rfl

/-- The lines of the input are these lines. -/
theorem IsEnded.inputLines : inputLines input = lines := by
  have hoctets : ∀ lines : List (List UInt8),
      (lines.map Reading.ofOctets).map Reading.octets = lines := by
    intro lines
    rw [List.map_map]
    exact List.map_id lines
  have hread := IsEnded.readings h hi
  rw [readings_eq] at hread
  rw [← hoctets (Command.inputLines input), hread, hoctets]

end

/-! ## Top theorem -/

/-- **The line ends of an input do not matter**: the lines are read without them, and the response
is the same for all. -/
theorem response_eq_of_isEnded {lines : List (List UInt8)} (h : ∀ line ∈ lines, IsPlain line)
    {a b : List UInt8} (ha : IsEnded lines a) (hb : IsEnded lines b) (settings : Settings) :
    readings a = lines.map Reading.ofOctets ∧
      (Response.ofOpened settings (.octets a)).output =
        (Response.ofOpened settings (.octets b)).output ∧
      (∀ time, (Response.ofOpened settings (.octets a)).logText time =
        (Response.ofOpened settings (.octets b)).logText time) ∧
      (Response.ofOpened settings (.octets a)).exitStatus =
        (Response.ofOpened settings (.octets b)).exitStatus := by
  have hrun : Run.ofInput settings.failFast settings.origin a =
      Run.ofInput settings.failFast settings.origin b := by
    unfold Run.ofInput
    rw [IsEnded.inputLines h ha, IsEnded.inputLines h hb]
  have hresponse : Response.ofOpened settings (.octets a) =
      Response.ofOpened settings (.octets b) :=
    congrArg (Response.ofRun settings) hrun
  rw [hresponse]
  exact ⟨IsEnded.readings h ha, rfl, fun _ => rfl, rfl⟩

/-- A carriage return inside a line, an ill-formed line, an empty one, and one that may be open. -/
theorem response_eq_open_line :
    (∀ line ∈ [[0x31, 0x0d, 0x2b], [0xff], [], [0x20, 0x24]], IsPlain line) ∧
      IsEnded [[0x31, 0x0d, 0x2b], [0xff], [], [0x20, 0x24]]
        [0x31, 0x0d, 0x2b, 0x0d, 0x0a, 0xff, 0x0a, 0x0d, 0x0a, 0x20, 0x24] ∧
      IsEnded [[0x31, 0x0d, 0x2b], [0xff], [], [0x20, 0x24]]
        [0x31, 0x0d, 0x2b, 0x0a, 0xff, 0x0d, 0x0a, 0x0a, 0x20, 0x24, 0x0d, 0x0a] ∧
      ∀ settings,
        (Response.ofOpened settings
            (.octets [0x31, 0x0d, 0x2b, 0x0d, 0x0a, 0xff, 0x0a, 0x0d, 0x0a, 0x20, 0x24])).output =
          (Response.ofOpened settings
            (.octets [0x31, 0x0d, 0x2b, 0x0a, 0xff, 0x0d, 0x0a, 0x0a, 0x20, 0x24, 0x0d,
              0x0a])).output := by
  have h : ∀ line ∈ [[0x31, 0x0d, 0x2b], [0xff], [], [0x20, 0x24]], IsPlain line := by decide
  have ha : IsEnded [[0x31, 0x0d, 0x2b], [0xff], [], [0x20, 0x24]]
      [0x31, 0x0d, 0x2b, 0x0d, 0x0a, 0xff, 0x0a, 0x0d, 0x0a, 0x20, 0x24] :=
    .cons .double (.cons .single (.cons .double (.last (by decide))))
  have hb : IsEnded [[0x31, 0x0d, 0x2b], [0xff], [], [0x20, 0x24]]
      [0x31, 0x0d, 0x2b, 0x0a, 0xff, 0x0d, 0x0a, 0x0a, 0x20, 0x24, 0x0d, 0x0a] :=
    .cons .single (.cons .double (.cons .single (.cons .double .nil)))
  exact ⟨h, ha, hb, fun settings => (response_eq_of_isEnded h ha hb settings).2.1⟩

-- a line that is not plain is read in two ways
example : inputLines ([0x31, 0x0d] ++ LineEnd.single.octets) = [[0x31]] ∧
    inputLines ([0x31, 0x0d] ++ LineEnd.double.octets) = [[0x31, 0x0d]] := by
  decide

end Command

end ArithTokens
