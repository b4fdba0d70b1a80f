/-!
# Cutting a sequence into lines

A line ends right after its terminator and keeps it; what follows the last terminator is a line
of its own if it is not empty.  The elements may be characters or octets: source texts and input
streams are cut by the same function.

    xs = (cut t xs).flatten                                            (flatten_cut)
    line ∈ cut t xs → line ≠ []                                        (ne_nil_of_mem_cut)

A reader takes one line at a time, and may drop the terminator.

    xs ≠ [] → (readUntil t xs).2.length < xs.length              (length_snd_readUntil_lt)
-/

namespace ArithTokens.Lines

variable {α : Type} [DecidableEq α]

/-! ## Algorithm -/

/-- Puts one element in front of lines already cut: a terminator ends a line there, any other
element joins the first line. -/
def attach (terminator x : α) : List (List α) → List (List α)
  | [] => [[x]]
  | line :: more => if x = terminator then [x] :: line :: more else (x :: line) :: more

/-- The lines of a sequence, each with its terminator. -/
def cut (terminator : α) (xs : List α) : List (List α) :=
  xs.foldr (attach terminator) []

/-- The elements up to the first terminator and with it, and those behind it. -/
def readUntil (terminator : α) : List α → List α × List α
  | [] => ([], [])
  | x :: xs =>
    if x = terminator then ([x], xs)
    else (x :: (readUntil terminator xs).1, (readUntil terminator xs).2)

/-- A line without its terminator, and without one `before` right before the terminator. -/
def dropTerminator (terminator before : α) (line : List α) : List α :=
  if line.getLast? = some terminator then
    let body := line.dropLast
    if body.getLast? = some before then body.dropLast else body
  else line

/-! ## Lemmas -/

theorem cut_nil (t : α) : cut t [] = [] := rfl

theorem cut_cons (t x : α) (xs : List α) : cut t (x :: xs) = attach t x (cut t xs) := rfl

theorem flatten_attach (t x : α) (lines : List (List α)) :
    (attach t x lines).flatten = x :: lines.flatten := by
  cases lines with
  | nil => rfl
  | cons line more =>
    rw [attach]
    split <;> simp

/-- Cutting loses nothing. -/
theorem flatten_cut (t : α) (xs : List α) : (cut t xs).flatten = xs := by
  induction xs with
  | nil => rfl
  | cons x xs ih => rw [cut_cons, flatten_attach, ih]

/-- No line is empty. -/
theorem ne_nil_of_mem_cut (t : α) (xs : List α) : ∀ line ∈ cut t xs, line ≠ [] := by
  induction xs with
  | nil => intro line h; cases h
  | cons x xs ih =>
    rw [cut_cons]
    cases h : cut t xs with
    | nil => intro line hl; simp [attach] at hl; simp [hl]
    | cons first more =>
      rw [h] at ih
      rw [attach]
      split
      · intro line hl
        rcases List.mem_cons.mp hl with rfl | hl
        · simp
        · exact ih line hl
      · intro line hl
        rcases List.mem_cons.mp hl with rfl | hl
        · simp
        · exact ih line (List.mem_cons_of_mem _ hl)

theorem fst_readUntil_ne_nil (t : α) {xs : List α} (h : xs ≠ []) : (readUntil t xs).1 ≠ [] := by
  cases xs with
  | nil => exact absurd rfl h
  | cons x xs =>
    rw [readUntil]
    split
    · exact List.cons_ne_nil _ _
    · exact List.cons_ne_nil _ _

/-- Reading leaves less. -/
theorem length_snd_readUntil_lt (t : α) {xs : List α} (h : xs ≠ []) :
    (readUntil t xs).2.length < xs.length := by
  induction xs with
  | nil => exact absurd rfl h
  | cons x xs ih =>
    rw [readUntil]
    split
    · exact Nat.lt_succ_self _
    by_cases hn : xs = []
    · subst hn
      exact Nat.zero_lt_one
    · exact Nat.lt_trans (ih hn) (Nat.lt_succ_self _)

theorem dropTerminator_concat {t before : α} (body : List α) :
    dropTerminator t before (body ++ [t]) =
      if body.getLast? = some before then body.dropLast else body := by
  unfold dropTerminator
  rw [List.getLast?_concat, if_pos rfl, List.dropLast_concat]

theorem dropTerminator_of_notMem {t before : α} {line : List α} (h : t ∉ line) :
    dropTerminator t before line = line :=
  if_neg fun hl => h (List.mem_of_getLast? hl)

theorem cut_eq_nil_iff (t : α) (xs : List α) : cut t xs = [] ↔ xs = [] := by
  constructor
  · intro h
    rw [← flatten_cut t xs, h, List.flatten_nil]
  · rintro rfl
    rfl

end ArithTokens.Lines
