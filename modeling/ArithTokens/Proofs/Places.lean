import ArithTokens.Diagnostic

/-!
# Places in texts made of lines

A text without line feeds is one line.  Behind a line and its line feed the places are those of the
rest, one line further down, and in the line they are what they would be without a rest.  A
diagnostic shows a line the same way whether or not its line feed is there.

    l has no line feed, p ≤ l.length → find? (l ++ '\n' :: rest) p is in line 1          (find?_first)
    rest ≠ [] → find? (l ++ '\n' :: rest) (l.length + 1 + p) is below find? rest p       (find?_next)
-/

namespace ArithTokens

/-! ## Lines -/

namespace Lines

variable {α : Type} [DecidableEq α]

theorem cut_append_terminator {t : α} {line : List α} (h : t ∉ line) (rest : List α) :
    cut t (line ++ t :: rest) = (line ++ [t]) :: cut t rest := by
  induction line with
  | nil =>
    show attach t t (cut t rest) = [t] :: cut t rest
    cases cut t rest with
    | nil => rfl
    | cons line more => exact if_pos rfl
  | cons x line ih =>
    rw [List.mem_cons, not_or] at h
    obtain ⟨hx, hline⟩ := h
    rw [List.cons_append, cut_cons, ih hline]
    exact if_neg (Ne.symm hx)

theorem cut_of_notMem {t : α} {line : List α} (h : t ∉ line) (hn : line ≠ []) :
    cut t line = [line] := by
  induction line with
  | nil => exact absurd rfl hn
  | cons x line ih =>
    rw [List.mem_cons, not_or] at h
    obtain ⟨hx, hline⟩ := h
    rw [cut_cons]
    by_cases hl : line = []
    · subst hl
      rfl
    · rw [ih hline hl]
      exact if_neg (Ne.symm hx)

end Lines

/-! ## Places -/

namespace Place

/-- The place `n` lines further down. -/
def below (n : Nat) (place : Place) : Place :=
  ⟨place.line + n, place.text, place.column⟩

/-- Lines are numbered one after the other from any number on. -/
theorem among?_add (line n position : Nat) (lines : List Text) :
    among? (line + n) position lines = (among? line position lines).map (below n) := by
  induction lines generalizing line position with
  | nil => rfl
  | cons text more ih =>
    unfold among?
    by_cases hp : position < text.length
    · simp only [if_pos hp]
      rfl
    · simp only [if_neg hp]
      by_cases hm : more.isEmpty = true
      · simp only [if_pos hm]
        split <;> rfl
      · simp only [if_neg hm]
        rw [show line + n + 1 = line + 1 + n by omega]
        exact ih (line + 1) (position - text.length)

section
variable {line : Text} (h : '\n' ∉ line)
include h

theorem linesOf_line : linesOf line = [line] := by
  unfold linesOf
  by_cases hn : line = []
  · subst hn
    rfl
  · rw [if_neg (by simpa using hn), Lines.cut_of_notMem h hn]

theorem find?_line {p : Nat} (hp : p ≤ line.length) : find? line p = some ⟨1, line, p⟩ := by
  unfold find?
  rw [linesOf_line h, among?]
  by_cases hlt : p < line.length
  · rw [if_pos hlt]
  · have he : p = line.length := by omega
    rw [if_neg hlt, if_pos List.isEmpty_nil, if_pos he]

theorem linesOf_append (rest : Text) :
    linesOf (line ++ '\n' :: rest) = (line ++ ['\n']) :: Lines.cut '\n' rest := by
  unfold linesOf
  rw [if_neg (by simp), Lines.cut_append_terminator h]

theorem find?_first {p : Nat} (hp : p ≤ line.length) (rest : Text) :
    find? (line ++ '\n' :: rest) p = some ⟨1, line ++ ['\n'], p⟩ := by
  unfold find?
  rw [linesOf_append h, among?, if_pos]
  rw [List.length_append, List.length_singleton]
  omega

theorem find?_next {rest : Text} (hr : rest ≠ []) (p : Nat) :
    find? (line ++ '\n' :: rest) (line.length + 1 + p) = (find? rest p).map (below 1) := by
  have hc : ¬(Lines.cut '\n' rest).isEmpty = true := by
    rw [List.isEmpty_iff, Lines.cut_eq_nil_iff]
    exact hr
  have hl : linesOf rest = Lines.cut '\n' rest := if_neg (by simpa using hr)
  have hlen : (line ++ ['\n']).length = line.length + 1 := by simp
  unfold find?
  rw [linesOf_append h, among?, if_neg (by omega), if_neg hc, hl, hlen, Nat.add_sub_cancel_left]
  exact among?_add 1 1 p _

end

/-- A line of a text with all its lines before it. -/
theorem find?_ofLines_append {before : List Text} (hb : ∀ l ∈ before, '\n' ∉ l) {rest : Text}
    (hr : rest ≠ []) (p : Nat) :
    find? (Text.ofLines before ++ rest) ((Text.ofLines before).length + p) =
      (find? rest p).map (below before.length) := by
  induction before with
  | nil =>
    show find? rest (0 + p) = (find? rest p).map (below 0)
    rw [Nat.zero_add]
    cases find? rest p <;> rfl
  | cons l before ih =>
    obtain ⟨hl, hbefore⟩ := List.forall_mem_cons.mp hb
    have he : Text.ofLines (l :: before) ++ rest = l ++ '\n' :: (Text.ofLines before ++ rest) := by
      simp [Text.ofLines]
    have hlen : (Text.ofLines (l :: before)).length + p =
        l.length + 1 + ((Text.ofLines before).length + p) := by
      simp [Text.ofLines]
      omega
    have hne : Text.ofLines before ++ rest ≠ [] := by simp [hr]
    rw [he, hlen, find?_next hl hne, ih hbefore, Option.map_map]
    rfl

end Place

/-! ## Lines in diagnostics -/

namespace Diagnostic

/-- A line feed is no space, so it ends the indentation. -/
theorem indentation_append_lineFeed (line : Text) :
    indentation (line ++ ['\n']) = indentation line := by
  unfold indentation
  rw [List.takeWhile_append]
  split
  · rw [List.takeWhile_cons_of_neg (by decide), List.append_nil]
    next h => rw [h]
  · rfl

theorem indentation_le (line : Text) : indentation line ≤ line.length :=
  (List.takeWhile_prefix _).length_le

/-- A line feed at the end is white space, so it is not shown. -/
theorem shown_append_lineFeed (line : Text) : shown (line ++ ['\n']) = shown line := by
  unfold shown WhiteSpace.trimEnd Text.dropTrailing
  rw [indentation_append_lineFeed, List.drop_append_of_le_length (indentation_le line),
    List.reverse_append, List.reverse_singleton, List.singleton_append,
    List.dropWhile_cons_of_pos (by decide)]

end Diagnostic

/-- Two places that show the same line, in the same column and under the same number, have the same
diagnostics. -/
theorem LexError.diagnostic_congr {e e' : LexError} {s s' : Text} {n n' k k' column : Nat}
    {line text text' : Text} (hc : e.cause = e'.cause)
    (h : Place.find? s e.position = some ⟨n, text, column⟩)
    (h' : Place.find? s' e'.position = some ⟨n', text', column⟩)
    (ht : text = line ∨ text = line ++ ['\n']) (ht' : text' = line ∨ text' = line ++ ['\n'])
    (hn : n + k = n' + k') (origin : Text) :
    e.diagnostic s origin k = e'.diagnostic s' origin k' := by
  have hi : Diagnostic.indentation text = Diagnostic.indentation text' := by
    rcases ht with rfl | rfl <;> rcases ht' with rfl | rfl <;>
      simp only [Diagnostic.indentation_append_lineFeed]
  have hs : Diagnostic.shown text = Diagnostic.shown text' := by
    rcases ht with rfl | rfl <;> rcases ht' with rfl | rfl <;>
      simp only [Diagnostic.shown_append_lineFeed]
  unfold diagnostic
  rw [h, h']
  simp only [Diagnostic.caretColumn, Diagnostic.excerpt, hi, hs, hn, hc]
  rfl

end ArithTokens
