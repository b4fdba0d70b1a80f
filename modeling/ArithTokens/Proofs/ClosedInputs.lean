import ArithTokens.Proofs.DecodedLines

/-!
# Closed inputs

An input is closed if nothing can be added to its last line any more: it is empty, or it ends in a
line feed.  What follows a closed input makes lines of its own, so the lines of the whole are those
of the two parts, and a closed input has as many lines as line feeds.

    IsClosed a → inputLines (a ++ b) = inputLines a ++ inputLines b     (IsClosed.inputLines_append)
    IsClosed a → (inputLines a).length = a.count lineFeed               (IsClosed.length_inputLines)
-/

namespace ArithTokens

/-! ## Lines -/

namespace Lines

variable {α : Type} [DecidableEq α]

/-- An element in front of some lines changes the first of them only. -/
theorem attach_append (t x : α) {lines : List (List α)} (h : lines ≠ []) (more : List (List α)) :
    attach t x (lines ++ more) = attach t x lines ++ more := by
  cases lines with
  | nil => exact absurd rfl h
  | cons line lines =>
    rw [List.cons_append, attach, attach]
    split <;> rfl

theorem length_attach (t x : α) {lines : List (List α)} (h : lines ≠ []) :
    (attach t x lines).length = lines.length + if x = t then 1 else 0 := by
  cases lines with
  | nil => exact absurd rfl h
  | cons line lines =>
    rw [attach]
    split <;> rfl

theorem cut_ne_nil {t : α} {xs : List α} (h : xs ≠ []) : cut t xs ≠ [] :=
  fun hc => h ((cut_eq_nil_iff t xs).mp hc)

section
variable {t : α} {xs : List α} (h : xs.getLast? = some t)
include h

/-- Behind a terminator a new line starts. -/
theorem cut_append_of_getLast? (ys : List α) : cut t (xs ++ ys) = cut t xs ++ cut t ys := by
  induction xs with
  | nil => cases h
  | cons x xs ih =>
    by_cases hn : xs = []
    · subst hn
      cases h
      have hnil : x ∉ ([] : List α) := List.not_mem_nil
      exact cut_append_terminator hnil ys
    · have hlast : xs.getLast? = some t := by
        rwa [List.getLast?_cons_of_ne_nil hn] at h
      rw [List.cons_append, cut_cons, cut_cons, ih hlast]
      exact attach_append t x (cut_ne_nil hn) _

theorem length_cut_of_getLast? : (cut t xs).length = xs.count t := by
  induction xs with
  | nil => cases h
  | cons x xs ih =>
    by_cases hn : xs = []
    · subst hn
      cases h
      simp [cut_cons, cut_nil, attach]
    · have hlast : xs.getLast? = some t := by
        rwa [List.getLast?_cons_of_ne_nil hn] at h
      rw [cut_cons, length_attach t x (cut_ne_nil hn), ih hlast, List.count_cons]
      simp

end

end Lines

namespace Command

/-! ## Inputs -/

/-- Nothing can be added to the last line of the input. -/
def IsClosed (octets : List UInt8) : Prop :=
  octets = [] ∨ octets.getLast? = some lineFeed

instance (octets : List UInt8) : Decidable (IsClosed octets) :=
  inferInstanceAs (Decidable (_ ∨ _))

section
variable {octets : List UInt8} (h : IsClosed octets)
include h

theorem IsClosed.inputLines_append (rest : List UInt8) :
    inputLines (octets ++ rest) = inputLines octets ++ inputLines rest := by
  rcases h with rfl | h
  · rfl
  · unfold inputLines
    rw [Lines.cut_append_of_getLast? h, List.map_append]

theorem IsClosed.length_inputLines : (inputLines octets).length = octets.count lineFeed := by
  rcases h with rfl | h
  · rfl
  · unfold inputLines
    rw [List.length_map, Lines.length_cut_of_getLast? h]

end

end Command

end ArithTokens
