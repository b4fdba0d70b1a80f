/-!
# Sets of code points as ascending ranges

A character class of the Unicode standard is written as a list of ranges `(low, high)`, both ends
included, in ascending order.  Membership reads the list from the front and stops at the first
range that starts above the code point.

    Ascending ranges →
      (contains ranges n = true ↔ ∃ r ∈ ranges, r.1 ≤ n ∧ n ≤ r.2)     (contains_iff)
-/

namespace ArithTokens.Ranges

/-- Whether a code point lies in one of the ascending ranges. -/
def contains : List (Nat × Nat) → Nat → Bool
  | [], _ => false
  | (low, high) :: more, n => low ≤ n && (n ≤ high || contains more n)

/-- Each range is well ordered and starts above the end of the range before it. -/
def Ascending : List (Nat × Nat) → Prop
  | [] => True
  | [r] => r.1 ≤ r.2
  | r :: s :: more => r.1 ≤ r.2 ∧ r.2 < s.1 ∧ Ascending (s :: more)

instance decidableAscending : (ranges : List (Nat × Nat)) → Decidable (Ascending ranges)
  | [] => isTrue trivial
  | [r] => inferInstanceAs (Decidable (r.1 ≤ r.2))
  | r :: s :: more =>
    have := decidableAscending (s :: more)
    inferInstanceAs (Decidable (r.1 ≤ r.2 ∧ r.2 < s.1 ∧ Ascending (s :: more)))

/-! ## Lemmas -/

theorem Ascending.tail {r : Nat × Nat} {more : List (Nat × Nat)} (h : Ascending (r :: more)) :
    Ascending more := by
  cases more with
  | nil => trivial
  | cons s more => exact h.2.2

/-- The start of the first range is the least member. -/
theorem Ascending.le_of_mem {r : Nat × Nat} {more : List (Nat × Nat)} (h : Ascending (r :: more)) :
    ∀ s ∈ r :: more, r.1 ≤ s.1 := by
  induction more generalizing r with
  | nil =>
    intro s hs
    obtain rfl := List.mem_singleton.mp hs
    exact Nat.le_refl _
  | cons q more ih =>
    intro s hs
    rcases List.mem_cons.mp hs with rfl | hs
    · exact Nat.le_refl _
    · have h1 : r.1 ≤ r.2 := h.1
      have h2 : r.2 < q.1 := h.2.1
      have h3 := ih h.tail s hs
      omega

/-- Reading from the front misses no range of an ascending list. -/
theorem contains_iff {ranges : List (Nat × Nat)} (h : Ascending ranges) (n : Nat) :
    contains ranges n = true ↔ ∃ r ∈ ranges, r.1 ≤ n ∧ n ≤ r.2 := by
  induction ranges with
  | nil => simp [contains]
  | cons r more ih =>
    have hle := h.le_of_mem
    rw [contains, Bool.and_eq_true, Bool.or_eq_true, decide_eq_true_eq, decide_eq_true_eq,
      ih h.tail]
    constructor
    · rintro ⟨hl, hr | ⟨s, hs, hsn⟩⟩
      · exact ⟨r, List.mem_cons_self, hl, hr⟩
      · exact ⟨s, List.mem_cons_of_mem _ hs, hsn⟩
    · rintro ⟨s, hs, hl, hr⟩
      have := hle s hs
      refine ⟨by omega, ?_⟩
      rcases List.mem_cons.mp hs with rfl | hs
      · exact Or.inl hr
      · exact Or.inr ⟨s, hs, hl, hr⟩

end ArithTokens.Ranges
