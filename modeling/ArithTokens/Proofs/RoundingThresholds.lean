import ArithTokens.Proofs.Rounding
import Mathlib.Order.Monotone.Basic
import Mathlib.Tactic.Ring

/-!
# Thresholds of rounding

A magnitude is passed by rounding where the number lies above the middle between it and the next
one; at the middle an odd magnitude is passed, and an even one is not.  The magnitudes of one shift
are a grid, and the number is rounded on the grid of its own shift.  The grids of lesser shifts lie
below the number, and a carry lands on the first point of the next one.

    j < roundHalfEven n d ↔ j + 1/2 < n / d, or = and j is odd              (lt_roundHalfEven_iff)
    k < nearest n d ↔ (units k + units (k + 1)) / 2 < n / d, or = and k is odd    (lt_nearest_iff)
-/

namespace ArithTokens.Binary64

/-! ## To a whole number -/

/-- Rounding passes a whole number where the middle above it is passed, or met by an odd one. -/
theorem lt_roundHalfEven_iff {d : Nat} (hd : 0 < d) (n j : Nat) : j < roundHalfEven n d ↔
    (2 * j + 1) * d < 2 * n ∨ ((2 * j + 1) * d = 2 * n ∧ j % 2 = 1) := by
  have hn : n / d * d + n % d = n := Nat.div_add_mod' n d
  have hr : n % d < d := Nat.mod_lt n hd
  unfold roundHalfEven
  simp only
  generalize n / d = q at hn ⊢
  generalize n % d = r at hn hr ⊢
  have hmiddle : (2 * j + 1) * d = 2 * (j * d) + d := by ring
  rw [hmiddle]
  rcases Nat.lt_trichotomy j q with hlt | rfl | hgt
  · have hmul : (j + 1) * d ≤ q * d := Nat.mul_le_mul_right d hlt
    rw [Nat.add_mul] at hmul
    split <;> omega
  · split <;> omega
  · have hmul : (q + 1) * d ≤ j * d := Nat.mul_le_mul_right d hgt
    rw [Nat.add_mul] at hmul
    split <;> omega

theorem le_roundHalfEven {a n d : Nat} (hd : 0 < d) (h : a * d ≤ n) : a ≤ roundHalfEven n d := by
  have hq : a ≤ n / d := (Nat.le_div_iff_mul_le hd).mpr h
  unfold roundHalfEven
  simp only
  split <;> omega

theorem roundHalfEven_le {a n d : Nat} (hd : 0 < d) (h : n < a * d) : roundHalfEven n d ≤ a := by
  have hq : n / d < a := (Nat.div_lt_iff_lt_mul hd).mpr h
  unfold roundHalfEven
  simp only
  split <;> omega

/-! ## Units -/

/-- A significand with or without its hidden bit, or one past the last, counts units of its
shift. -/
theorem units_shifted {s j : Nat} (hj : j ≤ 2 * hiddenBit) (h : s = 0 ∨ hiddenBit ≤ j) :
    units (s * hiddenBit + j) = j * Nat.pow 2 s := by
  by_cases hlow : j < hiddenBit
  · obtain rfl : s = 0 := h.resolve_right (Nat.not_le_of_lt hlow)
    rw [Nat.zero_mul, Nat.zero_add, units_of_lt hlow]
    exact (Nat.mul_one j).symm
  · have hle : hiddenBit ≤ s * hiddenBit + j := by omega
    have hpos : 0 < hiddenBit := by decide
    obtain ⟨i, rfl⟩ : ∃ i, j = hiddenBit + i := ⟨j - hiddenBit, by omega⟩
    have hsplit : s * hiddenBit + (hiddenBit + i) = i + (s + 1) * hiddenBit := by ring
    rw [units, significand, if_neg (Nat.not_lt_of_le hle), shift, hsplit,
      Nat.add_mul_div_right _ _ hpos, Nat.add_mul_mod_self_right]
    by_cases hi : i < hiddenBit
    · rw [Nat.mod_eq_of_lt hi, Nat.div_eq_of_lt hi, Nat.zero_add, Nat.add_sub_cancel]
    · -- the carry lands on the next shift
      obtain rfl : i = hiddenBit := by omega
      rw [Nat.mod_self, Nat.div_self hpos, Nat.add_zero, Nat.add_sub_assoc (by omega)]
      show hiddenBit * Nat.pow 2 (1 + s) = _
      rw [Nat.add_comm, show Nat.pow 2 (s + 1) = Nat.pow 2 s * 2 from rfl]
      ring

theorem shift_eq_zero_or (m : Nat) : shift m = 0 ∨ hiddenBit ≤ significand m := by
  by_cases h : m < hiddenBit
  · left
    rw [shift, Nat.div_eq_of_lt h]
  · right
    rw [significand, if_neg h]
    exact Nat.le_add_right hiddenBit _

theorem units_succ (m : Nat) : units (m + 1) = (significand m + 1) * Nat.pow 2 (shift m) := by
  have hlt := significand_lt m
  have h := shift_mul_add_significand m
  have hs : shift m = 0 ∨ hiddenBit ≤ significand m + 1 :=
    (shift_eq_zero_or m).imp_right Nat.le_succ_of_le
  rw [← units_shifted (show significand m + 1 ≤ _ from hlt) hs, ← Nat.add_assoc, h]

theorem strictMono_units : StrictMono units := by
  apply strictMono_nat_of_lt_succ
  intro m
  have hpow : 0 < Nat.pow 2 (shift m) := Nat.pow_pos (by decide)
  rw [units_succ, units]
  exact Nat.mul_lt_mul_of_pos_right (Nat.lt_succ_self _) hpow

/-- The middle above a magnitude lies below each number that a later one does not exceed. -/
theorem middle_lt {n d k m : Nat} (hd : 0 < d) (h : k < m) (hm : units m * d ≤ n) :
    (units k + units (k + 1)) * d < 2 * n := by
  have hstep : units k < units (k + 1) := strictMono_units (Nat.lt_succ_self k)
  have hle : units (k + 1) ≤ units m := strictMono_units.monotone h
  calc (units k + units (k + 1)) * d
      < 2 * units m * d := Nat.mul_lt_mul_of_pos_right (by omega) hd
    _ = 2 * (units m * d) := Nat.mul_assoc 2 _ d
    _ ≤ 2 * n := Nat.mul_le_mul_left 2 hm

theorem lt_middle {n d k m : Nat} (h : m ≤ k) (hm : n < units m * d) :
    2 * n < (units k + units (k + 1)) * d := by
  have hstep : units k < units (k + 1) := strictMono_units (Nat.lt_succ_self k)
  have hle : units m ≤ units k := strictMono_units.monotone h
  calc 2 * n < 2 * (units m * d) := by omega
    _ = 2 * units m * d := (Nat.mul_assoc 2 _ d).symm
    _ ≤ (units k + units (k + 1)) * d := Nat.mul_le_mul_right d (by omega)

/-! ## To a magnitude -/

section
variable {n d : Nat} (hd : 0 < d)
include hd

/-- The shift at which a fraction is rounded leaves 53 binary digits of it, or is the least one. -/
theorem shift_bounds {s : Nat} (hs : Nat.log2 (n / d) - 52 = s) :
    (s = 0 ∨ hiddenBit * (d * Nat.pow 2 s) ≤ n) ∧ n < 2 * hiddenBit * (d * Nat.pow 2 s) := by
  have hpow : ∀ k, hiddenBit * Nat.pow 2 k = Nat.pow 2 (52 + k) := by
    intro k
    exact (Nat.pow_add 2 52 k).symm
  have hdouble : 2 * hiddenBit * (d * Nat.pow 2 s) = Nat.pow 2 (52 + s + 1) * d := by
    show _ = Nat.pow 2 (52 + s) * 2 * d
    rw [← hpow s]
    ring
  have hswap : hiddenBit * (d * Nat.pow 2 s) = Nat.pow 2 (52 + s) * d := by
    rw [← hpow s]
    ring
  rw [hdouble, hswap, ← Nat.div_lt_iff_lt_mul hd, ← Nat.le_div_iff_mul_le hd]
  by_cases hz : n / d = 0
  · rw [hz] at hs ⊢
    exact ⟨Or.inl hs.symm, Nat.pow_pos (by decide)⟩
  · obtain ⟨hlow, hhigh⟩ := (Nat.log2_eq_iff hz).mp rfl
    constructor
    · by_cases hzero : s = 0
      · exact Or.inl hzero
      · have he : Nat.log2 (n / d) = 52 + s := by omega
        rw [he] at hlow
        exact Or.inr hlow
    · have hle : Nat.log2 (n / d) + 1 ≤ 52 + s + 1 := by omega
      exact Nat.lt_of_lt_of_le hhigh (Nat.pow_le_pow_right (by decide) hle)

/-- Rounding passes a finite magnitude where the middle between it and the next one is passed, or
met by an odd one. -/
theorem lt_nearest_iff {k : Nat} (hk : k < infinity) : k < nearest n d ↔
    (units k + units (k + 1)) * d < 2 * n ∨
      ((units k + units (k + 1)) * d = 2 * n ∧ k % 2 = 1) := by
  unfold nearest
  simp only [Nat.lt_min, hk, true_and]
  obtain ⟨s, hs⟩ : ∃ s, Nat.log2 (n / d) - 52 = s := ⟨_, rfl⟩
  rw [hs]
  obtain ⟨hlow, hhigh⟩ := shift_bounds hd hs
  have hD : 0 < d * Nat.pow 2 s := Nat.mul_pos hd (Nat.pow_pos (by decide))
  have hassoc : ∀ j, j * Nat.pow 2 s * d = j * (d * Nat.pow 2 s) := by
    intro j
    ring
  by_cases hbelow : 0 < s ∧ k < s * hiddenBit + hiddenBit
  · -- the number has this shift, so all magnitudes of lesser shifts are passed
    obtain ⟨hpos, hlt⟩ := hbelow
    have hle := hlow.resolve_left (Nat.ne_of_gt hpos)
    have hdigits := le_roundHalfEven hD hle
    have hunits := units_shifted (s := s) (by decide) (Or.inr (Nat.le_refl hiddenBit))
    refine iff_of_true (by omega) (Or.inl (middle_lt hd hlt ?_))
    rw [hunits, hassoc]
    exact hle
  by_cases habove : s * hiddenBit + 2 * hiddenBit ≤ k
  · -- a carry reaches the next shift and goes no further
    have hdigits := roundHalfEven_le hD hhigh
    have hunits := units_shifted (s := s) (Nat.le_refl _) (Or.inr (by decide))
    have hmiddle : 2 * n < (units k + units (k + 1)) * d := by
      apply lt_middle habove
      rw [hunits, hassoc]
      exact hhigh
    exact iff_of_false (by omega) (by omega)
  · -- otherwise the two magnitudes are whole numbers at this shift
    obtain ⟨j, rfl⟩ : ∃ j, k = s * hiddenBit + j := by
      refine ⟨k - s * hiddenBit, ?_⟩
      rcases Nat.eq_zero_or_pos s with rfl | hpos <;> omega
    have hj : j + 1 ≤ 2 * hiddenBit := by omega
    have hnormal : s = 0 ∨ hiddenBit ≤ j := by omega
    have hunits := units_shifted (Nat.le_of_succ_le hj) hnormal
    have hsucc := units_shifted hj (hnormal.imp_right Nat.le_succ_of_le)
    have hmiddle : (j * Nat.pow 2 s + (j + 1) * Nat.pow 2 s) * d =
        (2 * j + 1) * (d * Nat.pow 2 s) := by
      ring
    have hparity : (s * hiddenBit + j) % 2 = j % 2 := by
      unfold hiddenBit
      omega
    rw [Nat.add_lt_add_iff_left, Nat.add_assoc, hunits, hsucc, hmiddle, hparity]
    exact lt_roundHalfEven_iff hD n j

end

end ArithTokens.Binary64
