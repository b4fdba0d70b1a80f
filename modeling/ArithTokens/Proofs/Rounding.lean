import ArithTokens.Number.Binary64

/-!
# Rounding

Rounding depends on the fraction and not on how it is written, and it keeps what needs no
rounding: a finite magnitude is the one nearest to its own value.

    roundHalfEven (n * k) (d * k) = roundHalfEven n d                  (roundHalfEven_mul_right)
    nearest (n * k) (d * k) = nearest n d                              (nearest_mul_right)
    m < infinity → nearest (units m) 1 = m                             (nearest_units)
    nearestDecimal (c * 10 ^ k) (places + k) = nearestDecimal c places (nearestDecimal_mul_pow)
-/

namespace ArithTokens.Binary64

/-! ## To a whole number -/

section
variable {k : Nat} (hk : 0 < k)
include hk

theorem roundHalfEven_mul_right (n d : Nat) :
    roundHalfEven (n * k) (d * k) = roundHalfEven n d := by
  have hr : n * k % (d * k) = n % d * k := Nat.mul_mod_mul_right k n d
  have hdouble : 2 * (n % d * k) = 2 * (n % d) * k := (Nat.mul_assoc _ _ _).symm
  have hlt : 2 * (n % d) * k < d * k ↔ 2 * (n % d) < d := Nat.mul_lt_mul_right hk
  have heq : 2 * (n % d) * k = d * k ↔ 2 * (n % d) = d := Nat.mul_left_inj (Nat.ne_of_gt hk)
  simp only [roundHalfEven, Nat.mul_div_mul_right n d hk, hr, hdouble, hlt, heq]

theorem roundHalfEven_mul_self (n : Nat) : roundHalfEven (n * k) k = n := by
  have hr : 2 * (n * k % k) < k := by
    rw [Nat.mul_mod_left]
    exact hk
  simp only [roundHalfEven, Nat.mul_div_cancel n hk, hr, true_or, if_true]

/-! ## To a magnitude -/

theorem nearest_mul_right (n d : Nat) : nearest (n * k) (d * k) = nearest n d := by
  have hd : ∀ s, d * k * Nat.pow 2 s = d * Nat.pow 2 s * k := by
    intro s
    exact Nat.mul_right_comm d k _
  simp only [nearest, Nat.mul_div_mul_right n d hk, hd, roundHalfEven_mul_right hk]

end

/-! ## Finite magnitudes -/

theorem significand_lt (m : Nat) : significand m < 2 * hiddenBit := by
  have hm : m % hiddenBit < hiddenBit := Nat.mod_lt m (by decide)
  unfold significand
  split <;> omega

theorem units_of_lt {m : Nat} (h : m < hiddenBit) : units m = m := by
  have hs : shift m = 0 := by
    rw [shift, Nat.div_eq_of_lt h]
  rw [units, significand, if_pos h, hs]
  exact Nat.mul_one m

/-- A magnitude is its shift and its significand put together; the hidden bit of the significand
counts as one more shift. -/
theorem shift_mul_add_significand (m : Nat) : shift m * hiddenBit + significand m = m := by
  by_cases h : m < hiddenBit
  · rw [significand, if_pos h, shift, Nat.div_eq_of_lt h]
    exact Nat.zero_add m
  · have hq : 1 ≤ m / hiddenBit := (Nat.one_le_div_iff (by decide)).mpr (Nat.le_of_not_lt h)
    have hle : hiddenBit * 1 ≤ hiddenBit * (m / hiddenBit) := Nat.mul_le_mul_left hiddenBit hq
    have hm : hiddenBit * (m / hiddenBit) + m % hiddenBit = m := Nat.div_add_mod m hiddenBit
    rw [significand, if_neg h, shift, Nat.sub_mul, Nat.one_mul, Nat.mul_comm]
    omega

/-- The shift at which the value of a magnitude is rounded is its own. -/
theorem log2_units (m : Nat) : Nat.log2 (units m) - 52 = shift m := by
  by_cases hm : m < hiddenBit
  · have hlog : Nat.log2 m < 53 := by
      by_cases h0 : m = 0
      · rw [h0]
        decide
      · exact (Nat.log2_lt h0).mpr (Nat.lt_trans hm (by decide))
    rw [units_of_lt hm, shift, Nat.div_eq_of_lt hm]
    omega
  · -- the leading bit of the significand is the hidden one
    have hlow : Nat.pow 2 52 ≤ significand m := by
      rw [significand, if_neg hm]
      exact Nat.le_add_right hiddenBit _
    have hhigh : significand m < Nat.pow 2 53 := significand_lt m
    have hs : 0 < Nat.pow 2 (shift m) := Nat.pow_pos (by decide)
    have hlog : Nat.log2 (units m) = shift m + 52 := by
      have hpos : units m ≠ 0 := by
        apply Nat.ne_of_gt
        exact Nat.mul_pos (Nat.lt_of_lt_of_le (by decide) hlow) hs
      rw [Nat.log2_eq_iff hpos]
      constructor
      · rw [Nat.pow_add, Nat.mul_comm]
        exact Nat.mul_le_mul_right _ hlow
      · rw [Nat.add_assoc, Nat.pow_add, Nat.mul_comm]
        exact Nat.mul_lt_mul_of_pos_right hhigh hs
    omega

theorem nearest_units {m : Nat} (h : m < infinity) : nearest (units m) 1 = m := by
  have hround : roundHalfEven (units m) (1 * Nat.pow 2 (shift m)) = significand m := by
    rw [Nat.one_mul]
    exact roundHalfEven_mul_self (Nat.pow_pos (by decide)) _
  simp only [nearest, Nat.div_one, log2_units, hround, shift_mul_add_significand]
  exact Nat.min_eq_right (Nat.le_of_lt h)

/-! ## Decimals -/

theorem nearestDecimal_mul_pow (c places k : Nat) :
    nearestDecimal (c * Nat.pow 10 k) (places + k) = nearestDecimal c places := by
  have hc : c * Nat.pow 10 k * Nat.pow 2 unitPlaces = c * Nat.pow 2 unitPlaces * Nat.pow 10 k :=
    Nat.mul_right_comm _ _ _
  have hp : Nat.pow 10 (places + k) = Nat.pow 10 places * Nat.pow 10 k := Nat.pow_add 10 places k
  have hk : 0 < Nat.pow 10 k := Nat.pow_pos (by decide)
  rw [nearestDecimal, hc, hp, nearest_mul_right hk, nearestDecimal]

end ArithTokens.Binary64
