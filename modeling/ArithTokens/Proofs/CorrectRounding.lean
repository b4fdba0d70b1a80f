import ArithTokens.Proofs.RoundingThresholds
import Mathlib.Algebra.Order.Field.Basic
import Mathlib.Algebra.Order.Field.Power
import Mathlib.Data.Rat.Cast.Order
import Mathlib.Tactic.FieldSimp
import Mathlib.Tactic.Linarith

/-!
# Correct rounding

The value of a magnitude as the format has it, and what the magnitude nearest to a number is, said
without rounding it.  The two are compared by their thresholds: a magnitude is the rounding of a
number if the finite magnitudes below it are just those whose middles to the next one the number
passes.

    IsRounding v m ↔ m ≤ infinity, and k < m ↔ Passes v k         (lt_iff, isRounding_of_lt_iff)
    IsRounding (c / 10 ^ places) m ↔ m = nearestDecimal c places                (isRounding_iff)
    IsRounding v m → (m = 0 ↔ v ≤ 1 / 2 ^ 1075)                                    (eq_zero_iff)
-/

namespace ArithTokens.Binary64

/-! ## Definitions -/

/-- The value of a magnitude by the exponent and the fraction in its pattern; for `infinity` it is
that of the next exponent. -/
def value (m : Nat) : ℚ :=
  let exponent : ℤ := m / hiddenBit
  let fraction : ℚ := (m % hiddenBit : ℕ) / hiddenBit
  if m / hiddenBit = 0 then fraction * 2 ^ (-1022 : ℤ) else (1 + fraction) * 2 ^ (exponent - 1023)

/-- The middle between a magnitude and the next one. -/
def middle (m : Nat) : ℚ :=
  (value m + value (m + 1)) / 2

/-- The magnitude is the one nearest to a number that is not negative, the even one if two are
equally near; from the middle between the largest finite number and the next exponent on it is
infinite. -/
structure IsRounding (v : ℚ) (m : Nat) : Prop where
  le_infinity : m ≤ infinity
  infinite_iff : m = infinity ↔ 2 ^ 1024 - 2 ^ 970 ≤ v
  nearest : m < infinity → ∀ k < infinity, |v - value m| ≤ |v - value k|
  even : m < infinity → ∀ k < infinity, k ≠ m → |v - value k| = |v - value m| → m % 2 = 0

/-- What is rounded to nearest passes the middles below it, and the one at it above an odd
magnitude. -/
def Passes (v : ℚ) (k : Nat) : Prop :=
  middle k < v ∨ (middle k = v ∧ k % 2 = 1)

/-! ## Values -/

theorem value_eq (m : Nat) : value m = units m / 2 ^ unitPlaces := by
  have hpos : (hiddenBit : ℚ) ≠ 0 := by norm_num [hiddenBit]
  have hscale : (2 : ℚ) ^ (-1022 : ℤ) = hiddenBit / 2 ^ unitPlaces := by
    have hplaces : (2 : ℚ) ^ unitPlaces = 2 ^ 1022 * 2 ^ 52 := pow_add 2 1022 52
    have hhidden : (hiddenBit : ℚ) = 2 ^ 52 := by norm_num [hiddenBit]
    rw [hplaces, hhidden, zpow_neg, mul_comm, div_mul_cancel_left₀ (by positivity)]
    rfl
  unfold value
  simp only
  by_cases hm : m < hiddenBit
  · rw [if_pos (Nat.div_eq_of_lt hm), Nat.mod_eq_of_lt hm, units_of_lt hm, hscale,
      div_mul_div_cancel₀ hpos]
  · have hle : hiddenBit ≤ m := Nat.le_of_not_lt hm
    have hq : m / hiddenBit ≠ 0 := Nat.ne_of_gt (Nat.div_pos hle (by decide))
    obtain ⟨s, hs⟩ := Nat.exists_eq_succ_of_ne_zero hq
    have hexponent : ((m : ℤ) / (hiddenBit : ℤ)) - 1023 = (s : ℤ) + -1022 := by
      rw [← Int.natCast_div, hs]
      push_cast
      omega
    rw [if_neg hq, hexponent, zpow_add₀ (by norm_num), zpow_natCast, hscale, units, significand,
      if_neg hm, shift, hs, Nat.succ_sub_one, Nat.pow_eq]
    push_cast
    field_simp

theorem strictMono_value : StrictMono value := by
  intro k m h
  have hpow : (0 : ℚ) < 2 ^ unitPlaces := by positivity
  rw [value_eq, value_eq, div_lt_div_iff_of_pos_right hpow]
  exact_mod_cast strictMono_units h

theorem middle_shifted {s j : Nat} (hj : j + 1 ≤ 2 * hiddenBit) (h : s = 0 ∨ hiddenBit ≤ j) :
    middle (s * hiddenBit + j) = (2 * j + 1) * 2 ^ s / 2 / 2 ^ unitPlaces := by
  have hunits := units_shifted (Nat.le_of_succ_le hj) h
  have hsucc := units_shifted hj (h.imp_right Nat.le_succ_of_le)
  unfold middle
  rw [value_eq, value_eq, Nat.add_assoc, hunits, hsucc, Nat.pow_eq]
  push_cast
  field_simp
  ring

theorem middle_zero : middle 0 = 1 / 2 ^ 1075 := by
  have h := middle_shifted (s := 0) (j := 0) (by decide) (Or.inl rfl)
  have hplaces : (2 : ℚ) ^ 1075 = 2 ^ unitPlaces * 2 := pow_succ 2 1074
  rw [Nat.zero_mul, Nat.zero_add] at h
  rw [h, hplaces, Nat.cast_zero]
  field_simp
  norm_num

theorem middle_last : middle (infinity - 1) = 2 ^ 1024 - 2 ^ 970 := by
  have hlast : infinity - 1 = 2045 * hiddenBit + (2 * hiddenBit - 1) := by decide
  have h := middle_shifted (s := 2045) (j := 2 * hiddenBit - 1) (by decide) (Or.inr (by decide))
  have hpow : (2 : ℚ) ^ 2045 = 2 ^ unitPlaces * 2 ^ 970 * 2 := by
    rw [← pow_add, ← pow_succ]
    rfl
  have htop : (2 : ℚ) ^ 1024 = 2 ^ 54 * 2 ^ 970 := pow_add 2 54 970
  have hdigits : ((2 * hiddenBit - 1 : ℕ) : ℚ) = 2 ^ 53 - 1 := by norm_num [hiddenBit]
  rw [hlast, h, hpow, htop, hdigits]
  field_simp
  ring

theorem strictMono_middle : StrictMono middle := by
  intro k m h
  have hlow := strictMono_value h
  have hhigh := strictMono_value (Nat.succ_lt_succ h)
  unfold middle
  linarith

/-! ## Distances -/

section
variable {a b v : ℚ} (h : a < b)
include h

theorem abs_sub_right_le_iff : |v - b| ≤ |v - a| ↔ (a + b) / 2 ≤ v := by
  rw [← sq_le_sq]
  constructor
  · intro hsq
    by_contra hlt
    nlinarith
  · intro hle
    nlinarith

theorem abs_sub_left_le_iff : |v - a| ≤ |v - b| ↔ v ≤ (a + b) / 2 := by
  rw [← sq_le_sq]
  constructor
  · intro hsq
    by_contra hlt
    nlinarith
  · intro hle
    nlinarith

theorem abs_sub_eq_iff : |v - a| = |v - b| ↔ v = (a + b) / 2 := by
  rw [le_antisymm_iff, abs_sub_left_le_iff h, abs_sub_right_le_iff h, ← le_antisymm_iff]

end

/-! ## Roundings -/

theorem passes_last_iff {v : ℚ} : Passes v (infinity - 1) ↔ 2 ^ 1024 - 2 ^ 970 ≤ v := by
  have hodd : (infinity - 1) % 2 = 1 := by decide
  rw [Passes, and_iff_left hodd, middle_last, le_iff_lt_or_eq]

section
variable {v : ℚ} {m : Nat}

theorem IsRounding.passes_of_lt (h : IsRounding v m) {k : Nat} (hlt : k < m) : Passes v k := by
  by_cases hm : m < infinity
  · have hk : k < infinity := Nat.lt_trans hlt hm
    have hstep : value k < value m := strictMono_value hlt
    have hnext : value (k + 1) ≤ value m := strictMono_value.monotone hlt
    have hge : (value k + value m) / 2 ≤ v :=
      (abs_sub_right_le_iff hstep).mp (h.nearest hm k hk)
    have hle : middle k ≤ (value k + value m) / 2 := by
      unfold middle
      linarith
    rcases lt_or_eq_of_le (hle.trans hge) with hpass | htie
    · exact Or.inl hpass
    · -- the number is the middle, so the magnitude is the next one, and even
      have hvalue : value m = value (k + 1) := by
        unfold middle at hle htie
        linarith
      have hnextm : m = k + 1 := strictMono_value.injective hvalue
      have hv : v = (value k + value m) / 2 := by linarith
      have heven := h.even hm k hk (Nat.ne_of_lt hlt) ((abs_sub_eq_iff hstep).mpr hv)
      exact Or.inr ⟨htie, by omega⟩
  · have hinf : m = infinity := by
      have := h.le_infinity
      omega
    have hlast := passes_last_iff.mpr (h.infinite_iff.mp hinf)
    by_cases hk : k = infinity - 1
    · exact hk ▸ hlast
    · have hmiddle : middle k < middle (infinity - 1) := strictMono_middle (by omega)
      rcases hlast with hpass | ⟨htie, -⟩
      · exact Or.inl (hmiddle.trans hpass)
      · exact Or.inl (htie ▸ hmiddle)

theorem IsRounding.not_passes_of_le (h : IsRounding v m) {k : Nat} (hk : k < infinity)
    (hle : m ≤ k) : ¬Passes v k := by
  have hm : m < infinity := Nat.lt_of_le_of_lt hle hk
  by_cases hnext : k + 1 < infinity
  · have hstep : value m < value (k + 1) := strictMono_value (Nat.lt_succ_of_le hle)
    have hv : v ≤ (value m + value (k + 1)) / 2 :=
      (abs_sub_left_le_iff hstep).mp (h.nearest hm (k + 1) hnext)
    have hmono : value m ≤ value k := strictMono_value.monotone hle
    rintro (hpass | ⟨htie, hodd⟩)
    · unfold middle at hpass
      linarith
    · unfold middle at htie
      have hvalue : value m = value k := by linarith
      obtain rfl : m = k := strictMono_value.injective hvalue
      have heven := h.even hm (m + 1) hnext (by omega) ((abs_sub_eq_iff hstep).mpr htie.symm).symm
      omega
  · obtain rfl : k = infinity - 1 := by omega
    rw [passes_last_iff, ← h.infinite_iff]
    omega

theorem IsRounding.lt_iff (h : IsRounding v m) {k : Nat} (hk : k < infinity) :
    k < m ↔ Passes v k := by
  constructor
  · exact h.passes_of_lt
  · intro hpass
    by_contra hle
    exact h.not_passes_of_le hk (Nat.le_of_not_lt hle) hpass

/-- Above a middle that is passed, no lesser magnitude is nearer than the next one. -/
theorem middle_le_of_passes {p k : Nat} (h : Passes v p) (hk : k ≤ p) :
    (value k + value (p + 1)) / 2 ≤ v ∧
      (v = (value k + value (p + 1)) / 2 → (p + 1) % 2 = 0) := by
  have hmono : value k ≤ value p := strictMono_value.monotone hk
  unfold Passes middle at h
  rcases h with hpass | ⟨htie, hodd⟩
  · refine ⟨by linarith, fun hv => ?_⟩
    linarith
  · exact ⟨by linarith, fun _ => by omega⟩

/-- Below a middle that is not passed, no greater magnitude is nearer. -/
theorem le_middle_of_not_passes {k : Nat} (h : ¬Passes v m) (hk : m < k) :
    v ≤ (value m + value k) / 2 ∧ (v = (value m + value k) / 2 → m % 2 = 0) := by
  have hmono : value (m + 1) ≤ value k := strictMono_value.monotone hk
  unfold Passes middle at h
  rw [not_or, not_lt, not_and] at h
  obtain ⟨hle, hodd⟩ := h
  refine ⟨by linarith, fun hv => ?_⟩
  have htie := hodd (by linarith)
  omega

/-- The magnitude that is above just the middles passed is the rounding. -/
theorem isRounding_of_lt_iff (hle : m ≤ infinity) (h : ∀ k < infinity, (k < m ↔ Passes v k)) :
    IsRounding v m := by
  have hbelow : ∀ k < m, (value k + value m) / 2 ≤ v ∧
      (v = (value k + value m) / 2 → m % 2 = 0) := by
    intro k hk
    obtain ⟨p, rfl⟩ : ∃ p, m = p + 1 := ⟨m - 1, by omega⟩
    exact middle_le_of_passes ((h p hle).mp (Nat.lt_succ_self p)) (Nat.le_of_lt_succ hk)
  have habove : m < infinity → ∀ k, m < k → v ≤ (value m + value k) / 2 ∧
      (v = (value m + value k) / 2 → m % 2 = 0) := by
    intro hm k hk
    exact le_middle_of_not_passes (fun hpass => Nat.lt_irrefl m ((h m hm).mpr hpass)) hk
  constructor
  · exact hle
  · have hpos : 0 < infinity := by decide
    have hlast := h (infinity - 1) (by decide)
    rw [← passes_last_iff, ← hlast]
    omega
  · intro hm k _
    rcases Nat.lt_trichotomy k m with hlt | rfl | hgt
    · exact (abs_sub_right_le_iff (strictMono_value hlt)).mpr (hbelow k hlt).1
    · exact le_refl _
    · exact (abs_sub_left_le_iff (strictMono_value hgt)).mpr (habove hm k hgt).1
  · intro hm k _ hne heq
    rcases Nat.lt_or_gt_of_ne hne with hlt | hgt
    · exact (hbelow k hlt).2 ((abs_sub_eq_iff (strictMono_value hlt)).mp heq)
    · exact (habove hm k hgt).2 ((abs_sub_eq_iff (strictMono_value hgt)).mp heq.symm)

theorem Passes.mono {w : ℚ} {k : Nat} (h : Passes v k) (hle : v ≤ w) : Passes w k := by
  rcases lt_or_eq_of_le hle with hlt | rfl
  · rcases h with hpass | ⟨htie, -⟩
    · exact Or.inl (hpass.trans hlt)
    · exact Or.inl (htie ▸ hlt)
  · exact h

/-- A greater number has no lesser rounding. -/
theorem IsRounding.mono {w : ℚ} {k : Nat} (h : IsRounding v m) (hk : IsRounding w k) (hle : v ≤ w) :
    m ≤ k := by
  by_contra hlt
  have hlt : k < m := Nat.lt_of_not_le hlt
  have hfinite : k < infinity := Nat.lt_of_lt_of_le hlt h.le_infinity
  have hpass : Passes w k := ((h.lt_iff hfinite).mp hlt).mono hle
  exact Nat.lt_irrefl k ((hk.lt_iff hfinite).mpr hpass)

/-- A number has one rounding. -/
theorem IsRounding.unique {m' : Nat} (h : IsRounding v m) (h' : IsRounding v m') : m = m' :=
  Nat.le_antisymm (h.mono h' le_rfl) (h'.mono h le_rfl)

/-- What lies within half of the least positive number is rounded to zero. -/
theorem IsRounding.eq_zero_iff (h : IsRounding v m) : m = 0 ↔ v ≤ 1 / 2 ^ 1075 := by
  have hlt := h.lt_iff (k := 0) (by decide)
  have hpass : Passes v 0 ↔ 1 / 2 ^ 1075 < v := by simp [Passes, middle_zero]
  rw [← not_lt, ← hpass, ← hlt, Nat.pos_iff_ne_zero, not_not]

end

/-- The magnitude nearest to a decimal is the rounding of its value. -/
theorem isRounding_nearestDecimal (c places : Nat) :
    IsRounding (c / 10 ^ places) (nearestDecimal c places) := by
  have hle : nearestDecimal c places ≤ infinity := nearest_le_infinity _ _
  refine isRounding_of_lt_iff hle fun k hk => ?_
  have hd : 0 < Nat.pow 10 places := Nat.pow_pos (by decide)
  have hten : (0 : ℚ) < 10 ^ places := by positivity
  have htwo : (0 : ℚ) < 2 ^ unitPlaces := by positivity
  have hmiddle : middle k = ((units k + units (k + 1)) * Nat.pow 10 places : ℕ) /
      (2 * 2 ^ unitPlaces * 10 ^ places) := by
    rw [middle, value_eq, value_eq, Nat.pow_eq]
    push_cast
    field_simp
  have hvalue : (c : ℚ) / 10 ^ places = (2 * (c * Nat.pow 2 unitPlaces) : ℕ) /
      (2 * 2 ^ unitPlaces * 10 ^ places) := by
    rw [Nat.pow_eq]
    push_cast
    field_simp
  have hden : (0 : ℚ) < 2 * 2 ^ unitPlaces * 10 ^ places := by positivity
  rw [nearestDecimal, lt_nearest_iff hd hk, Passes, hmiddle, hvalue,
    div_lt_div_iff_of_pos_right hden, div_left_inj' hden.ne', Nat.cast_lt, Nat.cast_inj]

theorem isRounding_iff {c places m : Nat} :
    IsRounding (c / 10 ^ places) m ↔ m = nearestDecimal c places := by
  constructor
  · intro h
    exact h.unique (isRounding_nearestDecimal c places)
  · rintro rfl
    exact isRounding_nearestDecimal c places

end ArithTokens.Binary64
