import ArithTokens.Proofs.SignificantDigits

/-!
# The search for the shortest decimal

A decimal of `n` digits lies on the grid of the `n` leading digits of the exact value, or below the
first point of that grid.  So a decimal that is rounded to a magnitude has one of the two neighbours
of the exact value between itself and that value, and this neighbour is rounded to the magnitude as
well.  The first grid with such a neighbour therefore has the fewest digits, and the nearer of its
neighbours is as near as any decimal of so many digits.

    HasDigits n v → v is a point of the grid, or below its leading power
                                                                     (exists_multiple_or_lt)
    IsRounding v m → HasDigits n v → a neighbour reads back and is as near  (exists_isNeighbour)
    0 < m → shortest m has the fewest digits, and none with so many is nearer    (exists_fewest)
-/

namespace ArithTokens.Binary64

open Literal (HasDigits)

/-! ## Grids -/

/-- The two points of a grid next to the exact value of a magnitude, which may be the lower one. -/
def IsNeighbour (m step c : Nat) : Prop :=
  c = exact m / step * step ∨ c = exact m / step * step + step

/-- The decimal, in the places of the exact value, is rounded to the magnitude. -/
def ReadsBack (m c : Nat) : Prop :=
  nearestDecimal c (places m) = m

/-- How many digits the exact value has. -/
def size (m : Nat) : Nat :=
  (Text.ofNat (exact m)).length

theorem value_eq_exact (m : Nat) : value m = exact m / 10 ^ places m := by
  have h := exact_mul_pow m
  rw [Nat.pow_eq, Nat.pow_eq] at h
  rw [value_eq, div_eq_div_iff (by positivity) (by positivity)]
  generalize unitPlaces = u at h
  exact_mod_cast h.symm

section
variable {m step : Nat} (hs : 0 < step)
include hs

theorem le_below {t : Nat} (h : t * step ≤ exact m) : t * step ≤ exact m / step * step :=
  Nat.mul_le_mul_right step ((Nat.le_div_iff_mul_le hs).mpr h)

theorem above_le {t : Nat} (h : exact m < t * step) : exact m / step * step + step ≤ t * step := by
  have hlt : exact m / step + 1 ≤ t := (Nat.div_lt_iff_lt_mul hs).mpr h
  have hmul := Nat.mul_le_mul_right step hlt
  rwa [Nat.add_mul, Nat.one_mul] at hmul

theorem exact_lt_above : exact m < exact m / step * step + step := by
  have hsplit := Nat.div_add_mod' (exact m) step
  have hmod := Nat.mod_lt (exact m) hs
  omega

end

/-! ## One grid -/

section
variable {m step c : Nat}

theorem onGrid?_eq_none_iff :
    onGrid? m step = none ↔ ∀ c, IsNeighbour m step c → ¬ReadsBack m c := by
  unfold onGrid? IsNeighbour ReadsBack
  simp only [forall_eq_or_imp, forall_eq]
  split
  · next h => exact iff_of_false (by simp) (fun hnone => hnone.1 h.1)
  · next hlow =>
    split
    · next hhigh => exact iff_of_false (by simp) (fun hnone => hnone.2 hhigh)
    · next hhigh => exact iff_of_true rfl ⟨fun h => hlow ⟨h, fun hh => hhigh hh.1⟩, hhigh⟩

/-- What is answered is the nearer one of the neighbours that read back. -/
theorem onGrid?_eq_some (hs : 0 < step) (h : onGrid? m step = some c) :
    IsNeighbour m step c ∧ ∀ d, IsNeighbour m step d → ReadsBack m d →
      |(c : ℚ) - exact m| ≤ |(d : ℚ) - exact m| := by
  have hbelow : exact m / step * step ≤ exact m := Nat.div_mul_le_self _ _
  have habove := exact_lt_above (m := m) hs
  unfold onGrid? at h
  unfold IsNeighbour ReadsBack
  simp only [forall_eq_or_imp, forall_eq]
  simp only at h
  generalize exact m / step * step = low at h hbelow habove ⊢
  have hlow : |(low : ℚ) - exact m| = exact m - low := by
    rw [abs_sub_comm]
    exact abs_of_nonneg (sub_nonneg.mpr (Nat.cast_le.mpr hbelow))
  have hhigh : |((low + step : ℕ) : ℚ) - exact m| = (low + step : ℕ) - exact m :=
    abs_of_nonneg (sub_nonneg.mpr (Nat.cast_le.mpr (Nat.le_of_lt habove)))
  split at h
  · next hreads =>
    obtain rfl := Option.some.inj h
    refine ⟨Or.inl rfl, fun _ => le_rfl, fun hd => ?_⟩
    -- the upper neighbour would have been taken if it were as near
    have hnot : ¬low + step - exact m ≤ exact m - low := fun hle => hreads.2 ⟨hd, hle⟩
    have hfar : 2 * exact m ≤ low + (low + step) := by omega
    have hcast : (2 * exact m : ℚ) ≤ low + (low + step : ℕ) := by exact_mod_cast hfar
    rw [hlow, hhigh]
    linarith
  · next hnot =>
    split at h
    · next hreads =>
      obtain rfl := Option.some.inj h
      refine ⟨Or.inr rfl, fun hd => ?_, fun _ => le_rfl⟩
      have hle : low + step - exact m ≤ exact m - low := by
        by_contra hlt
        exact hnot ⟨hd, fun hh => hlt hh.2⟩
      have hnear : low + (low + step) ≤ 2 * exact m := by omega
      have hcast : (low + (low + step : ℕ) : ℚ) ≤ 2 * exact m := by exact_mod_cast hnear
      rw [hlow, hhigh]
      linarith
    · cases h

end

/-! ## Decimals of few digits -/

/-- Few digits make up a point of the grid, or less than its leading power. -/
theorem exists_multiple_or_lt {n g k : Nat} {v : ℚ} (h : HasDigits n v) (hk : n + g = k + 1)
    (p : Nat) : (∃ t : Nat, v = (t * 10 ^ g : ℕ) / 10 ^ p) ∨ v < (10 ^ k : ℕ) / 10 ^ p := by
  obtain ⟨a, f, e, ha, rfl⟩ := h
  by_cases hle : e + g ≤ f + p
  · left
    obtain ⟨j, hj⟩ := Nat.exists_eq_add_of_le hle
    have hpow : (10 : ℚ) ^ f * 10 ^ p = 10 ^ e * 10 ^ g * 10 ^ j := by
      rw [← pow_add, hj, pow_add, pow_add]
    refine ⟨a * 10 ^ j, ?_⟩
    rw [div_eq_div_iff (by positivity) (by positivity), mul_assoc, hpow]
    push_cast
    ring
  · right
    have hlt : a * 10 ^ f * 10 ^ p < 10 ^ k * 10 ^ e := by
      calc a * 10 ^ f * 10 ^ p = a * 10 ^ (f + p) := by rw [Nat.mul_assoc, Nat.pow_add]
        _ < 10 ^ n * 10 ^ (f + p) := Nat.mul_lt_mul_of_pos_right ha (Nat.pow_pos (by decide))
        _ = 10 ^ (n + (f + p)) := (Nat.pow_add 10 n (f + p)).symm
        _ ≤ 10 ^ (k + e) := Nat.pow_le_pow_right (by decide) (by omega)
        _ = 10 ^ k * 10 ^ e := Nat.pow_add 10 k e
    rw [div_lt_div_iff₀ (by positivity) (by positivity)]
    exact_mod_cast hlt

/-- A point of a grid below the next power of ten, or that power itself, has few digits. -/
theorem hasDigits_point {n q : Nat} (hn : 0 < n) (hq : q ≤ 10 ^ n) (g p : Nat) :
    HasDigits n ((q * 10 ^ g : ℕ) / 10 ^ p) := by
  rcases Nat.lt_or_eq_of_le hq with hlt | rfl
  · exact ⟨q, g, p, hlt, by push_cast; rfl⟩
  · refine ⟨1, n + g, p, Nat.one_lt_pow (Nat.ne_of_gt hn) (by decide), ?_⟩
    push_cast
    rw [pow_add, one_mul]

/-- No digits make up zero only, which is rounded to zero. -/
theorem pos_of_hasDigits {m n : Nat} (hm : 0 < m) {v : ℚ} (h : IsRounding v m)
    (hd : HasDigits n v) : 0 < n := by
  apply Nat.pos_of_ne_zero
  rintro rfl
  obtain ⟨a, f, e, ha, rfl⟩ := hd
  obtain rfl : a = 0 := Nat.lt_one_iff.mp ha
  rw [Nat.cast_zero, zero_mul, zero_div] at h
  have hzero := h.eq_zero_iff.mpr (by positivity)
  exact Nat.ne_of_gt hm hzero

/-! ## Sizes -/

section
variable {m : Nat} (hm : 0 < m)
include hm

theorem exact_pos : 0 < exact m := by
  apply Nat.pos_of_ne_zero
  intro hzero
  have h := exact_mul_pow m
  have hunits : units 0 < units m := strictMono_units hm
  have hpow : 0 < Nat.pow 10 (places m) := Nat.pow_pos (by decide)
  rw [hzero, Nat.zero_mul] at h
  exact Nat.ne_of_gt (Nat.mul_pos (Nat.zero_lt_of_lt hunits) hpow) h.symm

theorem exists_size_eq : ∃ k, size m = k + 1 ∧ 10 ^ k ≤ exact m ∧ exact m < 10 ^ (k + 1) := by
  have hpos : 0 < size m := List.length_pos_iff.mpr Nat.toDigits_ne_nil
  obtain ⟨k, hk⟩ : ∃ k, size m = k + 1 := ⟨size m - 1, by omega⟩
  have hle : ∀ j, 0 < j → (size m ≤ j ↔ exact m < 10 ^ j) := by
    intro j hj
    exact Nat.length_toDigits_le_iff (by decide) hj
  refine ⟨k, hk, ?_, (hle (k + 1) (by omega)).mp (by omega)⟩
  rcases Nat.eq_zero_or_pos k with rfl | hkpos
  · exact exact_pos hm
  · apply Nat.le_of_not_lt
    rw [← hle k hkpos]
    omega

end

/-! ## Between a decimal and the exact value -/

section
variable {m : Nat} (hm : 0 < m) (hlt : m < infinity) {v : ℚ} (h : IsRounding v m)
include hlt

theorem isRounding_value : IsRounding (value m) m := by
  have hround := isRounding_nearestDecimal (exact m) (places m)
  rwa [nearestDecimal_exact hlt, ← value_eq_exact] at hround

include h

/-- What lies between a decimal and the exact value reads back where the decimal does. -/
theorem readsBack_of_between {c : Nat}
    (hc : (v ≤ c / 10 ^ places m ∧ c ≤ exact m) ∨ (exact m ≤ c ∧ c / 10 ^ places m ≤ v)) :
    ReadsBack m c ∧ |(c : ℚ) / 10 ^ places m - value m| ≤ |v - value m| := by
  have hvalue := isRounding_value hlt
  have hround := isRounding_nearestDecimal c (places m)
  have hpow : (0 : ℚ) < 10 ^ places m := by positivity
  rcases hc with ⟨hv, hc⟩ | ⟨hc, hv⟩
  · have hle : (c : ℚ) / 10 ^ places m ≤ value m := by
      rw [value_eq_exact, div_le_div_iff_of_pos_right hpow]
      exact_mod_cast hc
    refine ⟨Nat.le_antisymm (hround.mono hvalue hle) (h.mono hround hv), ?_⟩
    rw [abs_of_nonpos (by linarith), abs_of_nonpos (by linarith)]
    linarith
  · have hle : value m ≤ (c : ℚ) / 10 ^ places m := by
      rw [value_eq_exact, div_le_div_iff_of_pos_right hpow]
      exact_mod_cast hc
    refine ⟨Nat.le_antisymm (hround.mono h hv) (hvalue.mono hround hle), ?_⟩
    rw [abs_of_nonneg (by linarith), abs_of_nonneg (by linarith)]
    linarith

include hm

/-- A decimal that is rounded to a magnitude has a neighbour on its grid before it. -/
theorem exists_isNeighbour {n g : Nat} (hn : 0 < n) (hsize : n + g = size m) (hd : HasDigits n v) :
    ∃ c, IsNeighbour m (10 ^ g) c ∧ ReadsBack m c ∧
      |(c : ℚ) / 10 ^ places m - value m| ≤ |v - value m| := by
  obtain ⟨k, hk, hlead, -⟩ := exists_size_eq hm
  have hs : 0 < 10 ^ g := Nat.pow_pos (by decide)
  have hpow : (0 : ℚ) < 10 ^ places m := by positivity
  have hmultiple : 10 ^ k = 10 ^ (n - 1) * 10 ^ g := by
    rw [← Nat.pow_add]
    congr 1
    omega
  have hgrid := exists_multiple_or_lt hd (hsize.trans hk) (places m)
  rcases le_or_gt v (value m) with hle | hgt
  · -- a point of the grid lies between the decimal and the exact value
    obtain ⟨t, hv, ht⟩ : ∃ t : Nat, v ≤ (t * 10 ^ g : ℕ) / 10 ^ places m ∧
        t * 10 ^ g ≤ exact m := by
      rcases hgrid with ⟨t, rfl⟩ | hsmall
      · rw [value_eq_exact, div_le_div_iff_of_pos_right hpow] at hle
        exact ⟨t, le_rfl, by exact_mod_cast hle⟩
      · rw [hmultiple] at hsmall hlead
        exact ⟨10 ^ (n - 1), hsmall.le, hlead⟩
    have hbelow := le_below hs ht
    refine ⟨exact m / 10 ^ g * 10 ^ g, Or.inl rfl, readsBack_of_between hlt h (Or.inl ⟨?_, ?_⟩)⟩
    · refine hv.trans ?_
      rw [div_le_div_iff_of_pos_right hpow]
      exact_mod_cast hbelow
    · exact Nat.div_mul_le_self _ _
  · obtain ⟨t, rfl⟩ : ∃ t : Nat, v = (t * 10 ^ g : ℕ) / 10 ^ places m := by
      refine hgrid.resolve_right fun hsmall => ?_
      rw [value_eq_exact] at hgt
      have hless := (div_lt_div_iff_of_pos_right hpow).mp (hgt.trans hsmall)
      exact Nat.not_lt_of_le hlead (by exact_mod_cast hless)
    rw [value_eq_exact, div_lt_div_iff_of_pos_right hpow, Nat.cast_lt] at hgt
    have habove := above_le hs hgt
    refine ⟨exact m / 10 ^ g * 10 ^ g + 10 ^ g, Or.inr rfl,
      readsBack_of_between hlt h (Or.inr ⟨?_, ?_⟩)⟩
    · exact Nat.le_of_lt (exact_lt_above hs)
    · rw [div_le_div_iff_of_pos_right hpow]
      exact_mod_cast habove

end

/-! ## The search -/

/-- A search over a range ends at the first number with an answer. -/
theorem exists_of_findSome?_range {α : Type} {f : Nat → Option α} {n : Nat} {b : α}
    (h : (List.range n).findSome? f = some b) :
    ∃ k < n, f k = some b ∧ ∀ j < k, f j = none := by
  obtain ⟨front, k, back, hl, hk, hnone⟩ := List.findSome?_eq_some_iff.mp h
  have hlen := congrArg List.length hl
  simp only [List.length_range, List.length_append, List.length_cons] at hlen
  have hlast : k = front.length := by
    have hget := congrArg (·[front.length]?) hl
    simpa [List.getElem?_range (show front.length < n by omega)] using hget.symm
  have hfront : front = List.range front.length := by
    have htake := congrArg (List.take front.length) hl
    rw [List.take_range, List.take_left, Nat.min_eq_left (by omega)] at htake
    exact htake.symm
  refine ⟨k, by omega, hk, fun j hj => hnone j ?_⟩
  rw [hfront, List.mem_range]
  omega

section
variable {m : Nat} (hlt : m < infinity)
include hlt

/-- The search ends with an answer, since the last grid has the exact value as a point. -/
theorem exists_onGrid? : ∃ k < size m, onGrid? m (10 ^ (size m - 1 - k)) = some (shortest m) ∧
    ∀ j < k, onGrid? m (10 ^ (size m - 1 - j)) = none := by
  apply exists_of_findSome?_range
  have hpos : 0 < size m := List.length_pos_iff.mpr Nat.toDigits_ne_nil
  have hlast : onGrid? m (Nat.pow 10 (size m - 1 - (size m - 1))) ≠ none := by
    rw [ne_eq, onGrid?_eq_none_iff, Nat.sub_self]
    intro hnone
    apply hnone (exact m) (Or.inl _) (nearestDecimal_exact hlt)
    exact ((Nat.mul_one _).trans (Nat.div_one _)).symm
  unfold shortest
  simp only
  cases hfound : (List.range (size m)).findSome? fun k => onGrid? m (10 ^ (size m - 1 - k)) with
  | none =>
    rw [List.findSome?_eq_none_iff] at hfound
    exact absurd (hfound (size m - 1) (List.mem_range.mpr (by omega))) hlast
  | some c => exact congrArg some (congrArg (Option.getD · (exact m)) hfound).symm

/-- **The answer of the search has the fewest digits** of all that is rounded to the magnitude, and
nothing with so many digits is nearer to its value. -/
theorem exists_fewest (hm : 0 < m) : ∃ n, HasDigits n (shortest m / 10 ^ places m) ∧
    (∀ v k, IsRounding v m → HasDigits k v → n ≤ k) ∧
    ∀ v, IsRounding v m → HasDigits n v →
      |(shortest m : ℚ) / 10 ^ places m - value m| ≤ |v - value m| := by
  obtain ⟨k, hk, hfound, hnone⟩ := exists_onGrid? hlt
  obtain ⟨hneighbour, hnearest⟩ := onGrid?_eq_some (Nat.pow_pos (by decide)) hfound
  refine ⟨k + 1, ?_, fun v j hv hd => ?_, fun v hv hd => ?_⟩
  · obtain ⟨j, hj, -, hless⟩ := exists_size_eq hm
    have hquotient : exact m / 10 ^ (size m - 1 - k) < 10 ^ (k + 1) := by
      rw [Nat.div_lt_iff_lt_mul (Nat.pow_pos (by decide)), ← Nat.pow_add]
      rwa [show k + 1 + (size m - 1 - k) = j + 1 by omega]
    rcases hneighbour with hc | hc
    · rw [hc]
      exact hasDigits_point (Nat.succ_pos k) (Nat.le_of_lt hquotient) _ _
    · have hnext := hasDigits_point (Nat.succ_pos k) hquotient (size m - 1 - k) (places m)
      rwa [Nat.succ_mul, ← hc] at hnext
  · -- on the grid of fewer digits the search would have ended before
    by_contra hless
    have hpos := pos_of_hasDigits hm hv hd
    have hsize : j + (size m - 1 - (j - 1)) = size m := by omega
    obtain ⟨c, hc, hreads, -⟩ := exists_isNeighbour hm hlt hv hpos hsize hd
    exact onGrid?_eq_none_iff.mp (hnone (j - 1) (by omega)) c hc hreads
  · have hsize : k + 1 + (size m - 1 - k) = size m := by omega
    obtain ⟨c, hc, hreads, hnear⟩ := exists_isNeighbour hm hlt hv (Nat.succ_pos k) hsize hd
    refine le_trans ?_ hnear
    have hle := hnearest c hc hreads
    rw [value_eq_exact, ← sub_div, ← sub_div, abs_div, abs_div]
    exact div_le_div_of_nonneg_right hle (abs_nonneg _)

end

end ArithTokens.Binary64
