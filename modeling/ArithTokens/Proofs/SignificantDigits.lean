import ArithTokens.Proofs.NumberValue

/-!
# Significant digits

The significant digits of a literal are those from the first to the last that is not zero.  How many
there are depends only on the number that the literal denotes: they are the fewest digits that make
it up together with a power of ten.

    significant l ≠ [] → 10 ^ (length - 1) ≤ coefficient l < 10 ^ length, and ten does not divide it
                                      (pow_le_coefficient, coefficient_lt, coefficient_mod)
    IsLiteral l → ((significant l).length ≤ n ↔ HasDigits n (magnitude l))
                                                                  (length_significant_le_iff)
-/

namespace ArithTokens

/-! ## Definitions -/

namespace Literal

/-- The digits of a literal, without its sign and its point. -/
def digits (literal : Text) : Text :=
  literal.filter isDigit

/-- The digits from the first to the last that is not zero. -/
def significant (literal : Text) : Text :=
  Text.dropTrailing (· = '0') ((digits literal).dropWhile (· = '0'))

/-- The number is made up of at most `n` digits and a power of ten. -/
def HasDigits (n : Nat) (v : ℚ) : Prop :=
  ∃ a f e : Nat, a < 10 ^ n ∧ v = a * 10 ^ f / 10 ^ e

end Literal

/-! ## Values of digits -/

namespace Decimal

theorem ofDigitChars_cons (c : Char) (s : Text) :
    Nat.ofDigitChars 10 (c :: s) 0 =
      (c.toNat - '0'.toNat) * 10 ^ s.length + Nat.ofDigitChars 10 s 0 := by
  rw [Nat.ofDigitChars_cons, Nat.ofDigitChars_eq_ofDigitChars_zero, Nat.mul_zero, Nat.zero_add,
    Nat.mul_comm]

theorem digit_le {c : Char} (h : isDigit c = true) : c.toNat - '0'.toNat ≤ 9 := by
  have hle : c.toNat ≤ '9'.toNat := (Char.isDigit_iff_toNat.mp h).2
  have hnine : '9'.toNat = '0'.toNat + 9 := rfl
  omega

theorem digit_pos {c : Char} (h : isDigit c = true) (h0 : c ≠ '0') : 1 ≤ c.toNat - '0'.toNat := by
  have hle : '0'.toNat ≤ c.toNat := (Char.isDigit_iff_toNat.mp h).1
  have hne : c.toNat ≠ '0'.toNat := fun he => h0 (Char.toNat_inj.mp he)
  omega

theorem ofDigitChars_lt {s : Text} (h : ∀ c ∈ s, isDigit c = true) :
    Nat.ofDigitChars 10 s 0 < 10 ^ s.length := by
  induction s with
  | nil => decide
  | cons c s ih =>
    obtain ⟨hc, hs⟩ := List.forall_mem_cons.mp h
    have hrest := ih hs
    have hfirst : (c.toNat - '0'.toNat) * 10 ^ s.length ≤ 9 * 10 ^ s.length :=
      Nat.mul_le_mul_right _ (digit_le hc)
    rw [ofDigitChars_cons, List.length_cons, Nat.pow_succ]
    omega

section
variable {c : Char} (hc : isDigit c = true) (h0 : c ≠ '0') (s : Text)
include hc h0

/-- Digits that do not start with a zero. -/
theorem pow_length_le_ofDigitChars : 10 ^ s.length ≤ Nat.ofDigitChars 10 (c :: s) 0 := by
  have hfirst : 1 * 10 ^ s.length ≤ (c.toNat - '0'.toNat) * 10 ^ s.length :=
    Nat.mul_le_mul_right _ (digit_pos hc h0)
  rw [ofDigitChars_cons]
  omega

/-- Digits that do not end with a zero. -/
theorem ofDigitChars_concat_mod : Nat.ofDigitChars 10 (s ++ [c]) 0 % 10 ≠ 0 := by
  have hle := digit_le hc
  have hpos := digit_pos hc h0
  rw [ofDigitChars_append, ofDigitChars_cons]
  simp only [List.length_cons, List.length_nil, Nat.ofDigitChars_nil, Nat.pow_eq]
  omega

end

end Decimal

/-! ## The digits of a literal -/

namespace Literal

theorem isDigit_of_mem_digits {literal : Text} {c : Char} (h : c ∈ digits literal) :
    isDigit c = true :=
  (List.mem_filter.mp h).2

theorem digits_append {sign ds : Text} (hs : sign = [] ∨ sign = ['-'])
    (hd : ∀ c ∈ ds, isDigit c = true) (rest : Text) :
    digits (sign ++ (ds ++ rest)) = ds ++ digits rest := by
  have hsign : sign.filter isDigit = [] := by
    rcases hs with rfl | rfl <;> rfl
  rw [digits, List.filter_append, List.filter_append, hsign, List.filter_eq_self.mpr hd]
  rfl

/-- A literal denotes its digits with the point as far from their end as it stands. -/
theorem magnitude_eq {literal : Text} (h : IsLiteral literal) :
    magnitude literal =
      Nat.ofDigitChars 10 (digits literal) 0 / 10 ^ (fraction literal).length := by
  cases h with
  | integer hw =>
    obtain ⟨sign, ds, hs, hd, rfl⟩ := hw
    have hvalue := magnitude_integer hs hd
    have hdigits := digits_append hs hd.2 []
    have hfraction := (parts_append hs hd (Or.inl rfl)).2
    rw [List.append_nil] at hvalue hdigits hfraction
    rw [hvalue, hdigits, hfraction]
    simp [digits]
  | @fraction _ ds' hw hf =>
    obtain ⟨sign, ds, hs, hd, rfl⟩ := hw
    have hrest : digits ('.' :: ds') = ds' := List.filter_eq_self.mpr hf.2
    have hfraction := (parts_append hs hd
      (show '.' :: ds' = [] ∨ ('.' :: ds').head? = some '.' from Or.inr rfl)).2
    rw [List.append_assoc, magnitude_fraction hs hd, digits_append hs hd.2, hrest, hfraction,
      Decimal.ofDigitChars_append, List.drop_one, List.tail_cons, Nat.pow_eq]
    push_cast
    field_simp

/-- Only zeros are left out of the significant digits. -/
theorem exists_digits_eq (literal : Text) :
    ∃ i j, digits literal =
      List.replicate i '0' ++ (significant literal ++ List.replicate j '0') := by
  have hzero : ∀ c ∈ (digits literal).takeWhile (· = '0'), c = '0' := by
    intro c hc
    exact of_decide_eq_true (List.all_eq_true.mp List.all_takeWhile c hc)
  obtain ⟨j, hj⟩ := Text.exists_dropTrailing_append '0' ((digits literal).dropWhile (· = '0'))
  refine ⟨((digits literal).takeWhile (· = '0')).length, j, ?_⟩
  rw [significant, ← hj, ← List.eq_replicate_of_mem hzero, List.takeWhile_append_dropWhile]

/-- The number that the significant digits denote by themselves. -/
def coefficient (literal : Text) : Nat :=
  Nat.ofDigitChars 10 (significant literal) 0

section
variable (literal : Text)

theorem isDigit_of_mem_significant {c : Char} (h : c ∈ significant literal) : isDigit c = true := by
  obtain ⟨i, j, hij⟩ := exists_digits_eq literal
  have hmem : c ∈ digits literal := by
    rw [hij]
    exact List.mem_append_right _ (List.mem_append_left _ h)
  exact isDigit_of_mem_digits hmem

theorem coefficient_lt : coefficient literal < 10 ^ (significant literal).length :=
  Decimal.ofDigitChars_lt fun _ => isDigit_of_mem_significant literal

theorem exists_magnitude_eq (h : IsLiteral literal) :
    ∃ f e, magnitude literal = coefficient literal * 10 ^ f / 10 ^ e := by
  obtain ⟨i, j, hij⟩ := exists_digits_eq literal
  refine ⟨j, (fraction literal).length, ?_⟩
  have hvalue : Nat.ofDigitChars 10 (digits literal) 0 = coefficient literal * 10 ^ j := by
    rw [hij, Decimal.ofDigitChars_append, Decimal.ofDigitChars_append, Decimal.ofDigitChars_zeros,
      Decimal.ofDigitChars_zeros, List.length_replicate, Nat.zero_mul, Nat.zero_add, Nat.add_zero]
    rfl
  rw [magnitude_eq h, hvalue]
  push_cast
  rfl

/-- There is no zero in front of the significant digits. -/
theorem head?_significant : ∀ c ∈ (significant literal).head?, c ≠ '0' := by
  intro c hc
  obtain ⟨j, hj⟩ := Text.exists_dropTrailing_append '0' ((digits literal).dropWhile (· = '0'))
  have hhead := List.head?_dropWhile_not (· = '0') (digits literal)
  rw [hj, List.head?_append, show Text.dropTrailing (· = '0') _ = significant literal from rfl,
    Option.mem_def.mp hc] at hhead
  simpa using hhead

/-- There is no zero behind the significant digits. -/
theorem getLast?_significant : ∀ c ∈ (significant literal).getLast?, c ≠ '0' := by
  intro c hc
  exact of_decide_eq_false (Text.getLast?_dropTrailing _ _ c hc)

variable {literal} (h : significant literal ≠ [])
include h

theorem pow_le_coefficient : 10 ^ ((significant literal).length - 1) ≤ coefficient literal := by
  obtain ⟨c, s, hcs⟩ := List.exists_cons_of_ne_nil h
  have hdigit : isDigit c = true :=
    isDigit_of_mem_significant literal (hcs ▸ List.mem_cons_self)
  have hzero : c ≠ '0' := head?_significant literal c (by rw [hcs]; rfl)
  rw [coefficient, hcs]
  exact Decimal.pow_length_le_ofDigitChars hdigit hzero s

theorem coefficient_mod : coefficient literal % 10 ≠ 0 := by
  obtain ⟨s, c, hcs⟩ := List.eq_nil_or_concat' (significant literal) |>.resolve_left h
  have hdigit : isDigit c = true := by
    apply isDigit_of_mem_significant literal
    rw [hcs]
    exact List.mem_append_right s List.mem_cons_self
  have hzero : c ≠ '0' := by
    apply getLast?_significant literal
    rw [hcs, List.getLast?_concat]
    rfl
  rw [coefficient, hcs]
  exact Decimal.ofDigitChars_concat_mod hdigit hzero s

end

/-! ## The fewest digits -/

theorem HasDigits.mono {n k : Nat} {v : ℚ} (h : HasDigits n v) (hle : n ≤ k) : HasDigits k v := by
  obtain ⟨a, f, e, ha, hv⟩ := h
  exact ⟨a, f, e, Nat.lt_of_lt_of_le ha (Nat.pow_le_pow_right (by decide) hle), hv⟩

/-- What ten does not divide is the least of the numbers that differ from it by a power of ten. -/
theorem le_of_mul_pow_eq {a b i j : Nat} (hb : b % 10 ≠ 0) (h : b * 10 ^ i = a * 10 ^ j) :
    b ≤ a := by
  rcases Nat.lt_or_ge i j with hlt | hle
  · obtain ⟨k, rfl⟩ : ∃ k, j = i + (k + 1) := ⟨j - i - 1, by omega⟩
    have hcancel : b = a * 10 ^ (k + 1) := by
      apply Nat.eq_of_mul_eq_mul_right (Nat.pow_pos (by decide : 0 < 10) (n := i))
      rw [h, Nat.mul_assoc, ← Nat.pow_add, Nat.add_comm]
    rw [hcancel, Nat.pow_succ, ← Nat.mul_assoc, Nat.mul_mod_left] at hb
    exact absurd rfl hb
  · obtain ⟨k, rfl⟩ := Nat.exists_eq_add_of_le hle
    have hcancel : b * 10 ^ k = a := by
      apply Nat.eq_of_mul_eq_mul_right (Nat.pow_pos (by decide : 0 < 10) (n := j))
      rw [← h, Nat.mul_assoc, ← Nat.pow_add, Nat.add_comm]
    rw [← hcancel]
    exact Nat.le_mul_of_pos_right b (Nat.pow_pos (by decide))

/-- **The significant digits of a literal are the fewest that make up what it denotes.** -/
theorem length_significant_le_iff {literal : Text} (h : IsLiteral literal) {n : Nat} :
    (significant literal).length ≤ n ↔ HasDigits n (magnitude literal) := by
  obtain ⟨f, e, hvalue⟩ := exists_magnitude_eq literal h
  constructor
  · intro hle
    exact HasDigits.mono ⟨_, f, e, coefficient_lt literal, hvalue⟩ hle
  · rintro ⟨a, f', e', ha, hv⟩
    by_cases hnil : significant literal = []
    · rw [hnil]
      exact Nat.zero_le n
    · have hcross : coefficient literal * 10 ^ (f + e') = a * 10 ^ (f' + e) := by
        rw [hvalue, div_eq_div_iff (by positivity) (by positivity)] at hv
        rw [Nat.pow_add, Nat.pow_add, ← Nat.mul_assoc, ← Nat.mul_assoc]
        exact_mod_cast hv
      have hle : coefficient literal ≤ a := le_of_mul_pow_eq (coefficient_mod hnil) hcross
      have hlow : 10 ^ ((significant literal).length - 1) < 10 ^ n :=
        Nat.lt_of_le_of_lt ((pow_le_coefficient hnil).trans hle) ha
      have hlt := (Nat.pow_lt_pow_iff_right (by decide)).mp hlow
      omega

end Literal

end ArithTokens
