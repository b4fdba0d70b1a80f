import ArithTokens.Proofs.Grammar
import ArithTokens.Proofs.Rounding

/-!
# Reading back what is written

The written form of a decimal is a number literal that stands for the same number, with the zeros
at the end of its fraction left out.  The decimal that a finite number is written as rounds to that
number, so the number is read back as it was, its sign included.

    IsLiteral d.toLiteral                                                   (isLiteral_toLiteral)
    ofLiteral? d.toLiteral = some d.trimmed                                (ofLiteral?_toLiteral)
    ofDecimal d.trimmed = ofDecimal d                                         (ofDecimal_trimmed)
    m < infinity → nearestDecimal (shortest m) (places m) = m           (nearestDecimal_shortest)
    x.IsFinite → IsLiteral x.toText                                            (isLiteral_toText)
    x.IsFinite → ofLiteral? x.toText = some x                                 (ofLiteral?_toText)
-/

namespace ArithTokens

/-! ## Digits and their values -/

namespace Decimal

theorem ofDigitChars_append (s t : Text) :
    Nat.ofDigitChars 10 (s ++ t) 0 =
      Nat.ofDigitChars 10 s 0 * Nat.pow 10 t.length + Nat.ofDigitChars 10 t 0 := by
  rw [Nat.ofDigitChars_append, Nat.ofDigitChars_eq_ofDigitChars_zero, Nat.mul_comm]
  rfl

theorem ofDigitChars_zeros (n : Nat) : Nat.ofDigitChars 10 (List.replicate n '0') 0 = 0 := by
  rw [Nat.ofDigitChars_replicate_zero, Nat.mul_zero]

/-! ## The parts of the written form -/

variable (d : Decimal)

def sign : Text :=
  if d.negative then ['-'] else []

def whole : Text :=
  Text.ofNat (d.coefficient / Nat.pow 10 d.places)

/-- The decimal places that are written. -/
def fraction : Text :=
  d.fractionDigits.dropTrailing (· = '0')

/-- The decimal without the zeros at the end of its fraction. -/
def trimmed : Decimal :=
  ⟨d.negative, Nat.ofDigitChars 10 (d.whole ++ d.fraction) 0, d.fraction.length⟩

theorem toLiteral_eq :
    d.toLiteral = d.sign ++ (d.whole ++ if d.fraction = [] then [] else '.' :: d.fraction) :=
  List.append_assoc _ _ _

theorem sign_cases : d.sign = [] ∨ d.sign = ['-'] := by
  unfold sign
  cases d.negative
  · exact Or.inl rfl
  · exact Or.inr rfl

theorem sign_eq_minus : decide (d.sign = ['-']) = d.negative := by
  unfold sign
  cases d.negative <;> rfl

theorem exists_fractionDigits_eq :
    ∃ k, d.fractionDigits = d.fraction ++ List.replicate k '0' :=
  Text.exists_dropTrailing_append '0' d.fractionDigits

theorem isDigit_of_mem_fraction {c : Char} (h : c ∈ d.fraction) : isDigit c = true := by
  obtain ⟨k, hk⟩ := d.exists_fractionDigits_eq
  have hc : c ∈ d.fractionDigits := by
    rw [hk]
    exact List.mem_append_left _ h
  rcases List.mem_append.mp hc with hc | hc
  · rw [List.eq_of_mem_replicate hc]
    rfl
  · exact (isDigits_ofNat _).2 c hc

theorem ofDigitChars_fractionDigits :
    Nat.ofDigitChars 10 d.fractionDigits 0 = d.coefficient % Nat.pow 10 d.places := by
  rw [fractionDigits, Text.alignRight, ofDigitChars_append, ofDigitChars_zeros, Nat.zero_mul,
    Nat.zero_add, Text.ofDigitChars_ofNat]

theorem length_fractionDigits (h : 0 < d.places) : d.fractionDigits.length = d.places := by
  have hlt : d.coefficient % Nat.pow 10 d.places < Nat.pow 10 d.places :=
    Nat.mod_lt _ (Nat.pow_pos (by decide))
  have hle : (Text.ofNat (d.coefficient % Nat.pow 10 d.places)).length ≤ d.places :=
    (Nat.length_toDigits_le_iff (by decide) h).mpr hlt
  rw [fractionDigits, Text.length_alignRight, Nat.max_eq_left hle]

/-- No decimal places are written as one zero, which is trimmed. -/
theorem fraction_eq_nil (h : d.places = 0) : d.fraction = [] := by
  have hmod : d.coefficient % Nat.pow 10 0 = 0 := Nat.mod_one _
  rw [fraction, fractionDigits, h, hmod]
  rfl

/-- Trimming changes the form and not the number. -/
theorem exists_trimmed_eq :
    ∃ k, d.places = d.trimmed.places + k ∧
      d.coefficient = d.trimmed.coefficient * Nat.pow 10 k := by
  have hwhole : Nat.ofDigitChars 10 d.whole 0 = d.coefficient / Nat.pow 10 d.places :=
    Text.ofDigitChars_ofNat _
  by_cases h : d.places = 0
  · refine ⟨0, ?_, ?_⟩
    · rw [trimmed, d.fraction_eq_nil h, h]
      rfl
    · rw [trimmed, d.fraction_eq_nil h, List.append_nil, hwhole, h]
      exact ((Nat.mul_one _).trans (Nat.div_one _)).symm
  · obtain ⟨k, hk⟩ := d.exists_fractionDigits_eq
    have hplaces : d.places = d.fraction.length + k := by
      rw [← d.length_fractionDigits (Nat.pos_of_ne_zero h), hk, List.length_append,
        List.length_replicate]
    have hfraction : Nat.ofDigitChars 10 d.fraction 0 * Nat.pow 10 k =
        d.coefficient % Nat.pow 10 d.places := by
      rw [← d.ofDigitChars_fractionDigits, hk, ofDigitChars_append, ofDigitChars_zeros,
        List.length_replicate, Nat.add_zero]
    have hpow : Nat.pow 10 d.fraction.length * Nat.pow 10 k = Nat.pow 10 d.places := by
      rw [hplaces]
      exact (Nat.pow_add 10 _ _).symm
    refine ⟨k, hplaces, ?_⟩
    rw [trimmed, ofDigitChars_append, hwhole, Nat.add_mul, Nat.mul_assoc, hpow, hfraction]
    exact (Nat.div_add_mod' _ _).symm

/-! ## The written form read back -/

theorem isDigits_whole : IsDigits d.whole :=
  isDigits_ofNat _

theorem isDigits_fraction (h : d.fraction ≠ []) : IsDigits d.fraction :=
  ⟨h, fun _ => d.isDigit_of_mem_fraction⟩

theorem isLiteral_toLiteral : IsLiteral d.toLiteral := by
  have hw : IsInteger (d.sign ++ d.whole) :=
    ⟨d.sign, d.whole, d.sign_cases, d.isDigits_whole, rfl⟩
  rw [toLiteral_eq]
  split
  · rw [List.append_nil]
    exact .integer hw
  · next h =>
    rw [← List.append_assoc]
    exact .fraction hw (d.isDigits_fraction h)

theorem ofLiteral?_toLiteral : ofLiteral? d.toLiteral = some d.trimmed := by
  rw [toLiteral_eq, ofLiteral?_sign_append d.sign_cases (d.isDigits_whole.head?_any _),
    sign_eq_minus, trimmed]
  split
  · next h =>
    rw [h, List.append_nil, ofUnsigned?_digits _ d.isDigits_whole]
    rfl
  · next h =>
    exact ofUnsigned?_fraction _ d.isDigits_whole (d.isDigits_fraction h)

end Decimal

namespace Binary64

/-! ## Rounding what is written -/

theorem ofDecimal_trimmed (d : Decimal) : ofDecimal d.trimmed = ofDecimal d := by
  obtain ⟨k, hplaces, hcoefficient⟩ := d.exists_trimmed_eq
  have hmagnitude : nearestDecimal d.coefficient d.places =
      nearestDecimal d.trimmed.coefficient d.trimmed.places := by
    rw [hplaces, hcoefficient]
    exact nearestDecimal_mul_pow _ _ k
  simp only [ofDecimal, hmagnitude]
  rfl

/-- The exact decimal of a magnitude has its value. -/
theorem exact_mul_pow (m : Nat) :
    exact m * Nat.pow 2 unitPlaces = units m * Nat.pow 10 (places m) := by
  have hshift : shift m - unitPlaces + unitPlaces = shift m + places m := by
    unfold places
    omega
  have htwo : Nat.pow 2 (shift m - unitPlaces) * Nat.pow 2 unitPlaces =
      Nat.pow 2 (shift m) * Nat.pow 2 (places m) := by
    simp only [Nat.pow_eq]
    rw [← Nat.pow_add, ← Nat.pow_add, hshift]
  have hten : Nat.pow 10 (places m) = Nat.pow 2 (places m) * Nat.pow 5 (places m) :=
    Nat.mul_pow 2 5 _
  calc exact m * Nat.pow 2 unitPlaces
      = significand m * (Nat.pow 2 (shift m - unitPlaces) * Nat.pow 2 unitPlaces) *
          Nat.pow 5 (places m) := by
        rw [exact, Nat.mul_right_comm, Nat.mul_assoc (significand m)]
        rfl
    _ = units m * Nat.pow 10 (places m) := by
        rw [htwo, hten, units]
        simp only [Nat.mul_assoc]

theorem nearestDecimal_of_onGrid? {m step c : Nat} (h : onGrid? m step = some c) :
    nearestDecimal c (places m) = m := by
  unfold onGrid? at h
  simp only at h
  split at h
  · next hlow =>
    cases h
    exact hlow.1
  · split at h
    · next hhigh =>
      cases h
      exact hhigh
    · cases h

section
variable {m : Nat} (h : m < infinity)
include h

theorem nearestDecimal_exact : nearestDecimal (exact m) (places m) = m := by
  have hpow : 0 < Nat.pow 10 (places m) := Nat.pow_pos (by decide)
  have hone := nearest_mul_right hpow (units m) 1
  rw [nearestDecimal, exact_mul_pow]
  rwa [Nat.one_mul, nearest_units h] at hone

/-- Whatever the search answers reads back as the magnitude. -/
theorem nearestDecimal_shortest : nearestDecimal (shortest m) (places m) = m := by
  unfold shortest
  simp only
  cases hfound : (List.range (Text.ofNat (exact m)).length).findSome? fun k =>
      onGrid? m (Nat.pow 10 ((Text.ofNat (exact m)).length - 1 - k)) with
  | none => exact nearestDecimal_exact h
  | some c =>
    obtain ⟨k, -, hk⟩ := List.exists_of_findSome?_eq_some hfound
    exact nearestDecimal_of_onGrid? hk

end

/-! ## Finite numbers -/

/-- Neither infinite nor something else than a number. -/
def IsFinite (x : Binary64) : Prop :=
  x.magnitude < infinity

instance (x : Binary64) : Decidable x.IsFinite :=
  inferInstanceAs (Decidable (x.magnitude < infinity))

section
variable {x : Binary64} (h : x.IsFinite)
include h

theorem toText_of_isFinite :
    x.toText = (Decimal.mk x.negative (shortest x.magnitude) (places x.magnitude)).toLiteral := by
  have hnan : x.isNaN = false := decide_eq_false (Nat.not_lt.mpr (Nat.le_of_lt h))
  have hinf : x.magnitude ≠ infinity := Nat.ne_of_lt h
  simp only [toText, hnan, Bool.false_eq_true, if_false, hinf]

theorem isLiteral_toText : IsLiteral x.toText := by
  rw [toText_of_isFinite h]
  exact Decimal.isLiteral_toLiteral _

theorem ofLiteral?_toText : ofLiteral? x.toText = some x := by
  rw [toText_of_isFinite h, ofLiteral?, Decimal.ofLiteral?_toLiteral, Option.map_some,
    ofDecimal_trimmed]
  simp only [ofDecimal, nearestDecimal_shortest h]

end

end Binary64

end ArithTokens
