import ArithTokens.Text.Utf8

/-!
# Characters begun

The octets of a character are its first octet, which tells how many follow, and further ones of six
bits each.  What a decoder keeps of a character begun says which characters can come of it: those
that the octets so far are the beginning of.  So an octet leads on as long as some character goes
on with it, and ends the part where none does.

    utf8EncodeChar c = first octet :: further octets                        (utf8EncodeChar_eq)
    a lead octet is a character, begins one, or is ill-formed               (lead_cases)
    a further octet finishes a character, leads on, or is out of place      (extend_cases)
-/

namespace ArithTokens.Utf8

/-- The octets of a character begin with these. -/
def IsBeginning (octets : List UInt8) : Prop :=
  ∃ c, octets <+: String.utf8EncodeChar c

/-! ## The octets of a character -/

/-- The first octet of the character with the code point `n`. -/
def leadOf (n : Nat) : Nat :=
  if n < 0x80 then n
  else if n < 0x800 then 0xc0 + n / 64
  else if n < 0x10000 then 0xe0 + n / 4096
  else 0xf0 + n / 262144

/-- The number of further octets behind a first one. -/
def furtherCount (lead : Nat) : Nat :=
  if lead < 0x80 then 0 else if lead < 0xe0 then 1 else if lead < 0xf0 then 2 else 3

/-- The last `count` octets of the character with the code point `n`. -/
def further (n : Nat) : Nat → List UInt8
  | 0 => []
  | count + 1 => UInt8.ofNat (0x80 + n / Nat.pow 64 count % 64) :: further n count

theorem leadOf_eq_iff {n x : Nat} : leadOf n = x ↔
    (n < 0x80 ∧ n = x) ∨ (0x80 ≤ n ∧ n < 0x800 ∧ 0xc0 + n / 64 = x) ∨
      (0x800 ≤ n ∧ n < 0x10000 ∧ 0xe0 + n / 4096 = x) ∨
      (0x10000 ≤ n ∧ 0xf0 + n / 262144 = x) := by
  unfold leadOf
  split
  · omega
  split
  · omega
  split <;> omega

theorem length_further (n count : Nat) : (further n count).length = count := by
  induction count with
  | zero => rfl
  | succ count ih => rw [further, List.length_cons, ih]

/-- A further octet is six bits below its leading one. -/
theorem toNat_further (n : Nat) : (UInt8.ofNat (0x80 + n % 64)).toNat = 0x80 + n % 64 := by
  have hlt : 0x80 + n % 64 < UInt8.size := by
    show _ < 256
    omega
  exact UInt8.toNat_ofNat_of_lt' hlt

theorem toNat_ofNat {n : Nat} (h : n.isValidChar) : (Char.ofNat n).toNat = n := by
  have hn : Char.ofNat n = Char.ofNatAux n h := dif_pos h
  rw [hn]
  rfl

theorem toNat_lt (c : Char) : c.toNat < 0x110000 := by
  rcases c.valid with h | h
  · exact Nat.lt_trans h (by decide)
  · exact h.2

/-- A character is its first octet and its further ones. -/
theorem utf8EncodeChar_eq (c : Char) : String.utf8EncodeChar c =
    UInt8.ofNat (leadOf c.toNat) :: further c.toNat (furtherCount (leadOf c.toNat)) := by
  have hlt : c.toNat < 0x110000 := toNat_lt c
  rw [String.utf8EncodeChar.eq_1]
  change c.val.toNat < 0x110000 at hlt
  change _ = UInt8.ofNat (leadOf c.val.toNat) ::
    further c.val.toNat (furtherCount (leadOf c.val.toNat))
  generalize c.val.toNat = n at hlt ⊢
  have htail : ∀ k, k % 64 + 128 = 0x80 + k % 64 := fun k => Nat.add_comm _ _
  have hlast : n / Nat.pow 64 0 = n := Nat.div_one n
  by_cases h1 : n < 0x80
  · rw [if_pos (by omega), leadOf, if_pos h1, furtherCount, if_pos h1]
    rfl
  by_cases h2 : n < 0x800
  · have hlead : n / 64 % 32 + 192 = 0xc0 + n / 64 := by omega
    rw [if_neg (by omega), if_pos (by omega), leadOf, if_neg h1, if_pos h2, furtherCount,
      if_neg (by omega), if_pos (by omega), hlead]
    simp only [further, ← htail, hlast]
  by_cases h3 : n < 0x10000
  · have hlead : n / 4096 % 16 + 224 = 0xe0 + n / 4096 := by omega
    rw [if_neg (by omega), if_neg (by omega), if_pos (by omega), leadOf, if_neg h1, if_neg h2,
      if_pos h3, furtherCount, if_neg (by omega), if_neg (by omega), if_pos (by omega), hlead]
    simp only [further, ← htail, hlast]
  · have hlead : n / 262144 % 8 + 240 = 0xf0 + n / 262144 := by omega
    rw [if_neg (by omega), if_neg (by omega), if_neg (by omega), leadOf, if_neg h1, if_neg h2,
      if_neg h3, furtherCount, if_neg (by omega), if_neg (by omega), if_neg (by omega), hlead]
    simp only [further, ← htail, hlast]

theorem utf8EncodeChar_ne_nil (c : Char) : String.utf8EncodeChar c ≠ [] := by
  rw [utf8EncodeChar_eq]
  exact List.cons_ne_nil _ _

theorem leadOf_lt (c : Char) : leadOf c.toNat < 256 := by
  have hlt := toNat_lt c
  have h := leadOf_eq_iff.mp (rfl : leadOf c.toNat = leadOf c.toNat)
  omega

/-- A character begins with a single octet if it is its first one. -/
theorem singleton_prefix_iff {x : UInt8} {c : Char} :
    [x] <+: String.utf8EncodeChar c ↔ leadOf c.toNat = x.toNat := by
  rw [utf8EncodeChar_eq, List.cons_prefix_cons, ← UInt8.toNat_inj,
    UInt8.toNat_ofNat_of_lt' (leadOf_lt c)]
  exact ⟨fun h => h.1.symm, fun h => ⟨h.symm, List.nil_prefix⟩⟩

/-- No two characters stand in the same place. -/
theorem eq_of_append_eq {c d : Char} {s t : List UInt8}
    (h : String.utf8EncodeChar c ++ s = String.utf8EncodeChar d ++ t) : c = d := by
  have hc := @ByteArray.utf8DecodeChar?_utf8EncodeChar_append s.toByteArray c
  have hd := @ByteArray.utf8DecodeChar?_utf8EncodeChar_append t.toByteArray d
  rw [← List.toByteArray_append] at hc hd
  rw [h, hd] at hc
  exact (Option.some.inj hc).symm

theorem eq_of_prefix {c d : Char} (h : String.utf8EncodeChar c <+: String.utf8EncodeChar d) :
    c = d := by
  obtain ⟨t, ht⟩ := h
  have happ : String.utf8EncodeChar c ++ t = String.utf8EncodeChar d ++ [] := by
    rw [ht, List.append_nil]
  exact eq_of_append_eq happ

/-! ## Characters begun -/

/-- The code point can still come of the character begun. -/
def Begun.Covers (b : Begun) (n : Nat) : Prop :=
  b.value * 64 + (b.low - 0x80) ≤ n / Nat.pow 64 (b.missing - 1) ∧
    n / Nat.pow 64 (b.missing - 1) ≤ b.value * 64 + (b.high - 0x80)

/-- The character has been begun by these octets: what can come of it are the characters that they
are the beginning of, and the octets missing are the further ones of the character. -/
structure Begun.IsOf (b : Begun) (octets : List UInt8) : Prop where
  missing_pos : 1 ≤ b.missing
  low_le : 0x80 ≤ b.low
  low_le_high : b.low ≤ b.high
  high_le : b.high ≤ 0xbf
  valid : ∀ n, b.Covers n → n.isValidChar
  covers : ∀ c, octets <+: String.utf8EncodeChar c → b.Covers c.toNat
  eq_append : ∀ c : Char, b.Covers c.toNat →
    String.utf8EncodeChar c = octets ++ further c.toNat b.missing

theorem Begun.covers_succ {value count low high n : Nat} :
    (Begun.mk value (count + 1) low high).Covers n ↔
      value * 64 + (low - 0x80) ≤ n / Nat.pow 64 count ∧
        n / Nat.pow 64 count ≤ value * 64 + (high - 0x80) :=
  Iff.rfl

theorem Begun.covers_one {value low high n : Nat} : (Begun.mk value 1 low high).Covers n ↔
    value * 64 + (low - 0x80) ≤ n ∧ n ≤ value * 64 + (high - 0x80) := by
  show _ ≤ n / 1 ∧ n / 1 ≤ _ ↔ _
  rw [Nat.div_one]

theorem Begun.covers_two {value low high n : Nat} : (Begun.mk value 2 low high).Covers n ↔
    value * 64 + (low - 0x80) ≤ n / 64 ∧ n / 64 ≤ value * 64 + (high - 0x80) :=
  Iff.rfl

theorem Begun.covers_three {value low high n : Nat} : (Begun.mk value 3 low high).Covers n ↔
    value * 64 + (low - 0x80) ≤ n / 4096 ∧ n / 4096 ≤ value * 64 + (high - 0x80) :=
  Iff.rfl

/-- By its first octet a character is begun if that octet leads the code points that can come of
it, and no others. -/
theorem Begun.isOf_singleton {value missing low high : Nat} {x : UInt8}
    (hrange : 1 ≤ missing ∧ 0x80 ≤ low ∧ low ≤ high ∧ high ≤ 0xbf)
    (hcount : furtherCount x.toNat = missing)
    (h : ∀ n, (Begun.mk value missing low high).Covers n ↔
      n.isValidChar ∧ leadOf n = x.toNat) :
    (Begun.mk value missing low high).IsOf [x] where
  missing_pos := hrange.1
  low_le := hrange.2.1
  low_le_high := hrange.2.2.1
  high_le := hrange.2.2.2
  valid n hn := ((h n).mp hn).1
  covers c hc := (h c.toNat).mpr ⟨c.valid, singleton_prefix_iff.mp hc⟩
  eq_append c hc := by
    have hlead := ((h c.toNat).mp hc).2
    rw [utf8EncodeChar_eq, hlead, hcount, UInt8.ofNat_toNat]
    rfl

/-- The octets that have begun a character are the beginning of one. -/
theorem Begun.IsOf.isBeginning {b : Begun} {octets : List UInt8} (h : b.IsOf octets) :
    IsBeginning octets := by
  have hpow : 0 < Nat.pow 64 (b.missing - 1) := Nat.pow_pos (by decide)
  have hle := h.low_le_high
  have hcov : b.Covers ((b.value * 64 + (b.low - 0x80)) * Nat.pow 64 (b.missing - 1)) := by
    rw [Begun.Covers, Nat.mul_div_cancel _ hpow]
    omega
  have hvalue := toNat_ofNat (h.valid _ hcov)
  refine ⟨Char.ofNat ((b.value * 64 + (b.low - 0x80)) * Nat.pow 64 (b.missing - 1)), ?_⟩
  rw [h.eq_append _ (hvalue.symm ▸ hcov)]
  exact List.prefix_append _ _

theorem not_isBeginning_singleton {x : UInt8} (h : ∀ n : Nat, n.isValidChar → leadOf n ≠ x.toNat) :
    ¬IsBeginning [x] := by
  rintro ⟨c, hc⟩
  exact h c.toNat c.valid (singleton_prefix_iff.mp hc)

theorem utf8EncodeChar_ascii {x : UInt8} (h : x.toNat < 0x80) :
    String.utf8EncodeChar (Char.ofNat x.toNat) = [x] := by
  have hn : x.toNat.isValidChar := Or.inl (by omega)
  rw [utf8EncodeChar_eq, toNat_ofNat hn, leadOf, if_pos h, furtherCount, if_pos h,
    UInt8.ofNat_toNat]
  rfl

/-! ## Further octets -/

namespace Begun.IsOf

section
variable {value count low high : Nat} {octets : List UInt8}
  (h : (Begun.mk value (count + 1) low high).IsOf octets) {x : UInt8}
include h

/-- An octet is the next one of a character only if it gives the bits that follow. -/
theorem bits_of_prefix {c : Char} (hc : octets ++ [x] <+: String.utf8EncodeChar c) :
    (low ≤ x.toNat ∧ x.toNat ≤ high) ∧
      c.toNat / Nat.pow 64 count = value * 64 + (x.toNat - 0x80) := by
  have hlow : 0x80 ≤ low := h.low_le
  have hle : low ≤ high := h.low_le_high
  have hhigh : high ≤ 0xbf := h.high_le
  have hcov := h.covers c ((List.prefix_append octets [x]).trans hc)
  rw [h.eq_append c hcov, List.prefix_append_right_inj, further, List.cons_prefix_cons,
    ← UInt8.toNat_inj, toNat_further] at hc
  rw [Begun.covers_succ] at hcov
  omega

variable (hr : low ≤ x.toNat ∧ x.toNat ≤ high)
include hr

/-- The characters that have these bits go on with the octet. -/
theorem eq_append_of_bits {c : Char}
    (hc : c.toNat / Nat.pow 64 count = value * 64 + (x.toNat - 0x80)) :
    String.utf8EncodeChar c = octets ++ [x] ++ further c.toNat count := by
  have hlow : 0x80 ≤ low := h.low_le
  have hhigh : high ≤ 0xbf := h.high_le
  have hcov : (Begun.mk value (count + 1) low high).Covers c.toNat := by
    rw [Begun.covers_succ]
    omega
  have hoctet : 0x80 + (value * 64 + (x.toNat - 0x80)) % 64 = x.toNat := by omega
  rw [h.eq_append c hcov, further, hc, hoctet, UInt8.ofNat_toNat, List.append_assoc,
    List.singleton_append]

end

section
variable {value low high : Nat} {octets : List UInt8} {x : UInt8}
  (hr : low ≤ x.toNat ∧ x.toNat ≤ high)
include hr

/-- The last octet missing finishes a character. -/
theorem last (h : (Begun.mk value 1 low high).IsOf octets) :
    String.utf8EncodeChar (Char.ofNat (value * 64 + (x.toNat - 0x80))) = octets ++ [x] := by
  have hlow : 0x80 ≤ low := h.low_le
  have hvalid : (value * 64 + (x.toNat - 0x80)).isValidChar := by
    apply h.valid
    rw [Begun.covers_one]
    omega
  have hbits : (Char.ofNat (value * 64 + (x.toNat - 0x80))).toNat / Nat.pow 64 0 =
      value * 64 + (x.toNat - 0x80) := by
    rw [toNat_ofNat hvalid]
    exact Nat.div_one _
  rw [h.eq_append_of_bits hr hbits]
  exact List.append_nil _

/-- An octet before the last one missing leads on. -/
theorem next {count : Nat} (h : (Begun.mk value (count + 2) low high).IsOf octets) :
    (Begun.mk (value * 64 + (x.toNat - 0x80)) (count + 1) 0x80 0xbf).IsOf (octets ++ [x]) := by
  have hlow : 0x80 ≤ low := h.low_le
  have hdiv : ∀ n, n / Nat.pow 64 (count + 1) = n / Nat.pow 64 count / 64 := by
    intro n
    rw [Nat.div_div_eq_div_mul]
    rfl
  have hcovers : ∀ n, (Begun.mk (value * 64 + (x.toNat - 0x80)) (count + 1) 0x80 0xbf).Covers n ↔
      n / Nat.pow 64 (count + 1) = value * 64 + (x.toNat - 0x80) := by
    intro n
    rw [hdiv, Begun.covers_succ]
    omega
  have hrange : 0x80 ≤ 0xbf := by decide
  refine ⟨Nat.le_add_left 1 count, Nat.le_refl _, hrange, Nat.le_refl _, ?_, ?_, ?_⟩
  · intro n hn
    rw [hcovers] at hn
    apply h.valid
    rw [Begun.covers_succ]
    omega
  · intro c hc
    rw [hcovers]
    exact (h.bits_of_prefix hc).2
  · intro c hc
    rw [hcovers] at hc
    exact h.eq_append_of_bits hr hc

end

end Begun.IsOf

/-! ## Steps of the decoder -/

namespace Decoder

/-- A lead octet is a character, begins one, or is ill-formed by itself. -/
theorem lead_cases (found : List (Option Char)) (x : UInt8) :
    (∃ c, String.utf8EncodeChar c = [x] ∧ lead found x.toNat = ⟨none, some c :: found⟩) ∨
      (∃ b : Begun, b.IsOf [x] ∧ lead found x.toNat = ⟨some b, found⟩) ∨
      (¬IsBeginning [x] ∧ lead found x.toNat = ⟨none, none :: found⟩) := by
  have hx : x.toNat < 256 := x.toNat_lt
  have htwo : 0xe0 ≤ x.toNat → x.toNat < 0xf0 → furtherCount x.toNat = 2 := by
    intro hlow hhigh
    rw [furtherCount, if_neg (by omega), if_neg (by omega), if_pos hhigh]
  have hthree : 0xf0 ≤ x.toNat → furtherCount x.toNat = 3 := by
    intro hlow
    rw [furtherCount, if_neg (by omega), if_neg (by omega), if_neg (by omega)]
  obtain ⟨d, hd⟩ : ∃ d, lead found x.toNat = d := ⟨_, rfl⟩
  rw [hd]
  unfold lead at hd
  by_cases h80 : x.toNat < 0x80
  · rw [if_pos h80] at hd
    exact Or.inl ⟨_, utf8EncodeChar_ascii h80, hd.symm⟩
  rw [if_neg h80] at hd
  by_cases hc2 : x.toNat < 0xc2
  · rw [if_pos hc2] at hd
    refine Or.inr (Or.inr ⟨not_isBeginning_singleton fun n hn hlead => ?_, hd.symm⟩)
    rw [leadOf_eq_iff] at hlead
    omega
  rw [if_neg hc2] at hd
  -- the other octets begin characters: in each case these are the ones that come of it
  have hbegun : ∀ {b : Begun}, Decoder.mk (some b) found = d → b.IsOf [x] →
      (∃ c, String.utf8EncodeChar c = [x] ∧ d = ⟨none, some c :: found⟩) ∨
      (∃ b' : Begun, b'.IsOf [x] ∧ d = ⟨some b', found⟩) ∨
      (¬IsBeginning [x] ∧ d = ⟨none, none :: found⟩) :=
    fun hd hb => Or.inr (Or.inl ⟨_, hb, hd.symm⟩)
  by_cases he0 : x.toNat < 0xe0
  · rw [if_pos he0] at hd
    have hone : furtherCount x.toNat = 1 := by
      rw [furtherCount, if_neg h80, if_pos he0]
    refine hbegun hd (Begun.isOf_singleton (by decide) hone fun n => ?_)
    rw [Begun.covers_one, leadOf_eq_iff, Nat.isValidChar]
    omega
  rw [if_neg he0] at hd
  by_cases hoverlong : x.toNat = 0xe0
  · rw [if_pos hoverlong] at hd
    refine hbegun hd (Begun.isOf_singleton (by decide) (htwo (by omega) (by omega)) fun n => ?_)
    rw [Begun.covers_two, leadOf_eq_iff, Nat.isValidChar]
    omega
  rw [if_neg hoverlong] at hd
  by_cases hsurrogate : x.toNat = 0xed
  · rw [if_pos hsurrogate] at hd
    refine hbegun hd (Begun.isOf_singleton (by decide) (htwo (by omega) (by omega)) fun n => ?_)
    rw [Begun.covers_two, leadOf_eq_iff, Nat.isValidChar]
    omega
  rw [if_neg hsurrogate] at hd
  by_cases hf0 : x.toNat < 0xf0
  · rw [if_pos hf0] at hd
    refine hbegun hd (Begun.isOf_singleton (by decide) (htwo (by omega) (by omega)) fun n => ?_)
    rw [Begun.covers_two, leadOf_eq_iff, Nat.isValidChar]
    omega
  rw [if_neg hf0] at hd
  by_cases hoverlong' : x.toNat = 0xf0
  · rw [if_pos hoverlong'] at hd
    refine hbegun hd (Begun.isOf_singleton (by decide) (hthree (by omega)) fun n => ?_)
    rw [Begun.covers_three, leadOf_eq_iff, Nat.isValidChar]
    omega
  rw [if_neg hoverlong'] at hd
  by_cases hf4 : x.toNat < 0xf4
  · rw [if_pos hf4] at hd
    refine hbegun hd (Begun.isOf_singleton (by decide) (hthree (by omega)) fun n => ?_)
    rw [Begun.covers_three, leadOf_eq_iff, Nat.isValidChar]
    omega
  rw [if_neg hf4] at hd
  by_cases hlast : x.toNat = 0xf4
  · rw [if_pos hlast] at hd
    refine hbegun hd (Begun.isOf_singleton (by decide) (hthree (by omega)) fun n => ?_)
    rw [Begun.covers_three, leadOf_eq_iff, Nat.isValidChar]
    omega
  · rw [if_neg hlast] at hd
    refine Or.inr (Or.inr ⟨not_isBeginning_singleton fun n hn hlead => ?_, hd.symm⟩)
    rw [leadOf_eq_iff] at hlead
    rw [Nat.isValidChar] at hn
    omega

/-- A further octet finishes the character begun or leads it on; where it can do neither, the
octets so far are ill-formed, and it is taken as a lead octet. -/
theorem extend_cases (found : List (Option Char)) {b : Begun} {octets : List UInt8}
    (h : b.IsOf octets) (x : UInt8) :
    (∃ c, String.utf8EncodeChar c = octets ++ [x] ∧
        extend found b x.toNat = ⟨none, some c :: found⟩) ∨
      (∃ b' : Begun, b'.IsOf (octets ++ [x]) ∧ extend found b x.toNat = ⟨some b', found⟩) ∨
      (¬IsBeginning (octets ++ [x]) ∧ extend found b x.toNat = lead (none :: found) x.toNat) := by
  obtain ⟨value, missing, low, high⟩ := b
  have hpos : 1 ≤ missing := h.missing_pos
  unfold extend
  by_cases hr : low ≤ x.toNat ∧ x.toNat ≤ high
  · rw [if_pos hr]
    by_cases hone : missing = 1
    · subst hone
      exact Or.inl ⟨_, h.last hr, if_pos rfl⟩
    · obtain ⟨count, rfl⟩ : ∃ count, missing = count + 2 := ⟨missing - 2, by omega⟩
      exact Or.inr (Or.inl ⟨_, h.next hr, if_neg hone⟩)
  · rw [if_neg hr]
    refine Or.inr (Or.inr ⟨?_, rfl⟩)
    rintro ⟨c, hc⟩
    obtain ⟨count, rfl⟩ : ∃ count, missing = count + 1 := ⟨missing - 1, by omega⟩
    exact hr (h.bits_of_prefix hc).1

end Decoder

end ArithTokens.Utf8
