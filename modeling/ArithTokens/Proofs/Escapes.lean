import ArithTokens.Proofs.Grammar

/-!
# Escaped texts read back

A quoted character is a backslash and a letter, a code point between braces, or the character as it
stands, and the first characters tell which.  So a quoted text is read back from the front, one
character at a time, and its closing mark is the first one that no backslash escapes.  None of this
is a control character, since these are all escaped.

    within mark c is one of the three forms                                       (within_cases)
    read? (within mark c ++ s) = some (c, s)                                      (read?_within)
    quoted mark s ++ a = quoted mark t ++ b → s = t ∧ a = b                  (quoted_append_inj)
    HasNoControl (quoted mark s)                                           (hasNoControl_quoted)
-/

namespace ArithTokens

/-! ## Definitions -/

/-- A control character, U+0000 to U+001F or U+007F to U+009F. -/
def IsControl (c : Char) : Prop :=
  c.toNat ≤ 0x1f ∨ (0x7f ≤ c.toNat ∧ c.toNat ≤ 0x9f)

instance (c : Char) : Decidable (IsControl c) :=
  inferInstanceAs (Decidable (c.toNat ≤ 0x1f ∨ (0x7f ≤ c.toNat ∧ c.toNat ≤ 0x9f)))

/-- There is no control character in the text, so that it is one line. -/
def HasNoControl (s : Text) : Prop :=
  ∀ c ∈ s, ¬IsControl c

-- by the characters of the text, since all characters can be decided over as well
instance (s : Text) : Decidable (HasNoControl s) :=
  List.decidableBAll (fun c => ¬IsControl c) s

namespace Escape

/-- The marks that texts are quoted with. -/
def IsMark (mark : Char) : Prop :=
  mark = '\'' ∨ mark = '"'

def hexDigit (c : Char) : Nat :=
  if isDigit c then c.toNat - '0'.toNat else c.toNat - 'a'.toNat + 10

def hexNumber (s : Text) : Nat :=
  s.foldl (fun n c => 16 * n + hexDigit c) 0

/-- What a character behind a backslash stands for, if it is not the start of a code point. -/
def ofLetter (c : Char) : Char :=
  if c = '0' then '\x00'
  else if c = 't' then '\t'
  else if c = 'r' then '\r'
  else if c = 'n' then '\n'
  else c

/-- The character at the front of a quoted text, and what is behind it. -/
def read? : Text → Option (Char × Text)
  | [] => none
  | [c] => if c = '\\' then none else some (c, [])
  | c :: d :: s =>
    if c ≠ '\\' then some (c, d :: s)
    else if d ≠ 'u' then some (ofLetter d, s)
    else
      let digits := s.drop 1
      some (Char.ofNat (hexNumber (digits.takeWhile (· ≠ '\x7d'))),
        (digits.dropWhile (· ≠ '\x7d')).drop 1)

end Escape

/-! ## Control characters -/

theorem not_isControl_of_isDigit {c : Char} (h : isDigit c = true) : ¬IsControl c := by
  obtain ⟨hlow, hhigh⟩ := Char.isDigit_iff_toNat.mp h
  have hzero : '0'.toNat = 0x30 := rfl
  have hnine : '9'.toNat = 0x39 := rfl
  unfold IsControl
  omega

theorem HasNoControl.append {s t : Text} (hs : HasNoControl s) (ht : HasNoControl t) :
    HasNoControl (s ++ t) :=
  List.forall_mem_append.mpr ⟨hs, ht⟩

theorem HasNoControl.lineFeed_notMem {s : Text} (h : HasNoControl s) : '\n' ∉ s :=
  fun hm => h '\n' hm (by decide)

theorem hasNoControl_ofNat (n : Nat) : HasNoControl (Text.ofNat n) :=
  fun c hc => not_isControl_of_isDigit ((isDigits_ofNat n).2 c hc)

/-- Control characters without a letter are unprintable. -/
theorem Unprintable.isUnprintable_of_isControl {c : Char} (h : IsControl c) (h0 : c.toNat ≠ 0)
    (ht : c ≠ '\t') (hr : c ≠ '\r') (hn : c ≠ '\n') : isUnprintable c = true := by
  have htab : c.toNat ≠ 0x09 := fun he => ht (Char.toNat_inj.mp he)
  have hreturn : c.toNat ≠ 0x0d := fun he => hr (Char.toNat_inj.mp he)
  have hfeed : c.toNat ≠ 0x0a := fun he => hn (Char.toNat_inj.mp he)
  have hranges : ∀ r ∈ [(0x1, 0x8), (0xb, 0xc), (0xe, 0x1f), (0x7f, 0xa0)], r ∈ ranges := by
    decide +kernel
  rw [isUnprintable_iff]
  unfold IsControl at h
  have hin : ∃ r ∈ [(0x1, 0x8), (0xb, 0xc), (0xe, 0x1f), (0x7f, 0xa0)],
      r.1 ≤ c.toNat ∧ c.toNat ≤ r.2 := by
    simp only [List.mem_cons, List.not_mem_nil, or_false, exists_eq_or_imp, exists_eq_left]
    omega
  obtain ⟨r, hr, hbounds⟩ := hin
  exact ⟨r, hranges r hr, hbounds⟩

/-! ## Hexadecimal digits -/

/-- What a number is written with in any base are digits of that base. -/
theorem exists_digitChar_of_mem {base : Nat} (hb : 1 < base) {n : Nat} {c : Char}
    (h : c ∈ Nat.toDigits base n) : ∃ d < base, c = d.digitChar := by
  induction n using Nat.strongRecOn with
  | ind n ih =>
    rw [Nat.toDigits_eq_if hb] at h
    split at h
    · next hn => exact ⟨n, hn, List.mem_singleton.mp h⟩
    · next hn =>
      rcases List.mem_append.mp h with h | h
      · exact ih (n / base) (Nat.div_lt_self (by omega) hb) h
      · exact ⟨n % base, Nat.mod_lt n (by omega), List.mem_singleton.mp h⟩

namespace Escape

theorem hexNumber_toDigits (n : Nat) : hexNumber (Nat.toDigits 16 n) = n := by
  have hdigit : ∀ d < 16, hexDigit d.digitChar = d := by decide
  induction n using Nat.strongRecOn with
  | ind n ih =>
    rw [Nat.toDigits_eq_if (by decide)]
    split
    · next hn =>
      have hone := hdigit n hn
      simpa [hexNumber] using hone
    · have hrest := ih (n / 16) (by omega)
      have hlast := hdigit (n % 16) (by omega)
      unfold hexNumber at hrest ⊢
      rw [List.foldl_append, hrest, List.foldl_cons, List.foldl_nil, hlast]
      omega

theorem hasNoControl_codePoint (c : Char) : HasNoControl (codePoint c) := by
  have hdigit : ∀ d < 16, ¬IsControl (Nat.digitChar d) := by decide
  have hdigits : HasNoControl (Nat.toDigits 16 c.toNat) := by
    intro x hx
    obtain ⟨d, hd, rfl⟩ := exists_digitChar_of_mem (by decide) hx
    exact hdigit d hd
  have hopen : HasNoControl ['\\', 'u', '\x7b'] := by decide
  have hclose : HasNoControl ['\x7d'] := by decide
  exact (hopen.append hdigits).append hclose

theorem hasNoControl_ascii (c : Char) : HasNoControl (ascii c) := by
  unfold ascii
  split
  · decide
  split
  · decide
  split
  · decide
  split
  · next hc => rcases hc with rfl | rfl | rfl <;> decide
  split
  · next hc =>
    intro x hx
    obtain rfl := List.mem_singleton.mp hx
    unfold IsControl
    omega
  · exact hasNoControl_codePoint c

/-! ## Quoted characters -/

section
variable {mark : Char} (hm : IsMark mark)
include hm

/-- The three forms of a quoted character. -/
theorem within_cases (c : Char) :
    (∃ l, within mark c = ['\\', l] ∧ l ≠ 'u' ∧ ofLetter l = c ∧ ¬IsControl l) ∨
      within mark c = codePoint c ∨
      (within mark c = [c] ∧ c ≠ '\\' ∧ c ≠ mark ∧ ¬IsControl c) := by
  unfold within
  split
  · next h0 =>
    obtain rfl : c = '\x00' := Char.toNat_inj.mp h0
    exact Or.inl ⟨'0', rfl, by decide⟩
  next h0 =>
  split
  · next ht => exact Or.inl ⟨'t', rfl, by decide, ht.symm, by decide⟩
  next ht =>
  split
  · next hr => exact Or.inl ⟨'r', rfl, by decide, hr.symm, by decide⟩
  next hr =>
  split
  · next hn => exact Or.inl ⟨'n', rfl, by decide, hn.symm, by decide⟩
  next hn =>
  split
  · next hc =>
    refine Or.inl ⟨c, rfl, ?_⟩
    rcases hm with rfl | rfl <;> rcases hc with rfl | rfl <;> decide
  next hc =>
  rw [not_or] at hc
  split
  · exact Or.inr (Or.inl rfl)
  · next hu =>
    refine Or.inr (Or.inr ⟨rfl, hc.1, hc.2, fun hcontrol => hu ?_⟩)
    exact Unprintable.isUnprintable_of_isControl hcontrol h0 ht hr hn

/-- A quoted character is read back, whatever follows it. -/
theorem read?_within (c : Char) (s : Text) : read? (within mark c ++ s) = some (c, s) := by
  rcases within_cases hm c with ⟨l, hl, hu, hc, -⟩ | hcode | ⟨hself, hb, -, -⟩
  · rw [hl]
    simp [read?, hu, hc]
  · have hclose : ∀ x ∈ Nat.toDigits 16 c.toNat, decide (x ≠ '\x7d') = true := by
      have hdigit : ∀ d < 16, decide (Nat.digitChar d ≠ '\x7d') = true := by decide
      intro x hx
      obtain ⟨d, hd, rfl⟩ := exists_digitChar_of_mem (by decide) hx
      exact hdigit d hd
    have htext : within mark c ++ s =
        '\\' :: 'u' :: '\x7b' :: (Nat.toDigits 16 c.toNat ++ '\x7d' :: s) := by
      rw [hcode]
      simp [codePoint]
    rw [htext]
    simp only [read?, ne_eq, not_true_eq_false, if_false, List.drop_one, List.tail_cons]
    rw [List.takeWhile_append_of_pos hclose, List.dropWhile_append_of_pos hclose]
    simp [hexNumber_toDigits, Char.ofNat_toNat]
  · rw [hself]
    cases s <;> simp [read?, hb]

/-- The closing mark is told from every quoted character. -/
theorem mark_cons_ne (c : Char) (s t : Text) : mark :: s ≠ within mark c ++ t := by
  have hb : mark ≠ '\\' := by
    rcases hm with rfl | rfl <;> decide
  intro h
  rcases within_cases hm c with ⟨l, hl, -⟩ | hcode | ⟨hself, -, hne, -⟩
  · rw [hl] at h
    exact hb (List.cons.inj h).1
  · rw [hcode] at h
    exact hb (List.cons.inj h).1
  · rw [hself] at h
    exact hne (List.cons.inj h).1.symm

theorem hasNoControl_within (c : Char) : HasNoControl (within mark c) := by
  rcases within_cases hm c with ⟨l, hl, -, -, hcontrol⟩ | hcode | ⟨hself, -, -, hcontrol⟩
  · rw [hl]
    have hb : HasNoControl ['\\'] := by decide
    exact hb.append (t := [l]) (by simpa [HasNoControl] using hcontrol)
  · rw [hcode]
    exact hasNoControl_codePoint c
  · rw [hself]
    simpa [HasNoControl] using hcontrol

/-! ## Quoted texts -/

/-- A quoted text is read back to its closing mark, whatever follows it. -/
theorem quoted_append_inj {s t a b : Text} (h : quoted mark s ++ a = quoted mark t ++ b) :
    s = t ∧ a = b := by
  have hinner : s.flatMap (within mark) ++ mark :: a = t.flatMap (within mark) ++ mark :: b := by
    simpa [quoted] using h
  clear h
  induction s generalizing t with
  | nil =>
    cases t with
    | nil => exact ⟨rfl, (List.cons.inj hinner).2⟩
    | cons d t =>
      rw [List.flatMap_cons, List.append_assoc] at hinner
      exact absurd hinner (mark_cons_ne hm d _ _)
  | cons c s ih =>
    cases t with
    | nil =>
      rw [List.flatMap_cons, List.append_assoc] at hinner
      exact absurd hinner.symm (mark_cons_ne hm c _ _)
    | cons d t =>
      rw [List.flatMap_cons, List.flatMap_cons, List.append_assoc, List.append_assoc] at hinner
      have hread := congrArg read? hinner
      rw [read?_within hm, read?_within hm, Option.some.injEq, Prod.mk.injEq] at hread
      obtain ⟨rfl, hrest⟩ := hread
      obtain ⟨rfl, rfl⟩ := ih hrest
      exact ⟨rfl, rfl⟩

theorem hasNoControl_quoted (s : Text) : HasNoControl (quoted mark s) := by
  have hmark : HasNoControl [mark] := by
    rcases hm with rfl | rfl <;> decide
  have hinner : HasNoControl (s.flatMap (within mark)) := by
    intro x hx
    obtain ⟨c, -, hc⟩ := List.mem_flatMap.mp hx
    exact hasNoControl_within hm c x hc
  exact (hmark.append hinner).append hmark

end

end Escape

end ArithTokens
