/-!
# Texts

A text is the list of its characters, so that offsets, lengths and columns count characters.
This module holds the few operations that the other modules share: dropping a tail, padding on
the left, writing a number, and ending lines.

Main statements: `dropTrailing_append_takeTrailing` (a text is what is kept followed by what is
dropped), `length_alignRight` (a padded text has the asked width, or is longer already), and
`append_cons_inj` and `intercalate_inj` (a separator that is in no piece tells the pieces apart).
-/

namespace ArithTokens

/-- A text is the list of its characters. -/
abbrev Text := List Char

namespace Text

/-! ## Operations -/

/-- The text without the longest tail of characters in `p`. -/
def dropTrailing (p : Char → Bool) (s : Text) : Text :=
  (s.reverse.dropWhile p).reverse

/-- The longest tail of characters in `p`. -/
def takeTrailing (p : Char → Bool) (s : Text) : Text :=
  (s.reverse.takeWhile p).reverse

/-- The text filled up on the left to at least `width` characters. -/
def alignRight (fill : Char) (width : Nat) (s : Text) : Text :=
  List.replicate (width - s.length) fill ++ s

/-- A natural number in decimal digits. -/
def ofNat (n : Nat) : Text :=
  Nat.toDigits 10 n

/-- The lines one after the other, each ended by a line feed. -/
def ofLines (lines : List Text) : Text :=
  lines.flatMap fun line => line ++ ['\n']

/-! ## Lemmas -/

theorem dropTrailing_append_takeTrailing (p : Char → Bool) (s : Text) :
    dropTrailing p s ++ takeTrailing p s = s := by
  unfold dropTrailing takeTrailing
  rw [← List.reverse_append, List.takeWhile_append_dropWhile, List.reverse_reverse]

theorem forall_mem_takeTrailing (p : Char → Bool) (s : Text) :
    ∀ c ∈ takeTrailing p s, p c = true := by
  intro c hc
  exact List.all_eq_true.mp List.all_takeWhile c (List.mem_reverse.mp hc)

theorem getLast?_dropTrailing (p : Char → Bool) (s : Text) :
    ∀ c ∈ (dropTrailing p s).getLast?, p c = false := by
  intro c hc
  have h := List.head?_dropWhile_not p s.reverse
  rw [dropTrailing, List.getLast?_reverse] at hc
  rw [Option.mem_def.mp hc] at h
  simpa using h

/-- Only one character is dropped, so the tail is told by its length. -/
theorem exists_dropTrailing_append (c : Char) (s : Text) :
    ∃ k, s = s.dropTrailing (· = c) ++ List.replicate k c := by
  have hsame : ∀ d ∈ s.takeTrailing (· = c), d = c := by
    intro d hd
    exact of_decide_eq_true (forall_mem_takeTrailing _ _ d hd)
  refine ⟨(s.takeTrailing (· = c)).length, ?_⟩
  rw [← List.eq_replicate_of_mem hsame]
  exact (dropTrailing_append_takeTrailing _ _).symm

/-- What is kept reaches up to the last character that is not in `p`. -/
theorem lt_length_dropTrailing_iff {p : Char → Bool} {s : Text} {i : Nat} :
    i < (dropTrailing p s).length ↔ ∃ c ∈ s.drop i, p c = false := by
  have hs := dropTrailing_append_takeTrailing p s
  constructor
  · intro hi
    have hn : (dropTrailing p s).drop i ≠ [] := by
      rw [ne_eq, List.drop_eq_nil_iff]
      omega
    obtain ⟨c, hc⟩ : ∃ c, ((dropTrailing p s).drop i).getLast? = some c :=
      ⟨_, List.getLast?_eq_some_getLast hn⟩
    have hmem := List.mem_of_getLast? hc
    rw [List.getLast?_drop, if_neg (Nat.not_le.mpr hi)] at hc
    refine ⟨c, ?_, getLast?_dropTrailing p s c hc⟩
    rw [← hs, List.drop_append_of_le_length (Nat.le_of_lt hi)]
    exact List.mem_append_left _ hmem
  · rintro ⟨c, hc, hp⟩
    apply Nat.lt_of_not_le
    intro hi
    rw [← hs, List.drop_append, List.drop_eq_nil_iff.mpr hi, List.nil_append] at hc
    rw [forall_mem_takeTrailing p s c (List.mem_of_mem_drop hc)] at hp
    cases hp

theorem length_alignRight (fill : Char) (width : Nat) (s : Text) :
    (alignRight fill width s).length = max width s.length := by
  simp only [alignRight, List.length_append, List.length_replicate]
  omega

/-! ## Texts taken apart -/

/-- The first occurrence of a character tells what is before it from what is behind it. -/
theorem append_cons_inj {c : Char} {a b s t : Text} (ha : c ∉ a) (hb : c ∉ b)
    (h : a ++ c :: s = b ++ c :: t) : a = b ∧ s = t := by
  rcases List.append_eq_append_iff.mp h with ⟨r, rfl, hr⟩ | ⟨r, rfl, hr⟩
  · cases r with
    | nil => simpa using hr
    | cons d r =>
      obtain ⟨rfl, -⟩ := List.cons.inj hr
      simp at hb
  · cases r with
    | nil => simpa using hr.symm
    | cons d r =>
      obtain ⟨rfl, -⟩ := List.cons.inj hr
      simp at ha

/-- Pieces without the first character of the separator can be told apart. -/
theorem intercalate_inj {c : Char} (sep : Text) {as bs : List Text}
    (ha : ∀ a ∈ as, a ≠ [] ∧ c ∉ a) (hb : ∀ b ∈ bs, b ≠ [] ∧ c ∉ b)
    (h : (c :: sep).intercalate as = (c :: sep).intercalate bs) : as = bs := by
  induction as generalizing bs with
  | nil =>
    cases bs with
    | nil => rfl
    | cons b bs =>
      have hne := (hb b List.mem_cons_self).1
      cases bs <;> simp_all
  | cons a as ih =>
    obtain ⟨⟨hane, hac⟩, has⟩ := List.forall_mem_cons.mp ha
    cases bs with
    | nil => cases as <;> simp_all
    | cons b bs =>
      obtain ⟨⟨hbne, hbc⟩, hbs⟩ := List.forall_mem_cons.mp hb
      cases as with
      | nil =>
        cases bs with
        | nil => simpa using h
        | cons b' bs =>
          -- the separator would be in the only piece on the left
          rw [List.intercalate_singleton, List.intercalate_cons_cons] at h
          rw [h] at hac
          simp at hac
      | cons a' as =>
        cases bs with
        | nil =>
          rw [List.intercalate_singleton, List.intercalate_cons_cons] at h
          rw [← h] at hbc
          simp at hbc
        | cons b' bs =>
          rw [List.intercalate_cons_cons, List.intercalate_cons_cons, List.append_assoc,
            List.append_assoc, List.cons_append, List.cons_append] at h
          obtain ⟨rfl, hrest⟩ := append_cons_inj hac hbc h
          rw [ih has hbs (List.append_cancel_left hrest)]

/-- The digits of a number are read back as the number. -/
theorem ofDigitChars_ofNat (n : Nat) : Nat.ofDigitChars 10 (ofNat n) 0 = n :=
  Nat.ofDigitChars_toDigits (by decide) (by decide)

theorem ofNat_inj {m n : Nat} (h : ofNat m = ofNat n) : m = n := by
  have hread := congrArg (Nat.ofDigitChars 10 · 0) h
  simpa only [ofDigitChars_ofNat] using hread

end Text

end ArithTokens
