import ArithTokens.Lexeme

/-!
# The grammar of lexemes

What a number literal is, without saying how it is read, and which lexemes a scan can give.  A
lexeme is well formed by itself, and the character after it decides that it ends there; together
these two conditions leave one first lexeme for each text.

    first? s = some l ↔ ∃ rest, s = l.text ++ rest ∧ l.WellFormed ∧ l.EndsBefore rest.head?
                                                                     (first?_eq_some_iff)
    IsLiteral s → ∃ x, Binary64.ofLiteral? s = some x                (exists_ofLiteral?)
-/

namespace ArithTokens

/-! ## Literals -/

/-- One or more digits, `[0-9]+`. -/
def IsDigits (s : Text) : Prop :=
  s ≠ [] ∧ ∀ c ∈ s, isDigit c = true

/-- Digits with an optional sign, `-?[0-9]+`. -/
def IsInteger (s : Text) : Prop :=
  ∃ sign digits, (sign = [] ∨ sign = ['-']) ∧ IsDigits digits ∧ s = sign ++ digits

/-- An integer and a point, `-?[0-9]+\.`. -/
def IsOpenLiteral (s : Text) : Prop :=
  ∃ whole, IsInteger whole ∧ s = whole ++ ['.']

/-- A number literal, `-?[0-9]+(\.[0-9]+)?`. -/
inductive IsLiteral : Text → Prop
  | integer {whole : Text} : IsInteger whole → IsLiteral whole
  | fraction {whole digits : Text} :
      IsInteger whole → IsDigits digits → IsLiteral (whole ++ '.' :: digits)

/-- The character that the tokens of a kind are written as, where it is always the same. -/
def Kind.symbol? : Kind → Option Char
  | openParen => some '('
  | closeParen => some ')'
  | plus => some '+'
  | minus => some '-'
  | star => some '*'
  | slash => some '/'
  | endOfInput => none
  | number => none

/-- A character that is no blank and starts no token. -/
def IsStray (c : Char) : Prop :=
  isBlank c = false ∧ isDigit c = false ∧ ∀ kind : Kind, kind.symbol? ≠ some c

namespace Lexeme

/-- Whether the characters of a lexeme are what it says they are. -/
def WellFormed : Lexeme → Prop
  | symbol kind c => kind.symbol? = some c
  | number literal => IsLiteral literal
  | openFraction literal => IsOpenLiteral literal
  | stray c => IsStray c

/-- Whether a lexeme ends where `next` is the character after it, or nothing is. -/
def EndsBefore (next : Option Char) : Lexeme → Prop
  | symbol kind _ => kind = .minus → next.any isDigit = false
  | number literal => next.any isDigit = false ∧ ('.' ∉ literal → next ≠ some '.')
  | openFraction _ => next.any isDigit = false
  | stray _ => True

end Lexeme

/-! ## Characters -/

theorem isDigit_eq : isDigit = Char.isDigit := rfl

theorem isBlank_iff {c : Char} : isBlank c = true ↔ c = ' ' ∨ c = '\n' := by
  simp [isBlank]

theorem isDigit_of_isBlank {c : Char} (h : isBlank c = true) : isDigit c = false := by
  rcases isBlank_iff.mp h with rfl | rfl <;> rfl

theorem isBlank_of_isDigit {c : Char} (h : isDigit c = true) : isBlank c = false := by
  refine Bool.eq_false_iff.mpr fun hb => ?_
  rw [isDigit_of_isBlank hb] at h
  cases h

theorem ne_minus_of_isDigit {c : Char} (h : isDigit c = true) : c ≠ '-' := by
  rintro rfl
  cases h

theorem Kind.isDigit_of_symbol? {kind : Kind} {c : Char} (h : kind.symbol? = some c) :
    isDigit c = false := by
  cases kind <;> simp only [symbol?, Option.some.injEq, reduceCtorEq] at h <;> subst h <;> rfl

theorem Kind.isBlank_of_symbol? {kind : Kind} {c : Char} (h : kind.symbol? = some c) :
    isBlank c = false := by
  cases kind <;> simp only [symbol?, Option.some.injEq, reduceCtorEq] at h <;> subst h <;> rfl

/-- The minus sign is the only symbol that is not punctuation. -/
theorem Kind.ofPunctuation?_eq_some_iff {kind : Kind} {c : Char} :
    ofPunctuation? c = some kind ↔ kind.symbol? = some c ∧ kind ≠ .minus := by
  constructor
  · intro h
    unfold ofPunctuation? at h
    split at h
    · next hc => cases h; exact ⟨by rw [hc]; rfl, by decide⟩
    · split at h
      · next hc => cases h; exact ⟨by rw [hc]; rfl, by decide⟩
      · split at h
        · next hc => cases h; exact ⟨by rw [hc]; rfl, by decide⟩
        · split at h
          · next hc => cases h; exact ⟨by rw [hc]; rfl, by decide⟩
          · split at h
            · next hc => cases h; exact ⟨by rw [hc]; rfl, by decide⟩
            · cases h
  · rintro ⟨h, hk⟩
    cases kind <;> simp only [symbol?, Option.some.injEq, reduceCtorEq] at h
    all_goals subst h
    all_goals first | rfl | exact absurd rfl hk

theorem Kind.ofPunctuation?_of_isDigit {c : Char} (h : isDigit c = true) :
    ofPunctuation? c = none := by
  cases hk : ofPunctuation? c with
  | none => rfl
  | some kind =>
    rw [isDigit_of_symbol? (ofPunctuation?_eq_some_iff.mp hk).1] at h
    cases h

/-! ## Runs of digits -/

/-- Every text is a run of digits and a rest that starts with none. -/
theorem exists_digits_append (s : Text) :
    ∃ digits rest, s = digits ++ rest ∧ (∀ c ∈ digits, isDigit c = true) ∧
      rest.head?.any isDigit = false := by
  refine ⟨s.takeWhile isDigit, s.dropWhile isDigit, List.takeWhile_append_dropWhile.symm,
    List.all_eq_true.mp List.all_takeWhile, ?_⟩
  have h := List.head?_dropWhile_not isDigit s
  cases hd : (s.dropWhile isDigit).head? with
  | none => rfl
  | some c =>
    rw [hd] at h
    simpa using h

section
variable {digits rest : Text} (hd : ∀ c ∈ digits, isDigit c = true)
  (hr : rest.head?.any isDigit = false)

include hd hr

theorem takeWhile_digits : (digits ++ rest).takeWhile isDigit = digits := by
  rw [List.takeWhile_append_of_pos hd]
  cases rest with
  | nil => simp
  | cons c r => simp [show isDigit c = false from hr]

theorem dropWhile_digits : (digits ++ rest).dropWhile isDigit = rest := by
  have h := List.takeWhile_append_dropWhile (p := isDigit) (l := digits ++ rest)
  rw [takeWhile_digits hd hr] at h
  exact List.append_cancel_left h

end

theorem IsDigits.head?_any {s : Text} (h : IsDigits s) (rest : Text) :
    (s ++ rest).head?.any isDigit = true := by
  cases s with
  | nil => exact absurd rfl h.1
  | cons c s => exact h.2 c List.mem_cons_self

theorem IsDigits.notMem {s : Text} (h : IsDigits s) {c : Char} (hc : isDigit c = false) :
    c ∉ s := by
  intro hm
  rw [h.2 c hm] at hc
  cases hc

theorem isDigits_ofNat (n : Nat) : IsDigits (Text.ofNat n) :=
  ⟨Nat.toDigits_ne_nil, fun _ => Nat.isDigit_of_mem_toDigits (by decide) (by decide)⟩

theorem Text.lineFeed_notMem_ofNat (n : Nat) : '\n' ∉ ofNat n :=
  (isDigits_ofNat n).notMem rfl

theorem IsDigits.getLast?_any {s : Text} (h : IsDigits s) (before : Text) :
    (before ++ s).getLast?.any isDigit = true := by
  rw [List.getLast?_append, List.getLast?_eq_some_getLast h.1]
  exact h.2 _ (List.getLast_mem h.1)

theorem IsInteger.notMem {s : Text} (h : IsInteger s) {c : Char} (hm : c ≠ '-')
    (hd : isDigit c = false) : c ∉ s := by
  obtain ⟨sign, digits, hs, hdigits, rfl⟩ := h
  rw [List.mem_append, not_or]
  refine ⟨?_, hdigits.notMem hd⟩
  rcases hs with rfl | rfl
  · simp
  · simpa using hm

theorem IsInteger.point_notMem {s : Text} (h : IsInteger s) : '.' ∉ s :=
  h.notMem (by decide) rfl

/-- A literal has no characters but digits, a minus sign and a point. -/
theorem IsLiteral.notMem {s : Text} (h : IsLiteral s) {c : Char} (hm : c ≠ '-') (hp : c ≠ '.')
    (hd : isDigit c = false) : c ∉ s := by
  cases h with
  | integer hw => exact hw.notMem hm hd
  | fraction hw hf =>
    rw [List.mem_append, List.mem_cons, not_or, not_or]
    exact ⟨hw.notMem hm hd, hp, hf.notMem hd⟩

/-- An integer starts with a minus sign or a digit, and has only digits behind it. -/
theorem IsInteger.exists_cons {s : Text} (h : IsInteger s) :
    ∃ c r, s = c :: r ∧ (c = '-' ∨ isDigit c = true) ∧ ∀ d ∈ r, isDigit d = true := by
  obtain ⟨sign, digits, hs, hd, rfl⟩ := h
  rcases hs with rfl | rfl
  · cases digits with
    | nil => exact absurd rfl hd.1
    | cons c r => exact ⟨c, r, rfl, Or.inr (hd.2 c List.mem_cons_self),
        fun d hm => hd.2 d (List.mem_cons_of_mem c hm)⟩
  · exact ⟨'-', digits, rfl, Or.inl rfl, hd.2⟩

theorem IsLiteral.exists_cons {s : Text} (h : IsLiteral s) :
    ∃ c r, s = c :: r ∧ (c = '-' ∨ isDigit c = true) := by
  cases h with
  | integer hw =>
    obtain ⟨c, r, rfl, hc, _⟩ := hw.exists_cons
    exact ⟨c, r, rfl, hc⟩
  | fraction hw _ =>
    obtain ⟨c, r, rfl, hc, _⟩ := hw.exists_cons
    exact ⟨c, _, rfl, hc⟩

theorem IsLiteral.getLast?_any {s : Text} (h : IsLiteral s) : s.getLast?.any isDigit = true := by
  cases h with
  | integer hw =>
    obtain ⟨sign, digits, _, hd, rfl⟩ := hw
    exact hd.getLast?_any sign
  | @fraction whole digits _ hf =>
    have h := hf.getLast?_any (whole ++ ['.'])
    rwa [List.append_assoc] at h

theorem IsOpenLiteral.ne_nil {s : Text} (h : IsOpenLiteral s) : s ≠ [] := by
  obtain ⟨whole, _, rfl⟩ := h
  simp

/-! ## Reading literals -/

namespace Decimal

theorem ofUnsigned?_digits (negative : Bool) {s : Text} (h : IsDigits s) :
    ofUnsigned? negative s = some ⟨negative, Nat.ofDigitChars 10 s 0, 0⟩ := by
  have hn : ([] : Text).head?.any isDigit = false := rfl
  have ht : s.takeWhile Char.isDigit = s := by
    rw [← isDigit_eq]
    simpa using takeWhile_digits h.2 hn
  have hr : s.dropWhile Char.isDigit = [] := by
    rw [← isDigit_eq]
    simpa using dropWhile_digits h.2 hn
  unfold ofUnsigned?
  simp only [ht, hr, if_neg h.1]

theorem ofUnsigned?_fraction (negative : Bool) {s fraction : Text} (h : IsDigits s)
    (hf : IsDigits fraction) :
    ofUnsigned? negative (s ++ '.' :: fraction) =
      some ⟨negative, Nat.ofDigitChars 10 (s ++ fraction) 0, fraction.length⟩ := by
  have hp : ('.' :: fraction).head?.any isDigit = false := rfl
  have ht : (s ++ '.' :: fraction).takeWhile Char.isDigit = s := takeWhile_digits h.2 hp
  have hr : (s ++ '.' :: fraction).dropWhile Char.isDigit = '.' :: fraction :=
    dropWhile_digits h.2 hp
  have ha : fraction.all Char.isDigit = true := List.all_eq_true.mpr hf.2
  unfold ofUnsigned?
  simp only [ht, hr, if_neg h.1]
  exact if_pos ⟨trivial, hf.1, ha⟩

theorem ofLiteral?_sign_append {sign s : Text} (hs : sign = [] ∨ sign = ['-'])
    (hd : s.head?.any isDigit = true) :
    ofLiteral? (sign ++ s) = ofUnsigned? (sign = ['-']) s := by
  rcases hs with rfl | rfl
  · cases s with
    | nil => cases hd
    | cons c s =>
      have hm : c ≠ '-' := ne_minus_of_isDigit hd
      show ofLiteral? (c :: s) = _
      unfold ofLiteral?
      simp [hm]
  · rfl

end Decimal

theorem IsLiteral.exists_ofLiteral? {s : Text} (h : IsLiteral s) :
    ∃ x, Binary64.ofLiteral? s = some x := by
  unfold Binary64.ofLiteral?
  cases h with
  | integer hw =>
    obtain ⟨sign, digits, hs, hd, rfl⟩ := hw
    have hh := hd.head?_any []
    rw [List.append_nil] at hh
    rw [Decimal.ofLiteral?_sign_append hs hh, Decimal.ofUnsigned?_digits _ hd]
    exact ⟨_, rfl⟩
  | fraction hw hf =>
    obtain ⟨sign, digits, hs, hd, rfl⟩ := hw
    rw [List.append_assoc, Decimal.ofLiteral?_sign_append hs (hd.head?_any _),
      Decimal.ofUnsigned?_fraction _ hd hf]
    exact ⟨_, rfl⟩

/-! ## The first lexeme -/

namespace Lexeme

section
variable (sign : Text) {digits rest : Text} (hd : ∀ c ∈ digits, isDigit c = true)
  (hr : rest.head?.any isDigit = false)

include hd hr

theorem ofDigits_integer (hp : rest.head? ≠ some '.') :
    ofDigits sign (digits ++ rest) = number (sign ++ digits) := by
  unfold ofDigits
  rw [takeWhile_digits hd hr, dropWhile_digits hd hr]
  cases rest with
  | nil => rfl
  | cons c r =>
    have hc : c ≠ '.' := fun hc => hp (by rw [hc]; rfl)
    simp only [if_neg hc]

theorem ofDigits_open :
    ofDigits sign (digits ++ '.' :: rest) = openFraction (sign ++ digits ++ ['.']) := by
  have hp : ('.' :: rest).head?.any isDigit = false := rfl
  have hn : ∀ c ∈ ([] : Text), isDigit c = true := by simp
  have hf : rest.takeWhile isDigit = [] := takeWhile_digits hn hr
  unfold ofDigits
  rw [takeWhile_digits hd hp, dropWhile_digits hd hp]
  simp only [if_true, hf]

theorem ofDigits_fraction {fraction : Text} (hf : IsDigits fraction) :
    ofDigits sign (digits ++ '.' :: (fraction ++ rest)) =
      number (sign ++ digits ++ '.' :: fraction) := by
  have hp : ('.' :: (fraction ++ rest)).head?.any isDigit = false := rfl
  unfold ofDigits
  rw [takeWhile_digits hd hp, dropWhile_digits hd hp]
  simp only [if_true, takeWhile_digits hf.2 hr, if_neg hf.1]

end

theorem first?_symbol {kind : Kind} {c : Char} {s : Text} (hc : kind.symbol? = some c)
    (hs : kind = .minus → s.head?.any isDigit = false) :
    first? (c :: s) = some (symbol kind c) := by
  unfold first?
  by_cases hk : kind = .minus
  · subst hk
    cases hc
    have hn : Kind.ofPunctuation? '-' = none := rfl
    have hs : startsWithDigit s = false := hs rfl
    simp only [hn, hs, if_true, Bool.false_eq_true, if_false]
  · simp only [Kind.ofPunctuation?_eq_some_iff.mpr ⟨hc, hk⟩]

theorem first?_sign_append {sign s : Text} (hs : sign = [] ∨ sign = ['-'])
    (hd : s.head?.any isDigit = true) : first? (sign ++ s) = some (ofDigits sign s) := by
  rcases hs with rfl | rfl
  · cases s with
    | nil => cases hd
    | cons c s =>
      have hc : isDigit c = true := hd
      have hm : c ≠ '-' := ne_minus_of_isDigit hc
      show first? (c :: s) = _
      unfold first?
      simp only [Kind.ofPunctuation?_of_isDigit hc, if_neg hm, if_pos hc]
  · show first? ('-' :: s) = _
    have hn : Kind.ofPunctuation? '-' = none := rfl
    have hs : startsWithDigit s = true := hd
    unfold first?
    simp only [hn, hs, if_true]

theorem first?_stray {c : Char} (hc : IsStray c) (s : Text) : first? (c :: s) = some (stray c) := by
  have hm : c ≠ '-' := fun h => hc.2.2 .minus (by rw [h]; rfl)
  have hp : Kind.ofPunctuation? c = none := by
    cases hk : Kind.ofPunctuation? c with
    | none => rfl
    | some kind => exact absurd (Kind.ofPunctuation?_eq_some_iff.mp hk).1 (hc.2.2 kind)
  unfold first?
  simp only [hp, if_neg hm, hc.2.1, Bool.false_eq_true, if_false]

/-- A well-formed lexeme is the first one of every text in which it ends there. -/
theorem first?_text_append {l : Lexeme} {rest : Text} (hl : l.WellFormed)
    (hr : l.EndsBefore rest.head?) : first? (l.text ++ rest) = some l := by
  cases l with
  | symbol kind c => exact first?_symbol hl hr
  | number literal =>
    obtain ⟨hr, hp⟩ := hr
    cases hl with
    | integer hw =>
      have hpoint := hp hw.point_notMem
      obtain ⟨sign, digits, hs, hd, rfl⟩ := hw
      show first? (sign ++ digits ++ rest) = _
      rw [List.append_assoc, first?_sign_append hs (hd.head?_any rest),
        ofDigits_integer sign hd.2 hr hpoint]
    | @fraction whole fraction hw hf =>
      obtain ⟨sign, digits, hs, hd, rfl⟩ := hw
      have ht : (number (sign ++ digits ++ '.' :: fraction)).text ++ rest =
          sign ++ (digits ++ '.' :: (fraction ++ rest)) := by
        simp [text]
      rw [ht, first?_sign_append hs (hd.head?_any _), ofDigits_fraction sign hd.2 hr hf]
  | openFraction literal =>
    obtain ⟨whole, ⟨sign, digits, hs, hd, rfl⟩, rfl⟩ := hl
    have ht : (openFraction (sign ++ digits ++ ['.'])).text ++ rest =
        sign ++ (digits ++ '.' :: rest) := by
      simp [text]
    rw [ht, first?_sign_append hs (hd.head?_any _), ofDigits_open sign hd.2 hr]
  | stray c => exact first?_stray hl rest

/-- After a sign, or none, a text that starts with a digit starts with a number literal or an open
fraction. -/
theorem exists_wellFormed_of_digit (sign : Text) {s : Text} (hs : sign = [] ∨ sign = ['-'])
    (hd : s.head?.any isDigit = true) :
    ∃ (l : Lexeme) (rest : Text), sign ++ s = l.text ++ rest ∧ l.WellFormed ∧
      l.EndsBefore rest.head? := by
  obtain ⟨digits, rest, rfl, hall, hr⟩ := exists_digits_append s
  have hdigits : IsDigits digits := by
    refine ⟨?_, hall⟩
    rintro rfl
    rw [List.nil_append, hr] at hd
    cases hd
  have hw : IsInteger (sign ++ digits) := ⟨sign, digits, hs, hdigits, rfl⟩
  by_cases hp : rest.head? = some '.'
  · obtain ⟨more, rfl⟩ : ∃ more, rest = '.' :: more := by
      cases rest with
      | nil => cases hp
      | cons c more => cases hp; exact ⟨more, rfl⟩
    obtain ⟨fraction, more, rfl, hf, hm⟩ := exists_digits_append more
    by_cases hn : fraction = []
    · subst hn
      exact ⟨openFraction (sign ++ digits ++ ['.']), more, by simp [text], ⟨_, hw, rfl⟩, hm⟩
    · refine ⟨number (sign ++ digits ++ '.' :: fraction), more, by simp [text],
        .fraction hw ⟨hn, hf⟩, hm, fun h => absurd ?_ h⟩
      simp
  · exact ⟨number (sign ++ digits), rest, by simp [text], .integer hw, hr, fun _ => hp⟩

/-- A text that starts with no blank starts with a well-formed lexeme that ends there. -/
theorem exists_wellFormed {c : Char} {s : Text} (hc : isBlank c = false) :
    ∃ (l : Lexeme) (rest : Text), c :: s = l.text ++ rest ∧ l.WellFormed ∧
      l.EndsBefore rest.head? := by
  by_cases hd : isDigit c = true
  · exact exists_wellFormed_of_digit [] (Or.inl rfl) hd
  by_cases hk : ∃ kind : Kind, kind.symbol? = some c
  · obtain ⟨kind, hk⟩ := hk
    by_cases hm : kind = .minus ∧ s.head?.any isDigit = true
    · obtain ⟨rfl, hs⟩ := hm
      cases hk
      exact exists_wellFormed_of_digit ['-'] (Or.inr rfl) hs
    · refine ⟨symbol kind c, s, rfl, hk, fun h => ?_⟩
      exact Bool.eq_false_iff.mpr fun hs => hm ⟨h, hs⟩
  · exact ⟨stray c, s, rfl, ⟨hc, Bool.eq_false_iff.mpr hd, fun kind h => hk ⟨kind, h⟩⟩, trivial⟩

theorem first?_eq_some_iff {s : Text} (hs : s.head?.any isBlank = false) {l : Lexeme} :
    first? s = some l ↔ ∃ rest, s = l.text ++ rest ∧ l.WellFormed ∧ l.EndsBefore rest.head? := by
  constructor
  · intro h
    cases s with
    | nil => cases h
    | cons c s =>
      obtain ⟨l', rest, he, hl', hr⟩ := exists_wellFormed (s := s) hs
      rw [he, first?_text_append hl' hr] at h
      cases h
      exact ⟨rest, he, hl', hr⟩
  · rintro ⟨rest, rfl, hl, hr⟩
    exact first?_text_append hl hr

end Lexeme

end ArithTokens
