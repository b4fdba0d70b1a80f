import ArithTokens.Proofs.Concatenation

/-!
# The local form of accepted texts

Whether a text has tokens can be told without cutting it.  Each character has to be one that can
stand in a text, each point has to stand between two digits, and two points have to be kept apart
by something that is no digit.  Nothing is said about tokens, about signs, or about the order in
which the text is read.

    IsAccepted s ↔ s.length ≤ Position.greatest ∧ IsLocallyFormed s
                                                           (isAccepted_iff_isLocallyFormed)

A scan can stop at a point only where the point follows no digit, or follows digits that follow
a point already.
-/

namespace ArithTokens

/-! ## Definition -/

/-- Each character is allowed, and each point is where a point can be. -/
structure IsLocallyFormed (s : Text) : Prop where
  /-- A character is a blank, a symbol, a point or a digit. -/
  allowed : ∀ c ∈ s, c ∈ " \n()*/+-.".toList ∨ isDigit c = true
  /-- Right before a point there is a digit. -/
  digit_before : ∀ i : Nat, s[i]? = some '.' → ∃ k, k + 1 = i ∧ s[k]?.any isDigit = true
  /-- Right behind a point there is a digit. -/
  digit_behind : ∀ i : Nat, s[i]? = some '.' → s[i + 1]?.any isDigit = true
  /-- Between two points there is a character that is no digit. -/
  apart : ∀ i j : Nat, i < j → s[i]? = some '.' → s[j]? = some '.' →
    ∃ k c, i < k ∧ k < j ∧ s[k]? = some c ∧ isDigit c = false

/-! ## Locally formed pieces -/

/-- Behind the first piece of a text the characters are those of the second one. -/
theorem getElem?_append_add (a b : Text) (i : Nat) : (a ++ b)[a.length + i]? = b[i]? := by
  rw [List.getElem?_append_right (by omega), Nat.add_sub_cancel_left]

/-- A text without points only needs allowed characters. -/
theorem isLocallyFormed_of_notMem {s : Text} (hp : '.' ∉ s)
    (h : ∀ c ∈ s, c ∈ " \n()*/+-.".toList ∨ isDigit c = true) : IsLocallyFormed s where
  allowed := h
  digit_before _ hi := absurd (List.mem_of_getElem? hi) hp
  digit_behind _ hi := absurd (List.mem_of_getElem? hi) hp
  apart _ _ _ hi := absurd (List.mem_of_getElem? hi) hp

theorem isLocallyFormed_singleton {c : Char} (hp : c ≠ '.') (h : c ∈ " \n()*/+-.".toList) :
    IsLocallyFormed [c] :=
  isLocallyFormed_of_notMem (by simpa using hp.symm) (List.forall_mem_singleton.mpr (Or.inl h))

theorem Kind.allowed_of_symbol? {kind : Kind} {c : Char} (h : kind.symbol? = some c) :
    c ≠ '.' ∧ c ∈ " \n()*/+-.".toList := by
  cases kind <;> simp only [symbol?, Option.some.injEq, reduceCtorEq] at h <;> subst h <;> decide

theorem allowed_of_isBlank {c : Char} (h : isBlank c = true) :
    c ≠ '.' ∧ c ∈ " \n()*/+-.".toList := by
  rcases isBlank_iff.mp h with rfl | rfl <;> decide

theorem IsDigits.point_notMem {s : Text} (h : IsDigits s) : '.' ∉ s := by
  intro hm
  exact absurd (h.2 _ hm) (by decide)

theorem IsInteger.allowed {s : Text} (h : IsInteger s) :
    ∀ c ∈ s, c ∈ " \n()*/+-.".toList ∨ isDigit c = true := by
  obtain ⟨c, r, rfl, hc, hr⟩ := h.exists_cons
  intro d hd
  rcases List.mem_cons.mp hd with rfl | hd
  · rcases hc with rfl | hc
    · exact Or.inl (by decide)
    · exact Or.inr hc
  · exact Or.inr (hr d hd)

theorem IsInteger.getLast?_any {s : Text} (h : IsInteger s) : s.getLast?.any isDigit = true :=
  IsLiteral.getLast?_any (.integer h)

/-- The only point of a fraction stands between its two runs of digits. -/
theorem getElem?_append_point {whole digits : Text} (hw : '.' ∉ whole) (hd : '.' ∉ digits)
    {i : Nat} (hi : (whole ++ '.' :: digits)[i]? = some '.') : i = whole.length := by
  rcases Nat.lt_trichotomy i whole.length with hlt | heq | hgt
  · rw [List.getElem?_append_left hlt] at hi
    exact absurd (List.mem_of_getElem? hi) hw
  · exact heq
  · obtain ⟨k, rfl⟩ : ∃ k, i = whole.length + (k + 1) := ⟨i - whole.length - 1, by omega⟩
    rw [getElem?_append_add, List.getElem?_cons_succ] at hi
    exact absurd (List.mem_of_getElem? hi) hd

theorem isLocallyFormed_fraction {whole digits : Text} (hw : IsInteger whole)
    (hd : IsDigits digits) : IsLocallyFormed (whole ++ '.' :: digits) where
  allowed := by
    intro c hc
    rcases List.mem_append.mp hc with hc | hc
    · exact hw.allowed c hc
    rcases List.mem_cons.mp hc with rfl | hc
    · exact Or.inl (by decide)
    · exact Or.inr (hd.2 c hc)
  digit_before := by
    intro i hi
    obtain rfl := getElem?_append_point hw.point_notMem hd.point_notMem hi
    have hlast := hw.getLast?_any
    have hpos : 0 < whole.length := by
      refine List.length_pos_iff.mpr ?_
      rintro rfl
      cases hlast
    refine ⟨whole.length - 1, by omega, ?_⟩
    rwa [List.getElem?_append_left (by omega), ← List.getLast?_eq_getElem?]
  digit_behind := by
    intro i hi
    obtain rfl := getElem?_append_point hw.point_notMem hd.point_notMem hi
    rw [getElem?_append_add, List.getElem?_cons_succ, ← List.head?_eq_getElem?]
    have hhead := hd.head?_any []
    rwa [List.append_nil] at hhead
  apart := by
    intro i j hij hi hj
    have := getElem?_append_point hw.point_notMem hd.point_notMem hi
    have := getElem?_append_point hw.point_notMem hd.point_notMem hj
    omega

theorem IsLiteral.isLocallyFormed {s : Text} (h : IsLiteral s) : IsLocallyFormed s := by
  cases h with
  | integer hw => exact isLocallyFormed_of_notMem hw.point_notMem hw.allowed
  | fraction hw hd => exact isLocallyFormed_fraction hw hd

/-- A lexeme that can be read is locally formed. -/
theorem Lexeme.WellFormed.isLocallyFormed {l : Lexeme} (h : l.WellFormed) {n : Nat} {t : Token}
    (ht : l.read n = .ok t) : IsLocallyFormed l.text := by
  rcases h.read_eq_ok ht with ⟨kind, c, rfl, _⟩ | ⟨literal, x, rfl, _, _⟩
  · obtain ⟨hp, hc⟩ := Kind.allowed_of_symbol? h
    exact isLocallyFormed_singleton hp hc
  · exact IsLiteral.isLocallyFormed h

/-! ## Pieces put together -/

/-- Two locally formed texts can be put together if the second one does not go on with a digit
where the first one has a point. -/
theorem IsLocallyFormed.append {a b : Text} (ha : IsLocallyFormed a) (hb : IsLocallyFormed b)
    (hab : '.' ∈ a → b.head?.any isDigit = false) : IsLocallyFormed (a ++ b) := by
  have hleft : ∀ i, i < a.length → (a ++ b)[i]? = a[i]? := fun i hi =>
    List.getElem?_append_left hi
  have hright : ∀ i, (a ++ b)[a.length + i]? = b[i]? := getElem?_append_add a b
  have hcases : ∀ i, (i < a.length ∧ (a ++ b)[i]? = a[i]?) ∨ ∃ k, i = a.length + k := by
    intro i
    by_cases hi : i < a.length
    · exact Or.inl ⟨hi, hleft i hi⟩
    · exact Or.inr ⟨i - a.length, by omega⟩
  constructor
  · exact List.forall_mem_append.mpr ⟨ha.allowed, hb.allowed⟩
  · intro i hi
    rcases hcases i with ⟨hlt, he⟩ | ⟨j, rfl⟩
    · rw [he] at hi
      obtain ⟨k, rfl, hk⟩ := ha.digit_before i hi
      exact ⟨k, rfl, by rwa [hleft k (by omega)]⟩
    · rw [hright] at hi
      obtain ⟨k, rfl, hk⟩ := hb.digit_before j hi
      exact ⟨a.length + k, rfl, by rwa [hright]⟩
  · intro i hi
    rcases hcases i with ⟨hlt, he⟩ | ⟨j, rfl⟩
    · rw [he] at hi
      have hd := ha.digit_behind i hi
      have hlt : i + 1 < a.length := by
        by_contra hge
        rw [List.getElem?_eq_none (by omega)] at hd
        cases hd
      rwa [hleft _ hlt]
    · rw [hright] at hi
      have hd := hb.digit_behind j hi
      rwa [Nat.add_assoc, hright]
  · intro i j hij hi hj
    rcases hcases i with ⟨hilt, hie⟩ | ⟨i', rfl⟩
    · rw [hie] at hi
      rcases hcases j with ⟨hjlt, hje⟩ | ⟨j', rfl⟩
      · rw [hje] at hj
        obtain ⟨k, c, hik, hkj, hk, hc⟩ := ha.apart i j hij hi hj
        exact ⟨k, c, hik, hkj, by rwa [hleft k (by omega)], hc⟩
      · -- the point of `b` has a digit before it, so the first character of `b` is in between
        rw [hright] at hj
        obtain ⟨k, rfl, _⟩ := hb.digit_before j' hj
        have hne : b ≠ [] := by
          rintro rfl
          cases hj
        obtain ⟨c, r, rfl⟩ := List.exists_cons_of_ne_nil hne
        have hhead : (a ++ c :: r)[a.length + 0]? = some c := hright 0
        exact ⟨a.length + 0, c, by omega, by omega, hhead, hab (List.mem_of_getElem? hi)⟩
    · obtain ⟨j', rfl⟩ : ∃ j', j = a.length + j' := ⟨j - a.length, by omega⟩
      rw [hright] at hi hj
      obtain ⟨k, c, hik, hkj, hk, hc⟩ := hb.apart i' j' (by omega) hi hj
      exact ⟨a.length + k, c, by omega, by omega, by rwa [hright], hc⟩

/-- What can be scanned is locally formed. -/
theorem Scans.isLocallyFormed {n : Nat} {s : Text} {next : Option Char} {found : List Token}
    (h : Scans n s next found) : IsLocallyFormed s := by
  induction h with
  | nil => exact isLocallyFormed_of_notMem (by simp) (by simp)
  | @blank n c s next found hc _ ih =>
    obtain ⟨hp, hallowed⟩ := allowed_of_isBlank hc
    refine (isLocallyFormed_singleton hp hallowed).append ih fun hm => ?_
    exact absurd (List.mem_singleton.mp hm).symm hp
  | @token n l t s next found hl he ht _ ih =>
    refine (hl.isLocallyFormed ht).append ih fun hm => ?_
    rcases hl.read_eq_ok ht with ⟨kind, c, rfl, _⟩ | ⟨literal, x, rfl, _, _⟩
    · exact absurd (List.mem_singleton.mp hm).symm (Kind.allowed_of_symbol? hl).1
    · cases s with
      | nil => rfl
      | cons c s => exact he.1

/-! ## Where a scan stops -/

/-- Where a scan stops between a digit and a point, the digit belongs to a fraction. -/
theorem Scans.exists_fraction {n : Nat} {s : Text} {found : List Token}
    (h : Scans n s (some '.') found) (hs : s.getLast?.any isDigit = true) :
    ∃ a digits, s = a ++ '.' :: digits ∧ ∀ c ∈ digits, isDigit c = true := by
  generalize hq : some '.' = next at h
  induction h with
  | nil => cases hs
  | @blank n c s _ found hc _ ih =>
    by_cases hn : s = []
    · subst hn
      have hf := isDigit_of_isBlank hc
      rw [show isDigit c = true from hs] at hf
      cases hf
    · rw [← List.singleton_append, List.getLast?_append_of_ne_nil [c] hn] at hs
      obtain ⟨a, digits, rfl, hd⟩ := ih hs hq
      exact ⟨c :: a, digits, rfl, hd⟩
  | @token n l t s _ found hl he ht _ ih =>
    by_cases hn : s = []
    · subst hn hq
      rw [List.append_nil] at hs ⊢
      rcases hl.read_eq_ok ht with ⟨kind, c, rfl, _⟩ | ⟨literal, x, rfl, _, _⟩
      · have hf := Kind.isDigit_of_symbol? hl
        rw [show isDigit c = true from hs] at hf
        cases hf
      · cases hl with
        | integer hw => exact absurd rfl (he.2 hw.point_notMem)
        | @fraction whole digits _ hd => exact ⟨whole, digits, rfl, hd.2⟩
    · rw [List.getLast?_append_of_ne_nil l.text hn] at hs
      obtain ⟨a, digits, rfl, hd⟩ := ih hs hq
      exact ⟨l.text ++ a, digits, by rw [List.append_assoc], hd⟩

/-- The only stray character that is allowed is the point. -/
theorem IsStray.eq_point {c : Char} (h : IsStray c)
    (hc : c ∈ " \n()*/+-.".toList ∨ isDigit c = true) : c = '.' := by
  obtain ⟨hblank, hdigit, hkind⟩ := h
  rcases hc with hc | hc
  · have hc : c ∈ " \n()*/+-".toList ++ ['.'] := hc
    rcases List.mem_append.mp hc with hc | hc
    · exfalso
      have hall : " \n()*/+-".toList.all (fun c => isBlank c || Kind.all.any (·.symbol? = some c)) =
          true := by
        decide
      have hsymbol := List.all_eq_true.mp hall c hc
      rw [hblank, Bool.false_or, List.any_eq_true] at hsymbol
      obtain ⟨kind, _, hk⟩ := hsymbol
      exact hkind kind (of_decide_eq_true hk)
    · exact List.mem_singleton.mp hc
  · rw [hdigit] at hc
    cases hc

/-- A text that fails is not locally formed. -/
theorem Fails.not_isLocallyFormed {n : Nat} {s : Text} {e : LexError} (h : Fails n s e) :
    ¬IsLocallyFormed s := by
  intro hs
  cases h with
  | @stray a rest c found ha hc =>
    obtain rfl := hc.eq_point (hs.allowed c (by simp))
    have hpoint : (a ++ '.' :: rest)[a.length]? = some '.' := by simp
    obtain ⟨k, hk, hd⟩ := hs.digit_before _ hpoint
    have hlast : a.getLast?.any isDigit = true := by
      rw [List.getElem?_append_left (by omega)] at hd
      rwa [List.getLast?_eq_getElem?, ← hk]
    obtain ⟨x, digits, rfl, hdigits⟩ := ha.exists_fraction hlast
    have hfirst : (x ++ '.' :: digits ++ '.' :: rest)[x.length]? = some '.' := by simp
    have hlen : (x ++ '.' :: digits).length = x.length + 1 + digits.length := by
      simp
      omega
    obtain ⟨k, c, hxk, hka, hk, hc⟩ := hs.apart _ _ (by omega) hfirst hpoint
    -- all that is left between the two points are the digits of the fraction
    obtain ⟨i, rfl⟩ : ∃ i, k = x.length + (i + 1) := ⟨k - x.length - 1, by omega⟩
    rw [List.getElem?_append_left hka, getElem?_append_add, List.getElem?_cons_succ] at hk
    rw [hdigits c (List.mem_of_getElem? hk)] at hc
    cases hc
  | @openFraction a literal rest found ha hl hr =>
    obtain ⟨whole, _, rfl⟩ := hl
    have he : a ++ (whole ++ ['.'] ++ rest) = (a ++ whole) ++ '.' :: rest := by simp
    rw [he] at hs
    have hd := hs.digit_behind (a ++ whole).length (by simp)
    rw [getElem?_append_add, List.getElem?_cons_succ, ← List.head?_eq_getElem?, hr] at hd
    cases hd

/-! ## Top theorem -/

/-- **The accepted texts are the locally formed ones** that are not too long. -/
theorem isAccepted_iff_isLocallyFormed (s : Text) :
    IsAccepted s ↔ s.length ≤ Position.greatest ∧ IsLocallyFormed s := by
  constructor
  · intro h
    obtain ⟨tokens, htokens⟩ := h
    obtain ⟨found, hscan, _⟩ :=
      (tokenize_eq_ok_iff_scans (IsAccepted.length_le ⟨_, htokens⟩)).mp htokens
    exact ⟨IsAccepted.length_le ⟨_, htokens⟩, hscan.isLocallyFormed⟩
  · rintro ⟨hlen, hs⟩
    rcases scans_or_fails 0 s with ⟨found, hscan⟩ | ⟨e, hfail⟩
    · exact hscan.isAccepted hlen
    · exact absurd hs hfail.not_isLocallyFormed

end ArithTokens
