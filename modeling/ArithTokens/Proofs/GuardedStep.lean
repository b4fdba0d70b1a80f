import ArithTokens.Proofs.Step

/-!
# Guarded steps

A guarded step goes one character at a time; a read behind the end of the text, or an offset that is
too large for a position, would leave it without an answer.  It comes to the same as `next`, so each
read is inside of the text and each offset is a position.

    c.offset + c.rest.length ≤ Position.greatest → c.guardedNext = ok c.next     (guardedNext_eq)
-/

namespace ArithTokens.Cursor

/-! ## Characters and offsets -/

theorem take_cons (n : Nat) (x : Char) (s : Text) : take ⟨n, x :: s⟩ = .ok (x, ⟨n + 1, s⟩) := rfl

theorem isAt_eq (p : Char → Bool) (c : Cursor) : c.isAt p = .ok (c.rest.head?.any p) := by
  obtain ⟨n, s⟩ := c
  cases s <;> rfl

theorem takeRun_append {p : Char → Bool} (n : Nat) {run rest : Text} (h : ∀ x ∈ run, p x = true)
    (hr : rest.head?.any p = false) :
    takeRun p ⟨n, run ++ rest⟩ = .ok (run, ⟨n + run.length, rest⟩) := by
  induction run generalizing n with
  | nil =>
    rw [takeRun, isAt_eq, List.nil_append, hr]
    rfl
  | cons x run ih =>
    obtain ⟨hx, hrun⟩ := List.forall_mem_cons.mp h
    rw [takeRun, isAt_eq, List.cons_append, List.head?_cons, Option.any_some, hx]
    split
    · next h => cases h
    · next h => cases h
    · split
      · next h =>
        rw [take_cons] at h
        cases h
      · next h =>
        rw [take_cons] at h
        cases h
        rw [ih (n + 1) hrun, List.length_cons]
        rw [show n + 1 + run.length = n + (run.length + 1) by omega]
        rfl

theorem ofOffset_of_le {n : Nat} (h : n ≤ Position.greatest) : Position.ofOffset n = .ok n :=
  if_pos h

theorem ofOffsets_of_le {start stop : Nat} (hstart : start ≤ stop)
    (hstop : stop ≤ Position.greatest) : Span.ofOffsets start stop = .ok ⟨start, stop⟩ := by
  unfold Span.ofOffsets
  rw [ofOffset_of_le (Nat.le_trans hstart hstop), ofOffset_of_le hstop]

/-! ## Lexemes -/

theorem guardedNumber_eq {literal : Text} {start stop : Nat}
    (hstop : stop = start + literal.length) (h : stop ≤ Position.greatest) :
    guardedNumber literal start stop = .ok ((Lexeme.number literal).read start) := by
  subst hstop
  unfold guardedNumber
  rw [ofOffsets_of_le (by omega) h, ofOffset_of_le (by omega)]
  cases hx : Binary64.ofLiteral? literal with
  | none =>
    simp only [Lexeme.read, hx]
    rfl
  | some x =>
    simp only [Lexeme.read, hx]
    rfl

section
variable {first : Char} {start : Nat} {digits : Text} (hd : ∀ x ∈ digits, isDigit x = true)
include hd

theorem guardedDigits_integer {rest : Text} (hr : rest.head?.any isDigit = false)
    (hp : rest.head? ≠ some '.') (h : start + 1 + digits.length ≤ Position.greatest) :
    guardedDigits first start ⟨start + 1, digits ++ rest⟩ =
      .ok ((Lexeme.number (first :: digits)).read start, ⟨start + 1 + digits.length, rest⟩) := by
  have hpoint : rest.head?.any (· = '.') = false := by
    cases rest with
    | nil => rfl
    | cons x more => simpa using hp
  have hnumber : guardedNumber (first :: digits) start (start + 1 + digits.length) = _ :=
    guardedNumber_eq (by rw [List.length_cons]; omega) h
  unfold guardedDigits
  simp only [bind, Except.bind, takeRun_append _ hd hr, isAt_eq, hpoint, hnumber]
  rfl

theorem guardedDigits_fraction {fraction rest : Text} (hf : IsDigits fraction)
    (hr : rest.head?.any isDigit = false)
    (h : start + 1 + digits.length + 1 + fraction.length ≤ Position.greatest) :
    guardedDigits first start ⟨start + 1, digits ++ '.' :: (fraction ++ rest)⟩ =
      .ok ((Lexeme.number (first :: digits ++ '.' :: fraction)).read start,
        ⟨start + 1 + digits.length + 1 + fraction.length, rest⟩) := by
  have hpoint : ('.' :: (fraction ++ rest)).head?.any isDigit = false := rfl
  have hnumber : guardedNumber (first :: digits ++ '.' :: fraction) start
      (start + 1 + digits.length + 1 + fraction.length) = _ :=
    guardedNumber_eq (by rw [List.length_append, List.length_cons, List.length_cons]; omega) h
  unfold guardedDigits
  simp only [bind, Except.bind, takeRun_append _ hd hpoint, isAt_eq, List.head?_cons,
    Option.any_some, decide_true, if_true, take_cons, hf.head?_any rest,
    takeRun_append _ hf.2 hr, hnumber]
  rfl

theorem guardedDigits_open {rest : Text} (hr : rest.head?.any isDigit = false)
    (h : start + 1 + digits.length + 1 ≤ Position.greatest) :
    guardedDigits first start ⟨start + 1, digits ++ '.' :: rest⟩ =
      .ok ((Lexeme.openFraction (first :: digits ++ ['.'])).read start,
        ⟨start + 1 + digits.length + 1, rest⟩) := by
  have hpoint : ('.' :: rest).head?.any isDigit = false := rfl
  have hstop : start + (first :: digits ++ ['.']).length = start + 1 + digits.length + 1 := by
    rw [List.length_append, List.length_cons, List.length_singleton]
    omega
  unfold guardedDigits
  simp only [bind, Except.bind, takeRun_append _ hd hpoint, isAt_eq, List.head?_cons,
    Option.any_some, decide_true, if_true, take_cons, hr, ofOffset_of_le h]
  simp only [Lexeme.read, Lexeme.text, hstop]
  rfl

end

/-- An integer is read as the digits behind its first character. -/
theorem guardedLexeme_integer {whole : Text} (hw : IsInteger whole) :
    ∃ first digits, whole = first :: digits ∧ (∀ x ∈ digits, isDigit x = true) ∧
      ∀ n rest, guardedLexeme ⟨n, whole ++ rest⟩ =
        guardedDigits first n ⟨n + 1, digits ++ rest⟩ := by
  obtain ⟨sign, digits, hs, hd, rfl⟩ := hw
  rcases hs with rfl | rfl
  · cases digits with
    | nil => exact absurd rfl hd.1
    | cons first digits =>
      obtain ⟨hfirst, hdigits⟩ := List.forall_mem_cons.mp hd.2
      refine ⟨first, digits, rfl, hdigits, fun n rest => ?_⟩
      unfold guardedLexeme
      simp only [bind, Except.bind, List.nil_append, List.cons_append, take_cons,
        Kind.ofPunctuation?_of_isDigit hfirst, if_neg (ne_minus_of_isDigit hfirst), if_pos hfirst]
  · refine ⟨'-', digits, rfl, hd.2, fun n rest => ?_⟩
    have hn : Kind.ofPunctuation? '-' = none := rfl
    show guardedLexeme ⟨n, '-' :: (digits ++ rest)⟩ = _
    unfold guardedLexeme
    simp only [bind, Except.bind, take_cons, hn, if_true, isAt_eq, hd.head?_any rest]

/-- A lexeme that ends where it does by the next character is read whole. -/
theorem guardedLexeme_text_append {l : Lexeme} (hl : l.WellFormed) {rest : Text}
    (hr : l.EndsBefore rest.head?) {n : Nat} (h : n + l.text.length ≤ Position.greatest) :
    guardedLexeme ⟨n, l.text ++ rest⟩ = .ok (l.read n, ⟨n + l.text.length, rest⟩) := by
  cases l with
  | symbol kind c =>
    have hspan : Span.ofOffsets n (n + 1) = .ok ⟨n, n + 1⟩ := ofOffsets_of_le (by omega) h
    unfold guardedLexeme
    simp only [bind, Except.bind, Lexeme.text, List.singleton_append, take_cons]
    by_cases hk : kind = .minus
    · subst hk
      cases hl
      have hn : Kind.ofPunctuation? '-' = none := rfl
      have hdigit : rest.head?.any isDigit = false := hr rfl
      simp only [hn, if_true, isAt_eq, hdigit, hspan]
      rfl
    · simp only [Kind.ofPunctuation?_eq_some_iff.mpr ⟨hl, hk⟩, hspan]
      rfl
  | number literal =>
    cases hl with
    | integer hw =>
      have hp := hr.2 hw.point_notMem
      obtain ⟨first, digits, rfl, hd, hlexeme⟩ := guardedLexeme_integer hw
      simp only [Lexeme.text, List.length_cons] at h ⊢
      rw [hlexeme, guardedDigits_integer hd hr.1 hp (by omega)]
      rw [show n + (digits.length + 1) = n + 1 + digits.length by omega]
    | @fraction whole fraction hw hf =>
      obtain ⟨first, digits, rfl, hd, hlexeme⟩ := guardedLexeme_integer hw
      have hlen : n + (first :: digits ++ '.' :: fraction).length =
          n + 1 + digits.length + 1 + fraction.length := by
        rw [List.length_append, List.length_cons, List.length_cons]
        omega
      simp only [Lexeme.text] at h ⊢
      rw [hlen] at h ⊢
      rw [List.append_assoc, hlexeme, List.cons_append, guardedDigits_fraction hd hf hr.1 h]
  | openFraction literal =>
    obtain ⟨whole, hw, rfl⟩ := hl
    obtain ⟨first, digits, rfl, hd, hlexeme⟩ := guardedLexeme_integer hw
    have hlen : n + (first :: digits ++ ['.']).length = n + 1 + digits.length + 1 := by
      rw [List.length_append, List.length_cons, List.length_singleton]
      omega
    simp only [Lexeme.text] at h ⊢
    rw [hlen] at h ⊢
    rw [List.append_assoc, hlexeme, List.singleton_append, guardedDigits_open hd hr h]
  | stray c =>
    obtain ⟨hblank, hdigit, hkind⟩ := hl
    have hp : Kind.ofPunctuation? c = none := by
      cases hk : Kind.ofPunctuation? c with
      | none => rfl
      | some kind => exact absurd (Kind.ofPunctuation?_eq_some_iff.mp hk).1 (hkind kind)
    have hm : c ≠ '-' := fun h => hkind .minus (by rw [h]; rfl)
    have hpos : Position.ofOffset n = .ok n := ofOffset_of_le (by omega)
    unfold guardedLexeme
    simp only [bind, Except.bind, Lexeme.text, List.singleton_append, take_cons, hp, if_neg hm,
      hdigit, hpos]
    rfl

/-! ## Steps -/

/-- **A guarded step has the answer of the step**, if the end of the text is a position. -/
theorem guardedNext_eq {c : Cursor} (h : c.offset + c.rest.length ≤ Position.greatest) :
    c.guardedNext = .ok c.next := by
  obtain ⟨n, s⟩ := c
  have hstep := isStep_next n s
  generalize next ⟨n, s⟩ = result at hstep
  cases hstep with
  | atEnd hb =>
    have hrun := takeRun_append n hb (show ([] : Text).head?.any isBlank = false from rfl)
    rw [List.append_nil] at hrun
    unfold guardedNext
    simp only [bind, Except.bind, hrun, isAtEnd, List.isEmpty_nil, if_true,
      ofOffsets_of_le (Nat.le_refl _) h]
    rfl
  | @lexeme blanks l rest hb hl hr =>
    have hhead := hl.head?_isBlank rest
    have hrest : (l.text ++ rest).isEmpty = false := by
      rw [List.isEmpty_eq_false_iff]
      simp [hl.text_ne_nil]
    simp only [List.length_append] at h
    unfold guardedNext
    simp only [bind, Except.bind, takeRun_append n hb hhead, isAtEnd, hrest]
    exact guardedLexeme_text_append hl hr (by omega)

end ArithTokens.Cursor
