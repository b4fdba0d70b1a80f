import ArithTokens.Proofs.Concatenation
import ArithTokens.Proofs.CorrectRounding
import ArithTokens.Proofs.Lookahead
import ArithTokens.Proofs.ReadBack

/-!
# Values of number tokens

A literal denotes its whole part and its fraction together, exactly.  The number token of a step
has the rounding of this as its magnitude, and its sign is that of the literal, also before a zero.
No literal fails to be converted, and each value is a number, so each answer equals itself.

    IsLiteral l → Decimal.ofLiteral? l has the sign and the value that l denotes    (exists_decimal)
    IsLiteral l → Binary64.ofLiteral? l = some x → IsValueOf l x           (isValueOf_of_isLiteral)
    c.IsReachable s → HasExactValue s c                               (hasExactValue_of_isReachable)
-/

namespace ArithTokens

/-! ## Definitions -/

namespace Literal

/-- A literal without its sign. -/
def unsigned (literal : Text) : Text :=
  literal.dropWhile (· = '-')

def whole (literal : Text) : Text :=
  (unsigned literal).takeWhile (· ≠ '.')

def fraction (literal : Text) : Text :=
  ((unsigned literal).dropWhile (· ≠ '.')).drop 1

/-- The number that a literal denotes, without its sign. -/
def magnitude (literal : Text) : ℚ :=
  Nat.ofDigitChars 10 (whole literal) 0 +
    Nat.ofDigitChars 10 (fraction literal) 0 / 10 ^ (fraction literal).length

end Literal

/-- The number is what a literal denotes, rounded to nearest, ties to even. -/
structure IsValueOf (literal : Text) (x : Binary64) : Prop where
  converted : Binary64.ofLiteral? literal = some x
  /-- This has the threshold from which on the number is infinite. -/
  rounding : Binary64.IsRounding (Literal.magnitude literal) x.magnitude
  /-- The sign bit is set where the literal has a minus sign, also before a zero. -/
  bits_eq : x.bits = (if literal.head? = some '-' then Binary64.signBit else 0) + x.magnitude
  zero_iff : x.magnitude = 0 ↔ Literal.magnitude literal ≤ 1 / 2 ^ 1075
  isNaN_eq : x.isNaN = false

/-- A step from the cursor converts what lies under the span of its token, without fail. -/
structure HasExactValue (s : Text) (c : Cursor) : Prop where
  /-- A step that takes each literal one character at a time comes to the same. -/
  guarded : c.guardedNext = .ok c.next
  number : ∀ t, c.next.1 = .ok t → t.kind = .number →
    Lexeme.first? c.skipBlanks.rest = some (.number (t.span.slice s)) ∧
      ∃ x, t.value = some x ∧ IsValueOf (t.span.slice s) x
  readable : ∀ e literal, c.next.1 = .error e → e.cause ≠ .unreadableNumber literal

/-- Equality of answers with numbers compared by value. -/
def answerEq : Except LexError (List Token) → Except LexError (List Token) → Bool
  | .ok tokens, .ok tokens' => tokens.isEqv tokens' Token.valueEq
  | .error e, .error e' => e = e'
  | _, _ => false

/-! ## What a literal denotes -/

theorem IsDigits.head?_ne_minus {digits : Text} (h : IsDigits digits) (rest : Text) :
    (digits ++ rest).head? ≠ some '-' := by
  intro he
  have hhead := h.head?_any rest
  rw [he] at hhead
  cases hhead

namespace Literal

theorem unsigned_of_head?_ne {s : Text} (h : s.head? ≠ some '-') : unsigned s = s := by
  cases s with
  | nil => rfl
  | cons c s => exact List.dropWhile_cons_of_neg (by simpa using h)

section
variable {sign digits : Text} (hs : sign = [] ∨ sign = ['-']) (hd : IsDigits digits)
include hs hd

theorem unsigned_append (rest : Text) : unsigned (sign ++ (digits ++ rest)) = digits ++ rest := by
  have h := unsigned_of_head?_ne (hd.head?_ne_minus rest)
  rcases hs with rfl | rfl
  · exact h
  · exact h

theorem head?_append_iff (rest : Text) :
    (sign ++ (digits ++ rest)).head? = some '-' ↔ sign = ['-'] := by
  rcases hs with rfl | rfl
  · exact iff_of_false (hd.head?_ne_minus rest) (by simp)
  · exact iff_of_true rfl rfl

/-- The digits end with the text or before a point. -/
theorem parts_append {rest : Text} (hr : rest = [] ∨ rest.head? = some '.') :
    whole (sign ++ (digits ++ rest)) = digits ∧
      fraction (sign ++ (digits ++ rest)) = rest.drop 1 := by
  have hpoint : ∀ c ∈ digits, decide (c ≠ '.') = true := by
    intro c hc
    rw [decide_eq_true_eq]
    rintro rfl
    exact hd.notMem (by decide) hc
  rw [whole, fraction, unsigned_append hs hd, List.takeWhile_append_of_pos hpoint,
    List.dropWhile_append_of_pos hpoint]
  rcases hr with rfl | hr
  · simp
  · obtain ⟨more, rfl⟩ := List.head?_eq_some_iff.mp hr
    simp

theorem magnitude_integer : magnitude (sign ++ (digits ++ [])) = Nat.ofDigitChars 10 digits 0 := by
  obtain ⟨hw, hf⟩ := parts_append hs hd (Or.inl rfl)
  rw [magnitude, hw, hf, List.drop_nil, Nat.ofDigitChars_nil, Nat.cast_zero, zero_div, add_zero]

theorem magnitude_fraction (digits' : Text) :
    magnitude (sign ++ (digits ++ '.' :: digits')) =
      Nat.ofDigitChars 10 digits 0 + Nat.ofDigitChars 10 digits' 0 / 10 ^ digits'.length := by
  obtain ⟨hw, hf⟩ := parts_append hs hd
    (show '.' :: digits' = [] ∨ ('.' :: digits').head? = some '.' from Or.inr rfl)
  rw [magnitude, hw, hf]
  rfl

end

/-- A literal is read as a decimal with its sign and of the value that it denotes. -/
theorem exists_decimal {literal : Text} (h : IsLiteral literal) :
    ∃ d, Decimal.ofLiteral? literal = some d ∧
      (d.negative = true ↔ literal.head? = some '-') ∧
      magnitude literal = d.coefficient / 10 ^ d.places := by
  cases h with
  | integer hw =>
    obtain ⟨sign, digits, hs, hd, rfl⟩ := hw
    have hhead := hd.head?_any []
    have hsign := head?_append_iff hs hd []
    have hvalue := magnitude_integer hs hd
    rw [List.append_nil] at hhead hsign hvalue
    refine ⟨_, (Decimal.ofLiteral?_sign_append hs hhead).trans (Decimal.ofUnsigned?_digits _ hd),
      ?_, ?_⟩
    · rw [hsign]
      exact decide_eq_true_iff
    · rw [hvalue]
      simp
  | @fraction _ digits' hw hf =>
    obtain ⟨sign, digits, hs, hd, rfl⟩ := hw
    rw [List.append_assoc]
    refine ⟨_, (Decimal.ofLiteral?_sign_append hs (hd.head?_any _)).trans
      (Decimal.ofUnsigned?_fraction _ hd hf), ?_, ?_⟩
    · rw [head?_append_iff hs hd]
      exact decide_eq_true_iff
    · rw [magnitude_fraction hs hd, Decimal.ofDigitChars_append, Nat.pow_eq]
      push_cast
      field_simp

end Literal

/-! ## Values of literals -/

theorem Binary64.isNaN_ofDecimal (d : Decimal) : (ofDecimal d).isNaN = false :=
  decide_eq_false (Nat.not_lt_of_le (nearest_le_infinity _ _))

theorem Binary64.isNaN_of_ofLiteral? {literal : Text} {x : Binary64}
    (h : ofLiteral? literal = some x) : x.isNaN = false := by
  obtain ⟨d, -, rfl⟩ := Option.map_eq_some_iff.mp h
  exact isNaN_ofDecimal d

theorem isValueOf_of_isLiteral {literal : Text} (h : IsLiteral literal) {x : Binary64}
    (hx : Binary64.ofLiteral? literal = some x) : IsValueOf literal x := by
  obtain ⟨d, hd, hsign, hvalue⟩ := Literal.exists_decimal h
  have hxd : Binary64.ofDecimal d = x := by
    rw [Binary64.ofLiteral?, hd] at hx
    exact Option.some.inj hx
  subst hxd
  have hrounding : Binary64.IsRounding (Literal.magnitude literal)
      (Binary64.ofDecimal d).magnitude := by
    rw [hvalue]
    exact Binary64.isRounding_nearestDecimal _ _
  refine ⟨hx, hrounding, ?_, hrounding.eq_zero_iff, Binary64.isNaN_ofDecimal d⟩
  unfold Binary64.bits
  simp only [← hsign]
  rfl

/-! ## Steps -/

namespace Cursor

theorem IsIn.skipBlanks {s : Text} {c : Cursor} (h : c.IsIn s) : c.skipBlanks.IsIn s := by
  have hr : c.rest = c.rest.takeWhile isBlank ++ c.skipBlanks.rest := by
    rw [rest_skipBlanks, List.takeWhile_append_dropWhile]
  exact h.of_append hr rfl

theorem next_of_first? {c : Cursor} {l : Lexeme} (h : Lexeme.first? c.skipBlanks.rest = some l) :
    c.next.1 = l.read c.skipBlanks.offset := by
  unfold next
  simp only [h]

theorem wellFormed_of_first? {c : Cursor} {l : Lexeme}
    (h : Lexeme.first? c.skipBlanks.rest = some l) :
    l.WellFormed ∧ ∃ rest, c.skipBlanks.rest = l.text ++ rest := by
  have hb : c.skipBlanks.rest.head?.any isBlank = false := by
    rw [rest_skipBlanks]
    have hhead := List.head?_dropWhile_not isBlank c.rest
    cases hd : (c.rest.dropWhile isBlank).head? with
    | none => rfl
    | some x =>
      rw [hd] at hhead
      simpa using hhead
  obtain ⟨rest, hrest, hl, -⟩ := (Lexeme.first?_eq_some_iff hb).mp h
  exact ⟨hl, rest, hrest⟩

/-- The literal of a number token is what lies under its span. -/
theorem IsIn.number {s : Text} {c : Cursor} (h : c.IsIn s) {t : Token} (ht : c.next.1 = .ok t)
    (hk : t.kind = .number) :
    Lexeme.first? c.skipBlanks.rest = some (.number (t.span.slice s)) ∧
      ∃ x, t.value = some x ∧ IsValueOf (t.span.slice s) x := by
  cases hl : Lexeme.first? c.skipBlanks.rest with
  | none =>
    unfold Cursor.next at ht
    simp only [hl, Except.ok.injEq] at ht
    subst ht
    cases hk
  | some l =>
    obtain ⟨hwf, rest, hrest⟩ := wellFormed_of_first? hl
    rw [next_of_first? hl] at ht
    rcases hwf.read_eq_ok ht with ⟨kind, x, rfl, rfl⟩ | ⟨literal, x, rfl, hx, rfl⟩
    · -- no character stands for a number by itself
      obtain rfl : kind = .number := hk
      cases hwf
    · have hdrop : s.drop c.skipBlanks.offset = literal ++ rest := by
        rw [← h.skipBlanks.rest_eq, hrest]
        rfl
      rw [slice_add_length hdrop]
      exact ⟨rfl, x, rfl, isValueOf_of_isLiteral hwf hx⟩

/-- No literal fails to be converted. -/
theorem cause_ne_unreadableNumber {c : Cursor} {e : LexError} (he : c.next.1 = .error e)
    (literal : Text) : e.cause ≠ .unreadableNumber literal := by
  cases hl : Lexeme.first? c.skipBlanks.rest with
  | none =>
    unfold Cursor.next at he
    simp only [hl, reduceCtorEq] at he
  | some l =>
    rw [next_of_first? hl] at he
    rcases (wellFormed_of_first? hl).1.read_eq_error he with ⟨x, -, rfl⟩ | ⟨_, -, rfl⟩
    · exact Cause.noConfusion
    · exact Cause.noConfusion

end Cursor

/-! ## Answers -/

theorem Token.valueEq_self_of_read {l : Lexeme} (hl : l.WellFormed) {n : Nat} {t : Token}
    (ht : l.read n = .ok t) : t.valueEq t = true := by
  rcases hl.read_eq_ok ht with ⟨kind, c, -, rfl⟩ | ⟨literal, x, -, hx, rfl⟩
  · simp [valueEq, valueEq.sameValue]
  · have hnan := Binary64.isNaN_of_ofLiteral? hx
    simp [valueEq, valueEq.sameValue, Binary64.valueEq, hnan]

theorem Scans.valueEq_self {n : Nat} {s : Text} {next : Option Char} {found : List Token}
    (h : Scans n s next found) : ∀ t ∈ found, t.valueEq t = true := by
  induction h with
  | nil => simp
  | blank _ _ ih => exact ih
  | token hl _ ht _ ih => exact List.forall_mem_cons.mpr ⟨Token.valueEq_self_of_read hl ht, ih⟩

theorem isEqv_self {tokens : List Token} (h : ∀ t ∈ tokens, t.valueEq t = true) :
    tokens.isEqv tokens Token.valueEq = true := by
  induction tokens with
  | nil => rfl
  | cons t tokens ih =>
    obtain ⟨ht, htokens⟩ := List.forall_mem_cons.mp h
    exact Bool.and_eq_true_iff.mpr ⟨ht, ih htokens⟩

theorem answerEq_tokenize_self (s : Text) : answerEq (tokenize s) (tokenize s) = true := by
  cases h : tokenize s with
  | error e => exact decide_eq_true rfl
  | ok tokens =>
    have hs : s.length ≤ Position.greatest := IsAccepted.length_le ⟨tokens, h⟩
    obtain ⟨found, hfound, rfl⟩ := (tokenize_eq_ok_iff_scans hs).mp h
    apply isEqv_self
    intro t ht
    rcases List.mem_append.mp ht with ht | ht
    · exact hfound.valueEq_self t ht
    · rw [List.mem_singleton.mp ht]
      simp [Token.valueEq, Token.valueEq.sameValue, Token.atEnd]

/-! ## Top theorem -/

/-- **A number token has the value of its literal**, correctly rounded and with its sign, wherever
the step is taken; so equality by value takes each answer to be equal to itself. -/
theorem hasExactValue_of_isReachable (s : Text) :
    (∀ c : Cursor, c.IsReachable s → HasExactValue s c) ∧
      answerEq (tokenize s) (tokenize s) = true := by
  refine ⟨fun c hc => ?_, answerEq_tokenize_self s⟩
  have hin := hc.isIn
  obtain ⟨start, _, hstart, -⟩ := hc
  obtain ⟨hs, -, -⟩ := Cursor.isIn_of_ofText hstart
  refine ⟨?_, fun t ht hk => hin.number ht hk, fun e literal he => ?_⟩
  · apply Cursor.guardedNext_eq
    rw [hin.length_eq]
    exact hs
  · exact Cursor.cause_ne_unreadableNumber he literal

/-- A zero keeps its sign, and what lies between two numbers goes to the even one. -/
theorem hasExactValue_zero_and_tie :
    Cursor.IsReachable "-0.00+9007199254740993".toList ⟨0, "-0.00+9007199254740993".toList⟩ ∧
      Cursor.IsReachable "-0.00+9007199254740993".toList ⟨6, "9007199254740993".toList⟩ ∧
      IsValueOf "-0.00".toList (.ofBits 0x8000000000000000) ∧
      IsValueOf "9007199254740993".toList (.ofBits 0x4340000000000000) := by
  have hfirst : Cursor.IsReachable "-0.00+9007199254740993".toList
      ⟨0, "-0.00+9007199254740993".toList⟩ := ⟨_, [], rfl, rfl⟩
  have hlast : Cursor.IsReachable "-0.00+9007199254740993".toList
      ⟨6, "9007199254740993".toList⟩ := ⟨_, [.next, .next], rfl, by decide +kernel⟩
  obtain ⟨hexact, -⟩ := hasExactValue_of_isReachable "-0.00+9007199254740993".toList
  obtain ⟨-, x, hx, hzero⟩ := (hexact _ hfirst).number
    ⟨.number, some (.ofBits 0x8000000000000000), ⟨0, 5⟩⟩ (by decide +kernel) rfl
  obtain ⟨-, y, hy, htie⟩ := (hexact _ hlast).number
    ⟨.number, some (.ofBits 0x4340000000000000), ⟨6, 22⟩⟩ (by decide +kernel) rfl
  cases hx
  cases hy
  exact ⟨hfirst, hlast, hzero, htie⟩

end ArithTokens
