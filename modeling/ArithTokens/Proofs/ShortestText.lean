import ArithTokens.Proofs.Listing
import ArithTokens.Proofs.Reprint
import ArithTokens.Proofs.ShortestSearch

/-!
# Shortest texts of numbers

The text of a finite number has no needless zeros and denotes the decimal that the search answers,
so no literal with fewer significant digits is read as the same number, and none with as many
denotes something nearer to its value.  Literals are compared as the scan reads them, and a text
that the scan reads is one of them.

    IsTrimmed d.toLiteral                                                  (isTrimmed_toLiteral)
    magnitude d.toLiteral = d.coefficient / 10 ^ d.places                  (magnitude_toLiteral)
    x.IsFinite, x is not a zero → IsShortestText x x.toText             (isShortestText_toText)
    a number token of a text shows the shortest text of its value  (isShortestText_of_tokenize)
-/

namespace ArithTokens

/-! ## Definitions -/

/-- A whole number without needless zeros, `0|[1-9][0-9]*`. -/
def IsTrimmedWhole (s : Text) : Prop :=
  s = ['0'] ∨ (IsDigits s ∧ s.head? ≠ some '0')

/-- Decimal places without needless zeros, `[0-9]*[1-9]`. -/
def IsTrimmedFraction (s : Text) : Prop :=
  IsDigits s ∧ s.getLast? ≠ some '0'

/-- A literal without needless zeros, `-?(0|[1-9][0-9]*)(\.[0-9]*[1-9])?`. -/
inductive IsTrimmed : Text → Prop
  | integer {sign whole : Text} : (sign = [] ∨ sign = ['-']) → IsTrimmedWhole whole →
      IsTrimmed (sign ++ whole)
  | fraction {sign whole fraction : Text} : (sign = [] ∨ sign = ['-']) → IsTrimmedWhole whole →
      IsTrimmedFraction fraction → IsTrimmed (sign ++ (whole ++ '.' :: fraction))

/-- The number that a literal denotes. -/
def Literal.toRat (literal : Text) : ℚ :=
  if literal.head? = some '-' then -magnitude literal else magnitude literal

/-- The exact value of a finite number. -/
def Binary64.toRat (x : Binary64) : ℚ :=
  if x.negative then -value x.magnitude else value x.magnitude

/-- A literal of any length is scanned as one number, which has the 64 bits of `x`. -/
def IsLexedTo (literal : Text) (x : Binary64) : Prop :=
  IsLiteral literal ∧ ∃ y : Binary64, y.bits = x.bits ∧
    (Cursor.next ⟨0, literal⟩).1 = .ok ⟨.number, some y, ⟨0, literal.length⟩⟩

/-- The text has the fewest significant digits of all literals of the number, and denotes what is
nearest to its exact value among those with so many. -/
structure IsShortestText (x : Binary64) (text : Text) : Prop where
  trimmed : IsTrimmed text
  lexed : IsLexedTo text x
  fewest : ∀ literal, IsLexedTo literal x →
    (Literal.significant text).length ≤ (Literal.significant literal).length
  nearest : ∀ literal, IsLexedTo literal x →
    (Literal.significant literal).length = (Literal.significant text).length →
      |Literal.toRat text - x.toRat| ≤ |Literal.toRat literal - x.toRat|

/-! ## The written form -/

namespace Decimal

theorem isTrimmedWhole_ofNat (n : Nat) : IsTrimmedWhole (Text.ofNat n) := by
  rcases Nat.eq_zero_or_pos n with rfl | hpos
  · exact Or.inl rfl
  · refine Or.inr ⟨isDigits_ofNat n, fun hhead => ?_⟩
    obtain ⟨s, hs⟩ := List.head?_eq_some_iff.mp hhead
    have hdigits : ∀ c ∈ s, isDigit c = true := by
      intro c hc
      apply (isDigits_ofNat n).2
      rw [hs]
      exact List.mem_cons_of_mem _ hc
    -- the zero adds nothing, so one digit less would be enough
    have hvalue : Nat.ofDigitChars 10 s 0 = n := by
      have h := Text.ofDigitChars_ofNat n
      rwa [hs, ofDigitChars_cons, Nat.sub_self, Nat.zero_mul, Nat.zero_add] at h
    have hlt : n < 10 ^ s.length := hvalue ▸ ofDigitChars_lt hdigits
    rcases Nat.eq_zero_or_pos s.length with hnil | hlen
    · rw [hnil] at hlt
      omega
    · have hle : (Text.ofNat n).length ≤ s.length :=
        (Nat.length_toDigits_le_iff (by decide) hlen).mpr hlt
      rw [hs, List.length_cons] at hle
      omega

variable (d : Decimal)

theorem isTrimmed_toLiteral : IsTrimmed d.toLiteral := by
  have hwhole : IsTrimmedWhole d.whole := isTrimmedWhole_ofNat _
  rw [toLiteral_eq]
  split
  · rw [List.append_nil]
    exact .integer d.sign_cases hwhole
  · next h =>
    refine .fraction d.sign_cases hwhole ⟨d.isDigits_fraction h, fun hlast => ?_⟩
    exact of_decide_eq_false (Text.getLast?_dropTrailing _ _ '0' hlast) rfl

theorem magnitude_toLiteral :
    Literal.magnitude d.toLiteral = d.coefficient / 10 ^ d.places := by
  obtain ⟨d', hd', -, hvalue⟩ := Literal.exists_decimal d.isLiteral_toLiteral
  obtain ⟨k, hplaces, hcoefficient⟩ := d.exists_trimmed_eq
  rw [ofLiteral?_toLiteral] at hd'
  obtain rfl := Option.some.inj hd'
  rw [hvalue, hplaces, hcoefficient, Nat.pow_eq, pow_add]
  push_cast
  rw [mul_div_mul_right _ _ (by positivity)]

end Decimal

/-! ## Literals of a number -/

theorem isLexedTo_iff {literal : Text} {x : Binary64} :
    IsLexedTo literal x ↔ IsLiteral literal ∧ Binary64.ofLiteral? literal = some x := by
  refine and_congr_right fun h => ?_
  have hends : (Lexeme.number literal).EndsBefore ([] : Text).head? := ⟨rfl, fun _ => nofun⟩
  have hnext := Cursor.next_text_append 0 (l := .number literal) h hends
  rw [show (Lexeme.number literal).text = literal from rfl, List.append_nil] at hnext
  obtain ⟨z, hz⟩ := h.exists_ofLiteral?
  have hread : (Cursor.next ⟨0, literal⟩).1 = .ok ⟨.number, some z, ⟨0, literal.length⟩⟩ := by
    rw [hnext]
    simp [Lexeme.read, Lexeme.text, hz]
  rw [hread, hz]
  simp [Binary64.bits_inj]

namespace IsLexedTo

variable {literal : Text} {x : Binary64} (h : IsLexedTo literal x)
include h

theorem isRounding : Binary64.IsRounding (Literal.magnitude literal) x.magnitude := by
  obtain ⟨hl, hx⟩ := isLexedTo_iff.mp h
  exact (isValueOf_of_isLiteral hl hx).rounding

/-- The literal and the number have the same sign. -/
theorem abs_toRat_sub : |Literal.toRat literal - x.toRat| =
    |Literal.magnitude literal - Binary64.value x.magnitude| := by
  obtain ⟨hl, hx⟩ := isLexedTo_iff.mp h
  obtain ⟨d, hd, hsign, -⟩ := Literal.exists_decimal hl
  rw [Binary64.ofLiteral?, hd] at hx
  have hnegative : x.negative = true ↔ literal.head? = some '-' := by
    rw [← Option.some.inj hx]
    exact hsign
  unfold Literal.toRat Binary64.toRat
  simp only [← hnegative]
  by_cases hneg : x.negative = true
  · rw [if_pos hneg, if_pos hneg, neg_sub_neg, abs_sub_comm]
  · rw [if_neg hneg, if_neg hneg]

end IsLexedTo

/-! ## The text of a number -/

theorem Binary64.isShortestText_toText {x : Binary64} (hf : x.IsFinite) (h0 : x.magnitude ≠ 0) :
    IsShortestText x x.toText := by
  have hpos : 0 < x.magnitude := Nat.pos_of_ne_zero h0
  have hlexed : IsLexedTo x.toText x :=
    isLexedTo_iff.mpr ⟨isLiteral_toText hf, ofLiteral?_toText hf⟩
  obtain ⟨n, hdigits, hfewest, hnearest⟩ := exists_fewest hf hpos
  have hvalue : Literal.magnitude x.toText = shortest x.magnitude / 10 ^ places x.magnitude := by
    rw [toText_of_isFinite hf, Decimal.magnitude_toLiteral]
  rw [← hvalue] at hdigits hnearest
  have hlen : (Literal.significant x.toText).length ≤ n :=
    (Literal.length_significant_le_iff (isLiteral_toText hf)).mpr hdigits
  have hmade : ∀ literal, IsLexedTo literal x →
      Literal.HasDigits (Literal.significant literal).length (Literal.magnitude literal) := by
    intro literal h
    exact (Literal.length_significant_le_iff h.1).mp le_rfl
  refine ⟨?_, hlexed, fun literal h => ?_, fun literal h heq => ?_⟩
  · rw [toText_of_isFinite hf]
    exact Decimal.isTrimmed_toLiteral _
  · exact hlen.trans (hfewest _ _ h.isRounding (hmade literal h))
  · rw [hlexed.abs_toRat_sub, h.abs_toRat_sub]
    exact hnearest _ h.isRounding ((hmade literal h).mono (heq ▸ hlen))

/-! ## Top theorem -/

/-- **A number token shows the shortest text of its value**, unless this is a zero or infinite. -/
theorem isShortestText_of_tokenize {s : Text} {tokens : List Token} (h : tokenize s = .ok tokens)
    {t : Token} (ht : t ∈ tokens) (hk : t.kind = .number) :
    ∃ x, t.value = some x ∧ (x.IsFinite → x.magnitude ≠ 0 →
      ∃ text, t.toText = "Number(".toList ++ text ++ ")".toList ∧ IsShortestText x text) := by
  obtain ⟨found, hscan, rfl⟩ := (tokenize_eq_ok_iff_scans (IsAccepted.length_le ⟨_, h⟩)).mp h
  have hfound : t ∈ found := by
    rcases List.mem_append.mp ht with hfound | hend
    · exact hfound
    · rw [List.mem_singleton.mp hend] at hk
      cases hk
  obtain ⟨text, ⟨c, hc, -, -⟩ | ⟨-, -, x, -, hx⟩⟩ := hscan.exists_spells t hfound
  · rw [hk] at hc
    cases hc
  · refine ⟨x, hx, fun hf h0 => ⟨x.toText, ?_, Binary64.isShortestText_toText hf h0⟩⟩
    rw [Token.toText, hx, hk]
    rfl

/-- Many digits of a tenth, in front of a negative number. -/
theorem isShortestText_tenth :
    tokenize "0.1000000000000000055511151231257827-3".toList = .ok
        [⟨.number, some (.ofBits 0x3fb999999999999a), ⟨0, 36⟩⟩,
          ⟨.number, some (.ofBits 0xc008000000000000), ⟨36, 38⟩⟩, Token.atEnd 38] ∧
      IsShortestText (.ofBits 0x3fb999999999999a) "0.1".toList := by
  have htokens : tokenize "0.1000000000000000055511151231257827-3".toList = .ok
      [⟨.number, some (.ofBits 0x3fb999999999999a), ⟨0, 36⟩⟩,
        ⟨.number, some (.ofBits 0xc008000000000000), ⟨36, 38⟩⟩, Token.atEnd 38] := by
    decide +kernel
  refine ⟨htokens, ?_⟩
  obtain ⟨x, hx, hshort⟩ := isShortestText_of_tokenize htokens List.mem_cons_self rfl
  obtain rfl := Option.some.inj hx
  obtain ⟨text, htext, hshort⟩ := hshort (by decide +kernel) (by decide +kernel)
  have hshown : "Number(".toList ++ "0.1".toList ++ ")".toList =
      "Number(".toList ++ text ++ ")".toList := by
    rw [← htext]
    decide +kernel
  obtain rfl := List.append_cancel_left (List.append_cancel_right hshown)
  exact hshort

end ArithTokens
